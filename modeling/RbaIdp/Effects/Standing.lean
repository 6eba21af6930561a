import RbaIdp.Effects.Serve
import RbaIdp.Relational.Coupling

/-!
# Relations that every admin call keeps

No admin call looks at the challenges, and none inserts an application without a
client id or a permission under another id than that of its scope.  A relation
between databases is kept by every admin call when these facts are enough for its
reads and its statements.
-/

namespace RbaIdp

open Relational Program

/-- An inserted application has a client id, an inserted permission the id of its scope. -/
def Write.Names : Write → Prop
  | .directory (.insertApplication row) => row.clientId ≠ none
  | .directory (.insertPermission row) =>
      row.permissionId = permissionId row.applicationId (row.resource, row.operation)
  | _ => True

structure Standing (R : Db → Db → Prop) : Prop where
  read : ∀ {α : Type} {f : Db → α}, (∀ db challenges, f db = f { db with
    mfaChallenges := challenges }) → ∀ db db', R db db' → f db = f db'
  execute : ∀ w : Write, w.Names → ∀ db db', R db db' →
    Statement.violates w db = Statement.violates w db' ∧
      R (Statement.effect w db) (Statement.effect w db')

variable {env : Env} {d : Draws} {R : Db → Db → Prop} (h : Standing R)

include h

theorem Standing.keeps_read {α : Type} {f : Db → α}
    (hf : ∀ db challenges, f db = f { db with mfaChallenges := challenges }) :
    Keeps R (Program.read f : App α) :=
  Program.keeps_read (h.read hf)

theorem Standing.keeps_execute {w : Write} (hw : w.Names) :
    Keeps R (Program.execute w : App Unit) :=
  Program.keeps_execute (h.execute w hw)

theorem Standing.bootstrapConsole {row : Tenant} : Keeps R (bootstrapConsole d row) := by
  have hpermission : ∀ applicationId spec,
      Keeps R (ensurePermission applicationId spec) := fun _ _ =>
    keeps_bind (h.keeps_read fun _ _ => rfl) fun _ => keeps_when (h.keeps_execute rfl)
  have hrolePermission : ∀ roleId applicationId s,
      Keeps R (ensureRolePermission roleId applicationId s) := fun _ _ _ =>
    keeps_bind (h.keeps_read fun _ _ => rfl) fun _ => keeps_when (h.keeps_execute trivial)
  have hgroupRole : ∀ groupId roleId, Keeps R (ensureGroupRole groupId roleId) := fun _ _ =>
    keeps_bind (h.keeps_read fun _ _ => rfl) fun _ => keeps_when (h.keeps_execute trivial)
  simp only [RbaIdp.bootstrapConsole, ensureApplication, ensurePermissions, ensureRole,
    ensureGroup, onDirectory]
  repeat' with_reducible first
    | exact keeps_pure
    | exact hpermission _ _
    | exact hrolePermission _ _ _
    | exact hgroupRole _ _
    | refine h.keeps_execute ?_
    | refine keeps_bind ?_ fun _ => ?_
    | refine keeps_when ?_
    | refine keeps_forEach fun _ => ?_
    | refine h.keeps_read fun _ _ => ?_
    | split
  all_goals first
    | rfl
    | trivial
    | exact Option.some_ne_none _

theorem Standing.serveAdmin {op : Operator} {call : AdminCall} :
    Keeps R (serveAdmin env d op call) := by
  cases call <;>
    simp only [RbaIdp.serveAdmin, answer, onDirectory, onArtefacts, refreshUser, refreshGroup,
      refreshRole, refreshTenant, refreshApplication, syncAdminFlag, setDomains, requireUser,
      requireTenant, requireGroup, requireRole, requireApplication, currentTenant, listTenants,
      createTenant, checkTenant, patchTenant, listUsers, createUser, patchUser, issueActivationCode,
      listApplications, createApplication, patchApplication, listGroups, getGroup, createGroup,
      patchGroup, deleteGroup, addMember, removeMember, addGroupRole, removeGroupRole, listRoles,
      getRole, createRole, patchRole, deleteRole, setRolePermissions, listPermissions,
      createPermission, insertTenant, issueCode]
  all_goals
    repeat' with_reducible first
      | exact keeps_pure
      | exact keeps_require
      | exact keeps_raiseIf
      | exact keeps_call
      | exact h.bootstrapConsole
      | refine h.keeps_execute ?_
      | refine keeps_transaction ?_
      | refine keeps_onIntegrity ?_
      | refine keeps_bind ?_ fun _ => ?_
      | refine keeps_when ?_
      | refine keeps_ifSome fun _ => ?_
      | refine keeps_forEach fun _ => ?_
      | refine h.keeps_read fun _ _ => ?_
  all_goals first
    | rfl
    | trivial
    | exact Option.some_ne_none _

omit h in
/-- What every statement with such names keeps, every request keeps. -/
theorem Served.after_of_names {I : Db → Prop}
    (hI : ∀ (w : Write) (db : Db), w.Names → I db → I (Statement.effect w db)) {s : Served}
    (h : I s.before) : I (s.after env) := by
  cases hrequest : s.request with
  | admin op call =>
      have hstanding : Standing fun db db' : Db => db = db' ∧ I db := {
        read := fun _ _ _ h => by rw [h.1]
        execute := by
          rintro w hw db _ ⟨rfl, h⟩
          exact ⟨rfl, rfl, hI w db hw h⟩ }
      have hkept : Keeps (fun db db' : Db => db = db' ∧ I db) (serve env s.draws s.request) := by
        rw [hrequest]
        exact hstanding.serveAdmin
      have hstart (t : World) (ht : t.db = s.before) : t.db = t.db ∧ I t.db := ⟨rfl, ht ▸ h⟩
      exact (hkept.db (hstart ⟨s.before, [], []⟩ rfl)).2
  | _ =>
      refine (Served.path env s).invariant (fun db w hdb hallows _ => ?_) h
      cases hallows with
      | artefact w => exact hI _ db trivial hdb
      | lastLogin userId now => exact hI _ db trivial hdb
      | edit hother => rw [hrequest] at hother; cases hother
      | found hother => rw [hrequest] at hother; cases hother

end RbaIdp
