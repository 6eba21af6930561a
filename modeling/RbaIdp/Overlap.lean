import RbaIdp.Isolation
import RbaIdp.Relational.Interleaving

/-!
# Ownership when requests overlap

`Ownership.lean` has requests served one at a time.  Here any number of them are
served at once: each looks its rows up in the directory that is committed when it
reads, and its statements are committed later, to whatever is committed then.

What a request has checked may be out of date by then.  Most of it cannot be: users,
applications and permissions are never deleted and never change hands, and a tenant's
anchors are never moved.  Groups and roles can be deleted, and an operator chooses the
id of a new one.  A group that is gone does no harm, since a statement that names it is
refused.  A group that is gone and back as somebody else's does.

So ownership survives any overlap in which an id that a request in flight has seen
under one owner is not given to another (`Considerate`), and not every one
(`not_wellOwned_overlapping`).
-/

namespace RbaIdp

open Relational

variable {env : Env} {dir dir' start : Directory} {w : DirectoryWrite} {op : Operator}
  {call : AdminCall}

/-! ## Owners are old, or come with the statement -/

theorem userTenant_of_effect {userId tenantId : String}
    (h : (w.effect dir).userTenant userId = some tenantId) :
    dir.userTenant userId = some tenantId ∨
      ∃ row, w = .insertUser row ∧ row.userId = userId ∧ row.tenantId = tenantId := by
  obtain ⟨user, huser, rfl⟩ := Option.map_eq_some_iff.mp h
  cases w with
  | insertUser row =>
      rcases Table.mem_or_eq_of_mem_insert (Table.mem_of_get huser) with hold | rfl
      · rw [Directory.userTenant, ← Table.key_of_get huser, Table.get_of_mem hold]
        exact Or.inl rfl
      · exact Or.inr ⟨_, rfl, Table.key_of_get huser, rfl⟩
  | setUserEnabled | setUserIsAdmin | setUserPasswordHash | setUserAlwaysPasskey
  | setUserLastLogin =>
      simp only [DirectoryWrite.effect, Directory.updateUser, Table.get_modify,
        Option.map_eq_some_iff] at huser
      obtain ⟨old, hold, rfl⟩ := huser
      refine Or.inl ?_
      rw [Directory.userTenant, hold, Option.map_some]
      split <;> rfl
  | _ => exact Or.inl h

theorem applicationTenant_of_effect {applicationId tenantId : String}
    (h : (w.effect dir).applicationTenant applicationId = some tenantId) :
    dir.applicationTenant applicationId = some tenantId ∨
      ∃ row, w = .insertApplication row ∧ row.applicationId = applicationId ∧
        row.tenantId = tenantId := by
  obtain ⟨app, happ, rfl⟩ := Option.map_eq_some_iff.mp h
  have hkey := Table.key_of_get happ
  rcases mem_applications_effect (Table.mem_of_get happ) with ⟨old, hold, hid, htenant⟩ | rfl
  · rw [Directory.applicationTenant, ← hkey, ← hid, Table.get_of_mem hold, Option.map_some, htenant]
    exact Or.inl rfl
  · exact Or.inr ⟨app, rfl, hkey, rfl⟩

theorem permissionApplication_of_effect {permissionId applicationId : String}
    (h : (w.effect dir).permissionApplication permissionId = some applicationId) :
    dir.permissionApplication permissionId = some applicationId ∨
      ∃ row, w = .insertPermission row ∧ row.permissionId = permissionId ∧
        row.applicationId = applicationId := by
  obtain ⟨permission, hpermission, rfl⟩ := Option.map_eq_some_iff.mp h
  have hkey := Table.key_of_get hpermission
  rcases mem_permissions_effect (Table.mem_of_get hpermission) with hold | rfl
  · rw [Directory.permissionApplication, ← hkey, Table.get_of_mem hold]
    exact Or.inl rfl
  · exact Or.inr ⟨permission, rfl, hkey, rfl⟩

theorem groupTenant_of_effect {groupId tenantId : String}
    (h : (w.effect dir).groupTenant groupId = some tenantId) :
    dir.groupTenant groupId = some tenantId ∨
      ∃ row, w = .insertGroup row ∧ row.groupId = groupId ∧ row.tenantId = tenantId := by
  obtain ⟨group, hgroup, rfl⟩ := Option.map_eq_some_iff.mp h
  have hkey := Table.key_of_get hgroup
  rcases mem_groups_effect (Table.mem_of_get hgroup) with ⟨old, hold, hid, htenant⟩ | rfl
  · rw [Directory.groupTenant, ← hkey, ← hid, Table.get_of_mem hold, Option.map_some, htenant]
    exact Or.inl rfl
  · exact Or.inr ⟨group, rfl, hkey, rfl⟩

theorem roleOwners_of_effect {roleId : String} {owners : String × String}
    (h : (w.effect dir).roleOwners roleId = some owners) :
    dir.roleOwners roleId = some owners ∨
      ∃ row, w = .insertRole row ∧ row.roleId = roleId ∧ (row.tenantId, row.applicationId) = owners
    := by
  obtain ⟨role, hrole, rfl⟩ := Option.map_eq_some_iff.mp h
  have hkey := Table.key_of_get hrole
  rcases mem_roles_effect (Table.mem_of_get hrole) with hold | rfl
  · rw [← hkey]
    exact Or.inl hold
  · exact Or.inr ⟨role, rfl, hkey, rfl⟩

/-- No call but the creation of a tenant makes a tenant or moves an anchor. -/
theorem anchors_kept (hscoped : Scoped op call dir w) (dir' : Directory) :
    (w.effect dir').anchors = dir'.anchors := by
  funext tenantId
  cases w with
  | insertTenant | setTenantAnchors => exact hscoped.elim
  | setTenantName | setTenantBranding | setTenantLogo =>
      simp only [Directory.anchors, DirectoryWrite.effect, Directory.updateTenant]
      refine Table.view_modify _ ?_ _
      exact fun _ => rfl
  | _ => rfl

/-! ## What a request in flight goes on knowing -/

/-- Of what was there in the directory that was read, this much is true in another
one: users, applications, permissions and anchors are as they were, and a group or a
role that is there is its owner's. -/
structure Retained (dir dir' : Directory) : Prop where
  users : ∀ userId tenantId, dir.userTenant userId = some tenantId →
    dir'.userTenant userId = some tenantId
  applications : ∀ applicationId tenantId, dir.applicationTenant applicationId = some tenantId →
    dir'.applicationTenant applicationId = some tenantId
  permissions : ∀ permissionId applicationId,
    dir.permissionApplication permissionId = some applicationId →
    dir'.permissionApplication permissionId = some applicationId
  groups : ∀ groupId tenantId tenantId', dir.groupTenant groupId = some tenantId →
    dir'.groupTenant groupId = some tenantId' → tenantId' = tenantId
  roles : ∀ roleId owners owners', dir.roleOwners roleId = some owners →
    dir'.roleOwners roleId = some owners' → owners' = owners
  anchors : dir'.anchors = dir.anchors

theorem Retained.refl (dir : Directory) : Retained dir dir where
  users _ _ h := h
  applications _ _ h := h
  permissions _ _ h := h
  groups _ _ _ h h' := Option.some.inj (h'.symm.trans h)
  roles _ _ _ h h' := Option.some.inj (h'.symm.trans h)
  anchors := rfl

/-- The statement makes no group and no role of an id that was seen under another
owner. -/
def Respects (dir : Directory) : DirectoryWrite → Prop
  | .insertGroup g => ∀ tenantId, dir.groupTenant g.groupId = some tenantId → g.tenantId = tenantId
  | .insertRole r => ∀ owners, dir.roleOwners r.roleId = some owners →
      (r.tenantId, r.applicationId) = owners
  | _ => True

/-- A statement of another request. -/
theorem Retained.other (h : Retained dir dir') (hrespects : Respects dir w)
    (hanchors : (w.effect dir').anchors = dir'.anchors) : Retained dir (w.effect dir') where
  users userId tenantId huser := userTenant_effect (h.users userId tenantId huser)
  applications applicationId tenantId happ :=
    applicationTenant_effect (h.applications applicationId tenantId happ)
  permissions permissionId applicationId hpermission :=
    permissionApplication_effect (h.permissions permissionId applicationId hpermission)
  groups groupId tenantId tenantId' hgroup hafter := by
    rcases groupTenant_of_effect hafter with hold | ⟨row, rfl, rfl, rfl⟩
    · exact h.groups groupId tenantId tenantId' hgroup hold
    · exact hrespects tenantId hgroup
  roles roleId owners owners' hrole hafter := by
    rcases roleOwners_of_effect hafter with hold | ⟨row, rfl, rfl, rfl⟩
    · exact h.roles roleId owners owners' hrole hold
    · exact hrespects owners hrole
  anchors := hanchors.trans h.anchors

/-- A statement of its own, which takes no id of a group or a role that is there in
either directory. -/
theorem Retained.own (h : Retained dir dir')
    (hanchors : ∀ dir₀ : Directory, (w.effect dir₀).anchors = dir₀.anchors)
    (haccepted : w.violates dir = false) (haccepted' : w.violates dir' = false) :
    Retained (w.effect dir) (w.effect dir') := by
  constructor
  case users =>
    intro userId tenantId huser
    rcases userTenant_of_effect huser with hold | ⟨row, rfl, rfl, rfl⟩
    · exact userTenant_effect (h.users userId tenantId hold)
    · simp only [DirectoryWrite.violates, Bool.or_eq_false_iff, Option.isSome_eq_false_iff,
        Option.isNone_iff_eq_none] at haccepted'
      simp [Directory.userTenant, DirectoryWrite.effect, haccepted'.1.1]
  case applications =>
    intro applicationId tenantId happ
    rcases applicationTenant_of_effect happ with hold | ⟨row, rfl, rfl, rfl⟩
    · exact applicationTenant_effect (h.applications applicationId tenantId hold)
    · simp only [DirectoryWrite.violates, Bool.or_eq_false_iff, Option.isSome_eq_false_iff,
        Option.isNone_iff_eq_none] at haccepted'
      simp [Directory.applicationTenant, DirectoryWrite.effect, haccepted'.1.1]
  case permissions =>
    intro permissionId applicationId hpermission
    rcases permissionApplication_of_effect hpermission with hold | ⟨row, rfl, rfl, rfl⟩
    · exact permissionApplication_effect (h.permissions permissionId applicationId hold)
    · simp only [DirectoryWrite.violates, Bool.or_eq_false_iff, Option.isSome_eq_false_iff,
        Option.isNone_iff_eq_none] at haccepted'
      simp [Directory.permissionApplication, DirectoryWrite.effect, haccepted'.1.1]
  case groups =>
    intro groupId tenantId tenantId' hgroup hgroup'
    rcases groupTenant_of_effect hgroup with hold | ⟨row, rfl, rfl, rfl⟩
    · rcases groupTenant_of_effect hgroup' with hold' | ⟨row, rfl, rfl, rfl⟩
      · exact h.groups groupId tenantId tenantId' hold hold'
      · -- the id was free where the statement was decided
        simp only [DirectoryWrite.violates, Bool.or_eq_false_iff, Option.isSome_eq_false_iff,
          Option.isNone_iff_eq_none] at haccepted
        simp [Directory.groupTenant, haccepted.1.1] at hold
    · simp only [DirectoryWrite.violates, Bool.or_eq_false_iff, Option.isSome_eq_false_iff,
        Option.isNone_iff_eq_none] at haccepted'
      simpa [Directory.groupTenant, DirectoryWrite.effect, haccepted'.1.1, eq_comm] using hgroup'
  case roles =>
    intro roleId owners owners' hrole hrole'
    rcases roleOwners_of_effect hrole with hold | ⟨row, rfl, rfl, rfl⟩
    · rcases roleOwners_of_effect hrole' with hold' | ⟨row, rfl, rfl, rfl⟩
      · exact h.roles roleId owners owners' hold hold'
      · simp only [DirectoryWrite.violates, Bool.or_eq_false_iff, Option.isSome_eq_false_iff,
          Option.isNone_iff_eq_none] at haccepted
        simp [Directory.roleOwners, haccepted.1.1.1] at hold
    · simp only [DirectoryWrite.violates, Bool.or_eq_false_iff, Option.isSome_eq_false_iff,
        Option.isNone_iff_eq_none] at haccepted'
      simpa [Directory.roleOwners, DirectoryWrite.effect, haccepted'.1.1.1, eq_comm] using hrole'
  case anchors => rw [hanchors, hanchors, h.anchors]

/-! ## One statement, decided in one directory and committed to another -/

/-- A group that a statement names is there, and its owner's. -/
theorem Retained.group {groupId tenantId : String} (h : Retained dir dir')
    (hgroup : dir.groupTenant groupId = some tenantId) (hthere : dir'.groups.get groupId ≠ none) :
    dir'.groupTenant groupId = some tenantId := by
  obtain ⟨group, hget⟩ := Option.ne_none_iff_exists'.mp hthere
  have howner : dir'.groupTenant groupId = some group.tenantId := by
    rw [Directory.groupTenant, hget, Option.map_some]
  rw [howner, h.groups groupId tenantId group.tenantId hgroup howner]

theorem Retained.role {roleId : String} {owners : String × String} (h : Retained dir dir')
    (hrole : dir.roleOwners roleId = some owners) (hthere : dir'.roles.get roleId ≠ none) :
    dir'.roleOwners roleId = some owners := by
  obtain ⟨role, hget⟩ := Option.ne_none_iff_exists'.mp hthere
  have howners : dir'.roleOwners roleId = some (role.tenantId, role.applicationId) := by
    rw [Directory.roleOwners, hget, Option.map_some]
  rw [howners, h.roles roleId owners _ hrole howners]

theorem scoped_of_retained (h : Retained dir dir') (hscoped : Scoped op call dir w)
    (haccepted : w.violates dir' = false)
    (hthere : ∀ groupId, w = .deleteGroup groupId → dir'.groups.get groupId ≠ none) :
    Scoped op call dir' w := by
  cases w with
  | insertTenant | setTenantAnchors => exact hscoped
  | setApplicationEnabled applicationId enabled =>
      intro hoff
      obtain ⟨happ, hconsole⟩ := hscoped hoff
      exact ⟨h.applications _ _ happ, by rw [h.anchors]; exact hconsole⟩
  | setUserEnabled => exact hscoped
  | insertGroupMembership m =>
      simp only [DirectoryWrite.violates, Bool.or_eq_false_iff, Option.isNone_eq_false_iff,
        Option.isSome_iff_ne_none] at haccepted
      obtain ⟨huser, hgroup | hadmin⟩ := hscoped
      · exact ⟨h.users _ _ huser, Or.inl (h.group hgroup haccepted.1.2)⟩
      · exact ⟨h.users _ _ huser, Or.inr (by rw [h.anchors]; exact hadmin)⟩
  | insertGroupRole gr =>
      simp only [DirectoryWrite.violates, Bool.or_eq_false_iff, Option.isNone_eq_false_iff,
        Option.isSome_iff_ne_none] at haccepted
      obtain ⟨hgroup, applicationId, hrole⟩ := hscoped
      exact ⟨h.group hgroup haccepted.1.2, applicationId, h.role hrole haccepted.2⟩
  | insertRole r => exact ⟨hscoped.1, h.applications _ _ hscoped.2⟩
  | insertRolePermission rp =>
      simp only [DirectoryWrite.violates, Bool.or_eq_false_iff, Option.isNone_eq_false_iff,
        Option.isSome_iff_ne_none] at haccepted
      obtain ⟨tenantId, applicationId, hrole, hpermission⟩ := hscoped
      exact ⟨tenantId, applicationId, h.role hrole haccepted.1.2,
        h.permissions _ _ hpermission⟩
  | deleteGroup groupId =>
      exact ⟨h.group hscoped.1 (hthere groupId rfl), by rw [h.anchors]; exact hscoped.2⟩
  | _ => trivial

/-- The deletion of a group that is gone. -/
theorem deleteGroup_gone {groupId : String} (hgone : dir.groups.get groupId = none) :
    (DirectoryWrite.deleteGroup groupId).effect dir = dir := by
  have hsame : dir.groups.erase (fun r => r.groupId == groupId) = dir.groups := by
    refine Table.erase_eq_self fun r hr => ?_
    simpa using Table.get_eq_none.mp hgone r hr
  simp [DirectoryWrite.effect, hsame]

theorem wellOwned_of_retained (h : Retained dir dir') (howned : WellOwned dir')
    (hscoped : Scoped op call dir w) (haccepted : w.violates dir' = false) :
    WellOwned (w.effect dir') := by
  by_cases hgone : ∃ groupId, w = .deleteGroup groupId ∧ dir'.groups.get groupId = none
  · obtain ⟨groupId, rfl, hnone⟩ := hgone
    rw [deleteGroup_gone hnone]
    exact howned
  · refine wellOwned_effect howned (scoped_of_retained h hscoped haccepted ?_) haccepted
    intro groupId hdelete hnone
    exact hgone ⟨groupId, hdelete, hnone⟩

/-! ## Any order of reads and commits -/

/-- Requests that overlap, in any order of reads and commits; no tenant is created. -/
abbrev Overlapping (env : Env) (ends : List Served → Served → Prop) (start : Db) :
    System Db Served → Prop :=
  Interleaving Served.before (Served.writes env)
    (fun _ s => ∀ op body, s.request ≠ .admin op (.createTenant body)) ends start

/-- A request is committed next to others that are in flight: it makes no group and no
role of an id that one of them has seen under another owner. -/
def Considerate (env : Env) (others : List Served) (s : Served) : Prop :=
  ∀ u ∈ others, ∀ w, .directory w ∈ s.writes env → Respects u.before.toDirectory w

/-- What a request in flight knows. -/
def Knows (s : Served) (db : Db) : Prop :=
  (∀ op body, s.request ≠ .admin op (.createTenant body)) ∧
    Retained s.before.toDirectory db.toDirectory

/-- What a request writes is decided in the directory it has read, and is as good in
the one it is committed to. -/
theorem wellOwned_of_knows {s : Served} {db db' : Db} (hknows : Knows s db)
    (howned : WellOwned db.toDirectory) (hcommit : commit (s.writes env) db = some db') :
    WellOwned db'.toDirectory := by
  obtain ⟨hcall, hretained⟩ := hknows
  refine (Path.along (R := fun a b : Db => Retained a.toDirectory b.toDirectory)
    (I := fun db : Db => WellOwned db.toDirectory)
    (fun a b w hR hI hallows haccepted haccepted' => ?_)
    (Served.path env s) hcommit hretained howned).2
  cases hallows with
  | artefact w => exact ⟨hR, hI⟩
  | lastLogin userId now =>
      exact ⟨hR.own (w := .setUserLastLogin userId now) (fun _ => rfl) haccepted haccepted',
        wellOwned_lastLogin hI⟩
  | edit _ _ hscoped =>
      exact ⟨hR.own (anchors_kept hscoped) haccepted haccepted',
        wellOwned_of_retained hR hI hscoped haccepted'⟩
  | found hrequest => exact absurd hrequest (hcall _ _)

/-- It leaves the others knowing what they knew. -/
theorem knows_of_considerate {s u : Served} {db db' : Db}
    (hconsiderate : ∀ w, .directory w ∈ s.writes env → Respects u.before.toDirectory w)
    (hcall : ∀ op body, s.request ≠ .admin op (.createTenant body)) (hknows : Knows u db)
    (hcommit : commit (s.writes env) db = some db') : Knows u db' := by
  refine ⟨hknows.1, ?_⟩
  have path := Path.of_commit (P := fun _ w => w ∈ s.writes env) hcommit fun w hw _ => hw
  refine path.invariant (I := fun db : Db => Retained u.before.toDirectory db.toDirectory)
    (fun db w hdb hw _ => ?_) hknows.2
  cases w with
  | artefact w => exact hdb
  | directory w =>
      refine hdb.other (hconsiderate w hw) ?_
      obtain ⟨mid, hallows⟩ := (Served.path env s).mem hw
      cases hallows with
      | lastLogin => rfl
      | edit _ _ hscoped => exact anchors_kept hscoped _
      | found hrequest => exact absurd hrequest (hcall _ _)

/-- Whoever may sign in to an application of a well-owned directory is of its tenant. -/
theorem access_of_wellOwned {userId applicationId : String} (h : WellOwned dir)
    (haccess : hasApplicationAccess dir userId applicationId = true) :
    ∃ tenantId, dir.userTenant userId = some tenantId ∧
      dir.applicationTenant applicationId = some tenantId := by
  obtain ⟨r, hr, rfl, hholds⟩ := hasApplicationAccess_iff.mp haccess
  obtain ⟨gr, hgr, hrole, m, hm, hgroup, rfl⟩ := holdsRole_iff.mp hholds
  obtain ⟨tenantId, hgroupTenant, huser⟩ := h.memberships m hm
  obtain ⟨tenantId', applicationId, hgroupTenant', howners⟩ := h.groupRoles gr hgr
  rw [← hgroup, hgroupTenant, Option.some.injEq] at hgroupTenant'
  rw [hrole, Directory.roleOwners, Table.get_of_mem hr, Option.map_some, Option.some.injEq,
    Prod.mk.injEq] at howners
  refine ⟨tenantId, huser, ?_⟩
  rw [hgroupTenant', ← howners.1]
  exact h.roles r hr

/-- **Ownership under overlap.**  From a well-owned directory, requests other than the
creation of a tenant may be read and committed in any order: as long as no id that one
of them has seen under an owner is given to another while it is in flight, no edge of
the RBAC graph ever crosses a tenant or an application, and nobody may ever sign in to
another tenant's application. -/
theorem ownership_overlapping {start : Db} {sys : System Db Served}
    (hstart : WellOwned start.toDirectory) (run : Overlapping env (Considerate env) start sys) :
    WellOwned sys.db.toDirectory ∧
      ∀ userId applicationId, hasApplicationAccess sys.db.toDirectory userId applicationId = true →
        ∃ tenantId, sys.db.userTenant userId = some tenantId ∧
          sys.db.applicationTenant applicationId = some tenantId := by
  have howned := (run.rely (I := fun db : Db => WellOwned db.toDirectory) (K := Knows)
    (fun sys s hcall hread => ⟨hcall, by rw [hread]; exact .refl _⟩)
    (fun db db' others s hconsiderate hknows howned hcommit =>
      ⟨wellOwned_of_knows hknows howned hcommit, fun u hu hknown =>
        knows_of_considerate (hconsiderate u hu) hknows.1 hknown hcommit⟩) hstart).1
  exact ⟨howned, fun userId applicationId => access_of_wellOwned howned⟩

/-- An operator of the tenant Ana works for. -/
def acmeOperator : Operator := ⟨"usr_op", "acme", "acme", ∅, false⟩

/-- She creates a group. -/
def auditCreated : Served :=
  ⟨.standInConsole, .admin acmeOperator (.createGroup ⟨some "audit", "Audit", ""⟩), .numbered 1⟩

/-- At the same time, somebody assigns the staff another role. -/
def auditorCreated : Served :=
  ⟨.standInConsole, .admin acmeOperator (.createRole ⟨some "auditor", "portal", "auditor", ""⟩),
    .numbered 2⟩

/-- Both are read before either is committed. -/
theorem ownership_overlapping_audit : ∃ db,
    Overlapping .standIn (Considerate .standIn) .standInConsole
      ⟨db, [], [auditorCreated, auditCreated]⟩ ∧ WellOwned db.toDirectory := by
  have hwrites : auditCreated.writes .standIn =
      [.directory (.insertGroup ⟨"audit", "acme", "Audit", "", (Draws.numbered 1).now⟩)] := by rfl
  have hevaluated : Db.standInConsole.groups.get "audit" = none ∧
      (commit (auditorCreated.writes .standIn) (auditCreated.after .standIn)).isSome := by
    decide +kernel
  obtain ⟨hfree, hcommits⟩ := hevaluated
  obtain ⟨db, hcommit⟩ := Option.isSome_iff_exists.mp hcommits
  have hread : Overlapping .standIn (Considerate .standIn) .standInConsole
      ⟨.standInConsole, [auditorCreated] ++ auditCreated :: [], []⟩ :=
    .read (.read .start auditCreated rfl (fun _ _ h => by cases h)) auditorCreated rfl
      (fun _ _ h => by cases h)
  have hconsiderate : Considerate .standIn ([auditorCreated] ++ []) auditCreated := by
    intro u hu w hw
    rw [List.mem_singleton.mp hu]
    simp only [hwrites, List.mem_singleton, Write.directory.injEq] at hw
    rw [hw]
    intro tenantId hgroup
    simp [Directory.groupTenant, auditorCreated, hfree] at hgroup
  have hfirst : Overlapping .standIn (Considerate .standIn) .standInConsole
      ⟨auditCreated.after .standIn, [auditorCreated] ++ [], [auditCreated]⟩ :=
    .commit hread hconsiderate (Served.commit_writes _ _)
  have hsecond : Overlapping .standIn (Considerate .standIn) .standInConsole
      ⟨auditCreated.after .standIn, [] ++ auditorCreated :: [], [auditCreated]⟩ := hfirst
  have hboth : Overlapping .standIn (Considerate .standIn) .standInConsole
      ⟨db, [] ++ [], [auditorCreated, auditCreated]⟩ :=
    .commit hsecond (fun u hu => absurd hu (List.not_mem_nil)) hcommit
  exact ⟨db, hboth, (ownership_overlapping wellOwned_standInConsole hboth).1⟩

/-! ## Not in any order -/

/-- A tenant has a group, -/
def auditThere : Served :=
  ⟨.standInRivals, .admin acmeOperator (.createGroup ⟨some "audit", "Audit", ""⟩), .numbered 1⟩

/-- and its operator adds Ana to it: -/
def anaAudits : Served :=
  ⟨auditThere.after .standIn, .admin acmeOperator (.addMember "audit" ⟨"usr_ana"⟩), .numbered 2⟩

/-- before that is committed it is deleted, -/
def auditDeleted : Served :=
  ⟨anaAudits.before, .admin acmeOperator (.deleteGroup "audit"), .numbered 3⟩

/-- and created again by the rival. -/
def auditTaken : Served :=
  ⟨auditDeleted.after .standIn, .admin ⟨"usr_rival", "rival", "rival", ∅, false⟩
    (.createGroup ⟨some "audit", "Audit", ""⟩), .numbered 4⟩

/-- Then a membership of the rival's group is Ana's. -/
theorem not_wellOwned_overlapping : ∃ sys,
    Overlapping .standIn (fun _ _ => True) .standInRivals sys ∧
      ¬ WellOwned sys.db.toDirectory := by
  have hevaluated : (commit (anaAudits.writes .standIn) (auditTaken.after .standIn)).any (fun db =>
      db.groupMemberships.exists? (fun m => m == ⟨"audit", "usr_ana"⟩) &&
        db.groupTenant "audit" == some "rival" && db.userTenant "usr_ana" == some "acme") =
      true := by
    decide +kernel
  obtain ⟨db, hcommit, hcrosses⟩ := (Option.any_eq_true _ _).mp hevaluated
  obtain ⟨⟨hmember, hgroup⟩, huser⟩ : ((⟨"audit", "usr_ana"⟩ ∈ db.groupMemberships) ∧
      db.groupTenant "audit" = some "rival") ∧ db.userTenant "usr_ana" = some "acme" := by
    simpa using hcrosses
  have hcreated : Overlapping .standIn (fun _ _ => True) .standInRivals
      ⟨anaAudits.before, [] ++ [], _⟩ :=
    .commit (.read .start auditThere rfl (fun _ _ h => by cases h)) trivial
      (Served.commit_writes _ _)
  have hread : Overlapping .standIn (fun _ _ => True) .standInRivals
      ⟨auditDeleted.before, [] ++ auditDeleted :: [anaAudits], _⟩ :=
    .read (.read hcreated anaAudits rfl (fun _ _ h => by cases h)) auditDeleted rfl
      (fun _ _ h => by cases h)
  have hdeleted : Overlapping .standIn (fun _ _ => True) .standInRivals
      ⟨auditDeleted.after .standIn, [] ++ [anaAudits], _⟩ :=
    .commit hread trivial (Served.commit_writes _ _)
  have htaking : Overlapping .standIn (fun _ _ => True) .standInRivals
      ⟨auditTaken.before, [] ++ auditTaken :: [anaAudits], _⟩ :=
    .read hdeleted auditTaken rfl (fun _ _ h => by cases h)
  have htaken : Overlapping .standIn (fun _ _ => True) .standInRivals
      ⟨auditTaken.after .standIn, [] ++ anaAudits :: [], _⟩ :=
    .commit htaking trivial (Served.commit_writes _ _)
  refine ⟨_, .commit htaken trivial hcommit, fun howned => ?_⟩
  obtain ⟨tenantId, hgroupTenant, huserTenant⟩ := howned.memberships _ hmember
  have hsame : some "rival" = some "acme" :=
    hgroup.symm.trans (hgroupTenant.trans (huserTenant.symm.trans huser))
  exact absurd hsame (by decide)

end RbaIdp
