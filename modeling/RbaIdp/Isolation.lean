import RbaIdp.Api
import RbaIdp.Effects.Edits
import RbaIdp.Noninterference

/-!
# Whose requests change a tenant

`Elsewhere tenantId` is the condition under which a statement concerns no row of
the tenant: then the tenant's rows of the directory are the same before and after
(`rowsKept_effect`).  Referential integrity is what carries this: an edge names a
group or a role that is there, so a row inserted under a free id owns no edge.

Every call of another tenant's operators executes such statements only.  The calls
on objects that are there are known to from `coupled_serveAdmin`; the creations and
the patch of a tenant are followed here.  A sign-in writes the time of the user's
last login and nothing else in the directory, so the times of last logins are left
out of what is compared.
-/

namespace RbaIdp

open Relational Program

variable {env : Env} {d : Draws} {op : Operator} {tenantId : String}

/-- A directory as a database that nobody has signed in to. -/
def Directory.bare (dir : Directory) : Db := { dir, Artefacts.empty with }

/-- The same rows of a tenant in two directories. -/
def RowsKept (tenantId : String) (dir dir' : Directory) : Prop :=
  Agree tenantId dir.bare dir'.bare

theorem agreeOn_empty {ρ κ : Type} {key : ρ → κ} {own own' : ρ → Prop} :
    Table.AgreeOn own own' (Table.empty : Table ρ key) Table.empty := by
  intro r
  simp

theorem rowsKept_of_agree {db db' : Db} (h : Agree tenantId db db') :
    RowsKept tenantId db.toDirectory db'.toDirectory :=
  ⟨h.tenants, h.tenantDomains, h.applications, h.users, h.groups, h.roles, h.permissions,
    h.groupMemberships, h.groupRoles, h.rolePermissions, agreeOn_empty, agreeOn_empty,
    agreeOn_empty, agreeOn_empty, agreeOn_empty⟩

theorem RowsKept.refl (tenantId : String) (dir : Directory) : RowsKept tenantId dir dir :=
  Agree.refl _ _

theorem RowsKept.trans {dir dir' dir'' : Directory} (h : RowsKept tenantId dir dir')
    (h' : RowsKept tenantId dir' dir'') : RowsKept tenantId dir dir'' :=
  Agree.trans h h'

/-! ## One statement -/

/-- The statement concerns no row of the tenant. -/
def Elsewhere (tenantId : String) (dir : Directory) : DirectoryWrite → Prop
  | .setTenantName other _ | .setTenantBranding other _ | .deleteTenantDomains other =>
      other ≠ tenantId
  | .insertTenantDomain row => row.tenantId ≠ tenantId
  | .insertApplication row => row.tenantId ≠ tenantId
  | .insertUser row => row.tenantId ≠ tenantId
  | .insertGroup row => row.tenantId ≠ tenantId
  | .insertRole row => row.tenantId ≠ tenantId
  | .insertPermission row => dir.applicationTenant row.applicationId ≠ some tenantId
  | .insertGroupMembership row => dir.groupTenant row.groupId ≠ some tenantId
  | .deleteGroupMembership groupId _ => dir.groupTenant groupId ≠ some tenantId
  | _ => False

section Statement

variable {dir : Directory} {w : DirectoryWrite}

theorem applicationTenant_there {applicationId : String}
    (hthere : (dir.applications.get applicationId).isSome) :
    (w.effect dir).applicationTenant applicationId = dir.applicationTenant applicationId := by
  obtain ⟨app, happ⟩ := Option.isSome_iff_exists.mp hthere
  have hbefore : dir.applicationTenant applicationId = some app.tenantId := by
    rw [Directory.applicationTenant, happ, Option.map_some]
  rw [hbefore, applicationTenant_effect hbefore]

variable (h : Elsewhere tenantId dir w)

include h

theorem groupTenant_elsewhere {groupId : String} (hthere : (dir.groups.get groupId).isSome) :
    (w.effect dir).groupTenant groupId = dir.groupTenant groupId := by
  obtain ⟨group, hgroup⟩ := Option.isSome_iff_exists.mp hthere
  have hbefore : dir.groupTenant groupId = some group.tenantId := by
    rw [Directory.groupTenant, hgroup, Option.map_some]
  rw [hbefore]
  refine groupTenant_effect ?_ hbefore
  rintro rfl
  exact h

theorem roleTenant_elsewhere {roleId : String} (hthere : (dir.roles.get roleId).isSome) :
    (w.effect dir).roleTenant roleId = dir.roleTenant roleId := by
  obtain ⟨role, hrole⟩ := Option.isSome_iff_exists.mp hthere
  have hbefore : dir.roleTenant roleId = some role.tenantId := by
    rw [Directory.roleTenant, hrole, Option.map_some]
  obtain ⟨applicationId, howners⟩ := roleOwners_of_tenant hbefore
  rw [hbefore]
  refine roleTenant_of_owners (roleOwners_effect ?_ howners)
  rintro rfl
  exact h

variable (hintegrity : Integrity dir)

include hintegrity

theorem permissions_elsewhere :
    Table.AgreeOn (fun p => dir.applicationTenant p.applicationId = some tenantId)
      (fun p => (w.effect dir).applicationTenant p.applicationId = some tenantId)
      dir.permissions (w.effect dir).permissions := by
  have hsame : Table.AgreeOn (fun p => dir.applicationTenant p.applicationId = some tenantId)
      (fun p => dir.applicationTenant p.applicationId = some tenantId)
      dir.permissions (w.effect dir).permissions := by
    cases w with
    | insertPermission row => exact Table.agreeOn_insert h
    | _ => exact Table.AgreeOn.refl _ _
  refine hsame.congr (fun p _ => Iff.rfl) fun p hp => ?_
  rcases mem_permissions_effect hp with hold | rfl
  · rw [applicationTenant_there (hintegrity.permissions p hold)]
  · rfl

theorem groupMemberships_elsewhere :
    Table.AgreeOn (fun m => dir.groupTenant m.groupId = some tenantId)
      (fun m => (w.effect dir).groupTenant m.groupId = some tenantId)
      dir.groupMemberships (w.effect dir).groupMemberships := by
  have hsame : Table.AgreeOn (fun m => dir.groupTenant m.groupId = some tenantId)
      (fun m => dir.groupTenant m.groupId = some tenantId)
      dir.groupMemberships (w.effect dir).groupMemberships := by
    cases w with
    | insertGroupMembership row => exact Table.agreeOn_insert h
    | deleteGroupMembership groupId userId =>
        refine Table.agreeOn_erase fun m _ hm hown => h ?_
        simp only [Bool.and_eq_true, beq_iff_eq] at hm
        rw [← hm.1]
        exact hown
    | deleteMembershipsOfGroup => exact h.elim
    | _ => exact Table.AgreeOn.refl _ _
  refine hsame.congr (fun m _ => Iff.rfl) fun m hm => ?_
  rcases mem_groupMemberships_effect hm with hold | rfl
  · rw [groupTenant_elsewhere h (hintegrity.memberships m hold)]
  · rfl

theorem groupRoles_elsewhere :
    Table.AgreeOn (fun gr => dir.groupTenant gr.groupId = some tenantId)
      (fun gr => (w.effect dir).groupTenant gr.groupId = some tenantId)
      dir.groupRoles (w.effect dir).groupRoles := by
  have hsame : (w.effect dir).groupRoles = dir.groupRoles := by
    cases w with
    | insertGroupRole | deleteGroupRole | deleteRolesOfGroup | deleteGroupsOfRole => exact h.elim
    | _ => rfl
  rw [hsame]
  refine (Table.AgreeOn.refl _ _).congr (fun gr _ => Iff.rfl) fun gr hgr => ?_
  rw [groupTenant_elsewhere h (hintegrity.groupRoles gr hgr).1]

theorem rolePermissions_elsewhere :
    Table.AgreeOn (fun rp => dir.roleTenant rp.roleId = some tenantId)
      (fun rp => (w.effect dir).roleTenant rp.roleId = some tenantId)
      dir.rolePermissions (w.effect dir).rolePermissions := by
  have hsame : (w.effect dir).rolePermissions = dir.rolePermissions := by
    cases w with
    | insertRolePermission | deletePermissionsOfRole => exact h.elim
    | _ => rfl
  rw [hsame]
  refine (Table.AgreeOn.refl _ _).congr (fun rp _ => Iff.rfl) fun rp hrp => ?_
  rw [roleTenant_elsewhere h (hintegrity.rolePermissions rp hrp)]

/-- **One statement.**  What concerns no row of a tenant leaves its rows as they are. -/
theorem rowsKept_effect : RowsKept tenantId dir (w.effect dir) := by
  refine ⟨?_, ?_, ?_, ?_, ?_, ?_, permissions_elsewhere h hintegrity,
    groupMemberships_elsewhere h hintegrity, groupRoles_elsewhere h hintegrity,
    rolePermissions_elsewhere h hintegrity, agreeOn_empty, agreeOn_empty, agreeOn_empty,
    agreeOn_empty, agreeOn_empty⟩
  case refine_1 =>
    cases w with
    | setTenantName other name | setTenantBranding other branding =>
        refine Table.agreeOn_modify ?_ (fun r _ hr => ?_) fun _ => Iff.rfl
        · exact fun _ => rfl
        · rw [beq_iff_eq.mp hr]
          exact h
    | insertTenant | setTenantLogo | setTenantAnchors => exact h.elim
    | _ => exact Table.AgreeOn.refl _ _
  case refine_2 =>
    cases w with
    | insertTenantDomain row => exact Table.agreeOn_insert h
    | deleteTenantDomains other =>
        refine Table.agreeOn_erase fun r _ hr => ?_
        rw [beq_iff_eq.mp hr]
        exact h
    | _ => exact Table.AgreeOn.refl _ _
  case refine_3 =>
    cases w with
    | insertApplication row => exact Table.agreeOn_insert h
    | setApplicationClientId | setApplicationName | setApplicationEnabled
    | setApplicationRedirectUri | setApplicationAlwaysPasskey => exact h.elim
    | _ => exact Table.AgreeOn.refl _ _
  case refine_4 =>
    cases w with
    | insertUser row => exact Table.agreeOn_insert h
    | setUserEnabled | setUserIsAdmin | setUserPasswordHash | setUserAlwaysPasskey
    | setUserLastLogin => exact h.elim
    | _ => exact Table.AgreeOn.refl _ _
  case refine_5 =>
    cases w with
    | insertGroup row => exact Table.agreeOn_insert h
    | setGroupName | setGroupDescription | deleteGroup => exact h.elim
    | _ => exact Table.AgreeOn.refl _ _
  case refine_6 =>
    cases w with
    | insertRole row => exact Table.agreeOn_insert h
    | setRoleName | setRoleDescription | deleteRole => exact h.elim
    | _ => exact Table.AgreeOn.refl _ _

end Statement

/-! ## Calls of the operators of other tenants -/

/-- The rows of a tenant are the ones it had at the start, and edges name what is there. -/
structure Apart (tenantId : String) (start : Directory) (t : World) : Prop where
  kept : RowsKept tenantId start t.db.toDirectory
  integrity : Integrity t.db.toDirectory

section Calls

variable {start : Directory} {t : World} {E : World → Prop}

theorem Apart.exec {w : DirectoryWrite} (h : Apart tenantId start t)
    (haccepted : w.violates t.db.toDirectory = false) (hw : Elsewhere tenantId t.db.toDirectory w) :
    Apart tenantId start (t.exec (.directory w)) where
  kept := h.kept.trans (rowsKept_effect hw h.integrity)
  integrity := integrity_effect haccepted h.integrity

theorem wp_apart {w : DirectoryWrite} (h : Apart tenantId start t)
    (hw : Elsewhere tenantId t.db.toDirectory w) :
    (onDirectory w).wp (fun _ => Apart tenantId start) (fun _ => True) t :=
  wp_onDirectory fun haccepted => h.exec haccepted hw

/-- Nothing has been written since. -/
theorem wp_apart_reads {α : Type} {m : App α} (h : Apart tenantId start t)
    (hreads : m.wp (fun _ t' => t' = t) (fun _ => True) t) :
    m.wp (fun _ => Apart tenantId start) (fun _ => True) t := by
  refine wp_mono hreads (fun _ t' hsame => ?_) fun _ h => h
  rw [hsame]
  exact h

theorem apart_createGroup {body : CreateGroupRequest} (hother : op.tenantId ≠ tenantId)
    (h : Apart tenantId start t) :
    (createGroup d op body).wp (fun _ => Apart tenantId start) (fun _ => True) t := by
  simp only [createGroup, wp_transaction, wp_bind, wp_read, wp_raiseIf, wp_onIntegrity]
  refine ⟨fun _ => trivial, fun _ => ⟨fun _ => trivial, fun _ => ?_⟩⟩
  refine wp_mono (wp_apart h hother) (fun _ t' h' => ?_) fun _ h => h
  exact wp_apart_reads h' (by simp [refreshGroup, requireGroup])

theorem apart_createRole {body : CreateRoleRequest} (hother : op.tenantId ≠ tenantId)
    (h : Apart tenantId start t) :
    (createRole d op body).wp (fun _ => Apart tenantId start) (fun _ => True) t := by
  simp only [createRole, requireApplication, wp_transaction, wp_bind, wp_read, wp_require,
    wp_raiseIf, wp_onIntegrity]
  refine ⟨fun _ => trivial, fun _ _ => ⟨fun _ => trivial, fun _ => ⟨fun _ => trivial,
    fun _ => ?_⟩⟩⟩
  refine wp_mono (wp_apart h hother) (fun _ t' h' => ?_) fun _ h => h
  exact wp_apart_reads h' (by simp [refreshRole, requireRole])

theorem apart_createApplication {body : CreateApplicationRequest}
    (hother : op.tenantId ≠ tenantId) (h : Apart tenantId start t) :
    (createApplication d op body).wp (fun _ => Apart tenantId start) (fun _ => True) t := by
  simp only [createApplication, wp_transaction, wp_bind, wp_read, wp_raiseIf]
  refine ⟨fun _ => trivial, fun _ => ?_⟩
  refine wp_mono (wp_apart h hother) (fun _ t' h' => ?_) fun _ h => h
  exact wp_apart_reads h' (by simp [refreshApplication, requireApplication])

/-- The permission is on an application of the operator's tenant. -/
theorem apart_createPermission {body : CreatePermissionRequest}
    (hother : op.tenantId ≠ tenantId) (h : Apart tenantId start t) :
    (createPermission op body).wp (fun _ => Apart tenantId start) (fun _ => True) t := by
  simp only [createPermission, requireApplication, wp_transaction, wp_bind, wp_read, wp_require,
    wp_raiseIf, wp_onIntegrity]
  refine ⟨fun _ => trivial, fun app happ => ⟨fun _ => trivial, fun _ => ?_⟩⟩
  obtain ⟨hget, htenant⟩ := Option.filter_eq_some_iff.mp happ
  refine wp_mono (wp_apart h ?_) (fun _ t' h' => ?_) fun _ h => h
  · show t.db.applicationTenant body.applicationId ≠ some tenantId
    rw [Directory.applicationTenant, hget, Option.map_some, beq_iff_eq.mp htenant]
    exact fun hsame => hother (Option.some.inj hsame)
  · exact wp_apart_reads h' (by simp)

/-- The flag's group is the admin group of the operator's tenant. -/
theorem apart_syncAdminFlag {tenant : Tenant} {userId : String} {isAdmin : Bool}
    (hgroup : ∀ groupId, tenant.adminGroupId = some groupId →
      t.db.groupTenant groupId ≠ some tenantId) (h : Apart tenantId start t) :
    (syncAdminFlag tenant userId isAdmin).wp (fun _ => Apart tenantId start) (fun _ => True)
      t := by
  simp only [syncAdminFlag, wp_bind, wp_read, wp_ifSome, wp_when]
  refine ⟨fun _ => h, fun group hfound => ?_⟩
  obtain ⟨groupId, hid, hget⟩ := Option.bind_eq_some_iff.mp hfound
  have hadmin : tenant.adminGroupId = some groupId := by
    rw [nonEmpty, Option.filter_eq_some_iff] at hid
    exact hid.1
  have howner : t.db.groupTenant group.groupId ≠ some tenantId := by
    rw [Table.key_of_get hget]
    exact hgroup groupId hadmin
  refine ⟨fun _ => wp_onDirectory fun haccepted => ⟨fun _ => ?_, fun _ => ?_⟩,
    fun _ => ⟨fun _ => wp_apart h howner, fun _ => h⟩⟩
  · exact wp_apart (h.exec haccepted howner) howner
  · exact h.exec haccepted howner

theorem apart_createUser {body : CreateUserRequest} (howned : Owned t.db.toDirectory)
    (hother : op.tenantId ≠ tenantId) (h : Apart tenantId start t) :
    (createUser env d op body).wp (fun _ => Apart tenantId start) (fun _ => True) t := by
  simp only [createUser, requireTenant, wp_transaction, wp_bind, wp_read, wp_require, wp_raiseIf,
    wp_onIntegrity]
  refine ⟨fun _ => trivial, fun tenant htenant => ⟨fun _ => trivial, fun _ => ?_⟩⟩
  have hgroup : ∀ groupId, tenant.adminGroupId = some groupId →
      t.db.groupTenant groupId ≠ some tenantId := by
    intro groupId hadmin
    rw [howned.adminGroup tenant (Table.mem_of_get htenant) groupId hadmin,
      Table.key_of_get htenant]
    exact fun hsame => hother (Option.some.inj hsame)
  refine wp_onDirectory fun haccepted => ?_
  have hinserted := h.exec (w := .insertUser (userRow env d op body)) haccepted hother
  refine wp_mono (apart_syncAdminFlag hgroup hinserted) (fun _ t' h' => ?_) fun _ h => h
  exact wp_apart_reads h' (by simp [refreshUser, requireUser])

theorem apart_setDomains {other : String} {domains : List String} (hother : other ≠ tenantId)
    (h : Apart tenantId start t) :
    (setDomains other domains).wp (fun _ => Apart tenantId start) (fun _ => True) t := by
  refine wp_seq (I := fun _ => Apart tenantId start) ?_ fun _ t' h' => ?_
  · refine wp_forEach (fun domain _ t' h' => ?_) h
    exact wp_apart_reads h' (by simp)
  · refine wp_seq (wp_apart h' hother) fun _ t'' h'' => ?_
    exact wp_forEach (fun domain _ t₃ h₃ => wp_apart h₃ hother) h''

theorem apart_patchTenant {other : String} {body : PatchTenantRequest} (hother : other ≠ tenantId)
    (h : Apart tenantId start t) :
    (patchTenant other body).wp (fun _ => Apart tenantId start) (fun _ => True) t := by
  rw [patchTenant, wp_transaction]
  refine wp_seq (I := fun _ => Apart tenantId start)
    (wp_apart_reads h (by simp [requireTenant])) fun _ t₁ h₁ => ?_
  refine wp_seq (I := fun _ => Apart tenantId start) ?_ fun _ t₂ h₂ => ?_
  · rw [wp_ifSome]
    exact ⟨fun _ => h₁, fun _ _ => wp_apart h₁ hother⟩
  refine wp_seq (I := fun _ => Apart tenantId start) ?_ fun _ t₃ h₃ => ?_
  · rw [wp_ifSome]
    exact ⟨fun _ => h₂, fun _ _ => apart_setDomains hother h₂⟩
  refine wp_seq (I := fun _ => Apart tenantId start) ?_ fun _ t₄ h₄ => ?_
  · rw [wp_ifSome]
    exact ⟨fun _ => h₃, fun _ _ => wp_apart h₃ hother⟩
  exact wp_apart_reads h₄ (by simp [refreshTenant, requireTenant])

end Calls

/-! ## One request -/

/-- The directory without the times of last logins. -/
def Directory.withoutLogins (dir : Directory) : Directory :=
  { dir with
    users := dir.users.modify (fun _ => true) (fun r => { r with lastLoginAt := none })
      fun _ => rfl }

/-- The same rows of a tenant, whoever has logged in meanwhile. -/
def Unaltered (tenantId : String) (dir dir' : Directory) : Prop :=
  RowsKept tenantId dir.withoutLogins dir'.withoutLogins

theorem unaltered_of_rowsKept {dir dir' : Directory} (h : RowsKept tenantId dir dir') :
    Unaltered tenantId dir dir' := by
  refine ⟨h.tenants, h.tenantDomains, h.applications, ?_, h.groups, h.roles, h.permissions,
    h.groupMemberships, h.groupRoles, h.rolePermissions, agreeOn_empty, agreeOn_empty,
    agreeOn_empty, agreeOn_empty, agreeOn_empty⟩
  refine h.users.modify ?_ ?_ ?_
  · exact fun _ => rfl
  · exact fun _ => Iff.rfl
  · exact fun _ => Iff.rfl

/-- A login is left out of the comparison. -/
theorem withoutLogins_lastLogin (dir : Directory) (userId : String) (now : Time) :
    ((DirectoryWrite.setUserLastLogin userId now).effect dir).withoutLogins =
      dir.withoutLogins := by
  simp only [Directory.withoutLogins, DirectoryWrite.effect, Directory.updateUser]
  congr 1
  simp only [Table.modify, List.map_map, if_true, Table.mk.injEq]
  refine List.map_congr_left fun r _ => ?_
  simp only [Function.comp_apply]
  split <;> rfl

/-- The call changes rows of the tenant, or may.  What a new tenant finds standing under the
ids that are derived from its own is another question, and no run below creates one. -/
def AdminCall.Concerns (op : Operator) (tenantId : String) : AdminCall → Prop
  | .createTenant body => body.tenantId = tenantId
  | .patchTenant other _ => other = tenantId
  | call => call.edits = true ∧ op.tenantId = tenantId

/-- The request is a call that concerns the tenant. -/
def Request.Concerns (tenantId : String) : Request → Prop
  | .admin op call => call.Concerns op tenantId
  | _ => False

variable {s : Served}

/-- What is not an edit leaves the directory as it is, but for last logins. -/
theorem withoutLogins_of_idle
    (hidle : ∀ op call, s.request = .admin op call →
      call.edits = false ∧ ∀ body, call ≠ .createTenant body) :
    (s.after env).toDirectory.withoutLogins = s.before.toDirectory.withoutLogins := by
  refine (Served.path env s).invariant
    (I := fun db => db.toDirectory.withoutLogins = s.before.toDirectory.withoutLogins)
    (fun db w hdb hallows _ => ?_) rfl
  cases hallows with
  | artefact w => exact hdb
  | lastLogin userId now => exact (withoutLogins_lastLogin _ userId now).trans hdb
  | edit hrequest hcall =>
      rw [(hidle _ _ hrequest).1] at hcall
      cases hcall
  | found hrequest => exact absurd rfl ((hidle _ _ hrequest).2 _)

/-- A program that keeps apart from a tenant leaves its rows as they were. -/
theorem rowsKept_of_apart {α : Type} {m : App α} {f : α → Answer} {db : Db} {a : Answer}
    {t' : World} (hintegrity : Integrity db.toDirectory)
    (h : Apart tenantId db.toDirectory (⟨db, [], []⟩ : World) →
      m.wp (fun _ => Apart tenantId db.toDirectory) (fun _ => True) ⟨db, [], []⟩)
    (hrun : (answer m f).run ⟨db, [], []⟩ = (.ok a, t')) :
    RowsKept tenantId db.toDirectory t'.db.toDirectory := by
  have hstart : Apart tenantId db.toDirectory (⟨db, [], []⟩ : World) :=
    ⟨RowsKept.refl _ _, hintegrity⟩
  have hend := wp_of_ok (wp_answer (f := f) (Q := fun _ => Apart tenantId db.toDirectory)
    (h hstart)) hrun
  exact hend.kept

/-- A call of another tenant's operator on objects that are there. -/
theorem rowsKept_onExisting {call : AdminCall} {db : Db} {a : Answer} {t' : World}
    (howned : Owned db.toDirectory) (hunique : Constraints db.toDirectory)
    (hother : op.tenantId ≠ tenantId) (hcall : call.onExisting = true)
    (hrun : (serveAdmin env d op call).run ⟨db, [], []⟩ = (.ok a, t')) :
    RowsKept tenantId db.toDirectory t'.db.toDirectory := by
  have htwin : Twin op.tenantId db db := ⟨Agree.refl _ _, howned, howned, hunique, hunique⟩
  have hstart : Unknowing op.tenantId (db, db) db db :=
    ⟨⟨htwin, fun _ _ => Agree.refl _ _, fun _ _ => Agree.refl _ _⟩, trivial, trivial⟩
  have hend : Unknowing op.tenantId (db, db) t'.db
      ((serveAdmin env d op call).run ⟨db, [], []⟩).2.db :=
    (coupled_serveAdmin hcall).after hstart hrun
  exact rowsKept_of_agree (hend.1.others tenantId (Ne.symm hother))

/-- An edit of another tenant's operator. -/
theorem rowsKept_edit {call : AdminCall} {db : Db} (howned : Owned db.toDirectory)
    (hunique : Constraints db.toDirectory) (hintegrity : Integrity db.toDirectory)
    (hedits : call.edits = true) (hnot : ¬ call.Concerns op tenantId) :
    RowsKept tenantId db.toDirectory
      (Served.after env ⟨db, .admin op call, d⟩).toDirectory := by
  cases hanswer : Served.answer env ⟨db, .admin op call, d⟩ with
  | error e =>
      rw [Served.after_of_error hanswer]
      exact RowsKept.refl _ _
  | ok a =>
      have hrun : (serveAdmin env d op call).run ⟨db, [], []⟩ =
          (.ok a, (Served.outcome env ⟨db, .admin op call, d⟩).2) := Prod.ext hanswer rfl
      have hother : (∀ other body, call ≠ .patchTenant other body) → op.tenantId ≠ tenantId := by
        intro hpatch hsame
        cases call with
        | patchTenant other body => exact hpatch other body rfl
        | createTenant body => cases hedits
        | _ => exact hnot ⟨hedits, hsame⟩
      have hexisting : op.tenantId ≠ tenantId → call.onExisting = true →
          RowsKept tenantId db.toDirectory
            (Served.after env ⟨db, .admin op call, d⟩).toDirectory := by
        intro hother hcall
        exact rowsKept_onExisting howned hunique hother hcall hrun
      cases call with
      | createTenant body => cases hedits
      | patchTenant other body =>
          exact rowsKept_of_apart hintegrity (apart_patchTenant hnot) hrun
      | createUser body =>
          exact rowsKept_of_apart hintegrity
            (apart_createUser howned (hother nofun)) hrun
      | createGroup body =>
          exact rowsKept_of_apart hintegrity (apart_createGroup (hother nofun)) hrun
      | createRole body =>
          exact rowsKept_of_apart hintegrity (apart_createRole (hother nofun)) hrun
      | createApplication body =>
          exact rowsKept_of_apart hintegrity (apart_createApplication (hother nofun)) hrun
      | createPermission body =>
          exact rowsKept_of_apart hintegrity (apart_createPermission (hother nofun)) hrun
      | _ => exact hexisting (hother nofun) (by first | rfl | cases hedits)

/-- A request that does not concern a tenant, and creates none, leaves it unaltered. -/
theorem unaltered_after (hcreate : ∀ op body, s.request ≠ .admin op (.createTenant body))
    (howned : Owned s.before.toDirectory)
    (hunique : Constraints s.before.toDirectory) (hintegrity : Integrity s.before.toDirectory)
    (hnot : ¬ s.request.Concerns tenantId) :
    Unaltered tenantId s.before.toDirectory (s.after env).toDirectory := by
  have hidle : (∀ op call, s.request = .admin op call →
      call.edits = false ∧ ∀ body, call ≠ .createTenant body) →
      Unaltered tenantId s.before.toDirectory (s.after env).toDirectory := by
    intro h
    rw [Unaltered, withoutLogins_of_idle h]
    exact RowsKept.refl _ _
  obtain ⟨db, request, d⟩ := s
  cases request with
  | admin op call =>
      cases hedits : call.edits with
      | true => exact unaltered_of_rowsKept (rowsKept_edit howned hunique hintegrity hedits hnot)
      | false =>
          refine hidle fun op' call' hrequest => ?_
          obtain ⟨rfl, rfl⟩ := Request.admin.inj hrequest
          exact ⟨hedits, fun body hcall => hcreate op body (congrArg (Request.admin op) hcall)⟩
  | _ =>
      refine hidle fun op call hrequest => ?_
      cases hrequest

/-! ## Any number of requests -/

/-- What a run keeps as long as no tenant is created. -/
structure Orderly (dir : Directory) : Prop where
  owned : WellOwned dir
  unique : Constraints dir
  integrity : Integrity dir

theorem orderly_after (hcall : ∀ op body, s.request ≠ .admin op (.createTenant body))
    (h : Orderly s.before.toDirectory) : Orderly (s.after env).toDirectory where
  owned := wellOwned_after hcall h.owned
  unique := commit_invariant constraints_invariant (s.commit_writes env) h.unique
  integrity := commit_invariant integrity_invariant (s.commit_writes env) h.integrity

variable {start db : Db}

theorem unaltered_run {served : List Served} (hstart : Orderly start.toDirectory)
    (run : Run env start served db)
    (hcreate : ∀ s ∈ served, ∀ op body, s.request ≠ .admin op (.createTenant body))
    (hnot : ∀ s ∈ served, ¬ s.request.Concerns tenantId) :
    Orderly db.toDirectory ∧ Unaltered tenantId start.toDirectory db.toDirectory := by
  induction run with
  | nil => exact ⟨hstart, RowsKept.refl _ _⟩
  | @cons served db init request draws ih =>
      obtain ⟨hcreate, hcreatesEarlier⟩ := List.forall_mem_cons.mp hcreate
      obtain ⟨hnot, hearlier⟩ := List.forall_mem_cons.mp hnot
      obtain ⟨horderly, hkept⟩ := ih hcreatesEarlier hearlier
      refine ⟨orderly_after hcreate horderly, ?_⟩
      exact RowsKept.trans hkept (unaltered_after hcreate horderly.owned.owned horderly.unique
        horderly.integrity hnot)

/-- The request is no creation of a tenant. -/
def ApiServed.FoundsNothing (m : ApiServed) : Prop :=
  ∀ authorization actingTenant body, m.request ≠ .admin authorization actingTenant
    (.createTenant body)

theorem Reaches.foundsNothing {m : ApiServed} (h : Reaches env m s) (hcreate : m.FoundsNothing) :
    ∀ op body, s.request ≠ .admin op (.createTenant body) := by
  intro op body hrequest
  cases h with
  | @endpoint request _ =>
      have hoperator := request.2
      rw [show request.1 = .admin op (.createTenant body) from hrequest] at hoperator
      cases hoperator
  | admin request_eq through =>
      obtain ⟨rfl, rfl⟩ := Request.admin.inj hrequest
      exact hcreate _ _ _ request_eq

/-- A request of the API was let through with a call that concerns the tenant: its
token is of a live session of an enabled user, on the console of the user's own
tenant, with the permission of the route; the user is of the tenant, or of the
platform and may read tenants there. -/
def ChangesTenant (env : Env) (start : Db) (m : ApiServed) (tenantId : String) : Prop :=
  ∃ authorization actingTenant call row user home op,
    m.request = .admin authorization actingTenant call ∧
    LetsThrough env m.before m.draws.now authorization call row user home op ∧
    call.Concerns op tenantId ∧
    (user.tenantId = tenantId ∨ start.isPlatform user.tenantId = some true ∧
      scope TENANTS_READ ∈ effectivePermissions m.before.toDirectory user.userId
        row.applicationId)

/-- A request of a history was served in a state that the earlier ones led to. -/
theorem ApiRun.before {hist : List ApiServed} (run : ApiRun env start hist db) {m : ApiServed}
    (hm : m ∈ hist) : ∃ earlier, ApiRun env start earlier m.before := by
  induction run with
  | nil => cases hm
  | cons init request draws ih =>
      rcases List.mem_cons.mp hm with rfl | hm
      · exact ⟨_, init⟩
      · exact ih hm

/-- **Nothing about a tenant changes by itself.**  From an orderly directory, let
clients send any requests to the API, with any headers, in any order, but none that
creates a tenant.  If the rows of a tenant are not what they were, times of last
logins aside, then one of the requests was let through to change them. -/
theorem changes_authorized {hist : List ApiServed} (hstart : Orderly start.toDirectory)
    (run : ApiRun env start hist db) (hcreate : ∀ m ∈ hist, m.FoundsNothing)
    (hchanged : ¬ Unaltered tenantId start.toDirectory db.toDirectory) :
    ∃ m ∈ hist, ChangesTenant env start m tenantId := by
  obtain ⟨served, hrun, hreaches⟩ := api_refines run
  have hconcerns : ∃ s ∈ served, s.request.Concerns tenantId := by
    by_contra hnone
    push Not at hnone
    have hfounds : ∀ s ∈ served, ∀ op body, s.request ≠ .admin op (.createTenant body) := by
      intro s hs
      obtain ⟨m, hm, hreach⟩ := hreaches s hs
      exact hreach.foundsNothing (hcreate m hm)
    exact hchanged (unaltered_run hstart hrun hfounds hnone).2
  obtain ⟨s, hs, hconcern⟩ := hconcerns
  obtain ⟨m, hm, hreach⟩ := hreaches s hs
  refine ⟨m, hm, ?_⟩
  cases hreach with
  | @endpoint request _ =>
      obtain ⟨request, hoperator⟩ := request
      cases request with
      | admin => cases hoperator
      | _ => exact hconcern.elim
  | @admin authorization actingTenant call row user home op hrequest hthrough =>
      refine ⟨_, _, _, _, _, _, _, hrequest, hthrough, hconcern, ?_⟩
      -- what is the platform now was the platform before the run
      have hplatform : home.isPlatform = true → start.isPlatform user.tenantId = some true := by
        intro hhome
        obtain ⟨earlier, hearlier⟩ := run.before hm
        obtain ⟨_, hbefore, -⟩ := api_refines hearlier
        refine isPlatform_run hbefore ?_
        simp [Directory.isPlatform, hthrough.authorized.homeTenant, hhome]
      have hacting : op.tenantId = tenantId → user.tenantId = tenantId ∨
          start.isPlatform user.tenantId = some true ∧ scope TENANTS_READ ∈
            effectivePermissions m.before.toDirectory user.userId row.applicationId := by
        intro htenant
        rcases hthrough.authorized.tenant with hown | ⟨hhome, hreads, -⟩
        · exact Or.inl (hown.symm.trans htenant)
        · exact Or.inr ⟨hplatform hhome, hreads⟩
      have hoperator : call.ofPlatform = true →
          start.isPlatform user.tenantId = some true ∧ scope TENANTS_READ ∈
            effectivePermissions m.before.toDirectory user.userId row.applicationId := by
        intro hcall
        obtain ⟨hhome, hreads⟩ := hthrough.authorized.platform.mp (hthrough.platform hcall)
        exact ⟨hplatform hhome, hreads⟩
      cases call with
      | createTenant body => exact absurd hrequest (hcreate m hm _ _ _)
      | patchTenant => exact Or.inr (hoperator rfl)
      | _ => exact hacting hconcern.2

/-- The state of a tenant whose staff may also write. -/
def Db.standInManaged : Db :=
  { Db.standInConsole with
    toDirectory := applied [.insertPermission ⟨"portal_write", "portal", "admin", "write", ""⟩,
      .insertRolePermission ⟨"member", "portal_write"⟩] Db.standInConsole.toDirectory }

theorem orderly_standInManaged : Orderly Db.standInManaged.toDirectory where
  owned := by
    have hinsert : Scoped .standIn .listUsers Db.standInConsole.toDirectory
        (.insertPermission ⟨"portal_write", "portal", "admin", "write", ""⟩) := trivial
    have hpermission := wellOwned_effect wellOwned_standInConsole hinsert (by decide +kernel)
    have hgrant : Scoped .standIn .listUsers
        ((DirectoryWrite.insertPermission ⟨"portal_write", "portal", "admin", "write", ""⟩).effect
          Db.standInConsole.toDirectory) (.insertRolePermission ⟨"member", "portal_write"⟩) :=
      ⟨"acme", "portal", by decide +kernel, by decide +kernel⟩
    exact wellOwned_effect hpermission hgrant (by decide +kernel)
  unique := by constructor <;> decide +kernel
  integrity := by constructor <;> decide +kernel

def anaSignsIn : ApiServed := ⟨.standInManaged, .endpoint ⟨anaLogsIn, rfl⟩, .usual 1⟩

def anaAddsGroup : ApiServed :=
  ⟨anaSignsIn.after .standIn,
    .admin (bearer 1) none (.createGroup ⟨some "audit", "Audit", ""⟩), .usual 2⟩

theorem changes_authorized_group : ∃ m ∈ [anaAddsGroup, anaSignsIn],
    ChangesTenant .standIn .standInManaged m "acme" := by
  have hrun : ApiRun .standIn .standInManaged [anaAddsGroup, anaSignsIn]
      (anaAddsGroup.after .standIn) := .cons (.cons .nil _ _) _ _
  have hcreate : ∀ m ∈ [anaAddsGroup, anaSignsIn], m.FoundsNothing := by
    intro m hm _ _ _ hrequest
    simp only [List.mem_cons, List.not_mem_nil, or_false] at hm
    rcases hm with rfl | rfl <;> cases hrequest
  refine changes_authorized orderly_standInManaged hrun hcreate fun hsame => ?_
  have hevaluated : (∀ g ∈ Db.standInManaged.groups.rows, g.groupId ≠ "audit") ∧
      ∃ g ∈ (anaAddsGroup.after .standIn).groups.rows, g.groupId = "audit" ∧
        g.tenantId = "acme" := by
    decide +kernel
  obtain ⟨hnone, g, hg, hid, htenant⟩ := hevaluated
  exact hnone g ((hsame.groups g).mpr ⟨hg, htenant⟩).1 hid

end RbaIdp
