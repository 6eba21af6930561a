import RbaIdp.Db.Statements

/-!
# What a statement does to who owns what

The tenant of a user, of an application, of a group and of a role, and the
application of a role and of a permission, never change: a statement creates the
owner with its object or deletes both.  Users, applications, permissions and
tenants are never deleted.

For the join tables, every edge that is there after a statement was there before
or is the one the statement adds.  The database's referential integrity is part
of this: it is kept by every accepted statement.
-/

namespace RbaIdp

open Relational

namespace Directory

variable (db : Directory)

def userTenant (userId : String) : Option String := (db.users.get userId).map User.tenantId

def applicationTenant (applicationId : String) : Option String :=
  (db.applications.get applicationId).map Application.tenantId

def groupTenant (groupId : String) : Option String := (db.groups.get groupId).map Group.tenantId

/-- A role's owners: its tenant and its application. -/
def roleOwners (roleId : String) : Option (String × String) :=
  (db.roles.get roleId).map fun r => (r.tenantId, r.applicationId)

def permissionApplication (permissionId : String) : Option String :=
  (db.permissions.get permissionId).map Permission.applicationId

/-- Whether an application is enabled. -/
def applicationEnabled (applicationId : String) : Option Bool :=
  (db.applications.get applicationId).map Application.enabled

/-- Whether a user is enabled. -/
def userEnabled (userId : String) : Option Bool := (db.users.get userId).map User.enabled

def isPlatform (tenantId : String) : Option Bool := (db.tenants.get tenantId).map Tenant.isPlatform

/-- A tenant's console application and its admin group. -/
def anchors (tenantId : String) : Option (Option String × Option String) :=
  (db.tenants.get tenantId).map fun t => (t.consoleApplicationId, t.adminGroupId)

end Directory

variable {db : Directory} {w : DirectoryWrite}

/-! ## Owners stay -/

theorem userTenant_effect {userId tenantId : String} (h : db.userTenant userId = some tenantId) :
    (w.effect db).userTenant userId = some tenantId := by
  obtain ⟨user, huser, rfl⟩ := Option.map_eq_some_iff.mp h
  cases w <;> simp [DirectoryWrite.effect, Directory.userTenant, huser] <;> split <;> rfl

theorem applicationTenant_effect {applicationId tenantId : String}
    (h : db.applicationTenant applicationId = some tenantId) :
    (w.effect db).applicationTenant applicationId = some tenantId := by
  obtain ⟨app, happ, rfl⟩ := Option.map_eq_some_iff.mp h
  cases w <;> simp [DirectoryWrite.effect, Directory.applicationTenant, happ] <;> split <;> rfl

/-- An application stays, and stays with its tenant. -/
theorem applicationTenant_invariant {applicationId tenantId : String} :
    Invariant Write fun db : Db => db.applicationTenant applicationId = some tenantId := by
  rintro w db - happ
  cases w with
  | directory w => exact applicationTenant_effect happ
  | artefact w => exact happ

/-- A user and an application are of one tenant. -/
def OneTenant (userId applicationId tenantId : String) (db : Db) : Prop :=
  db.userTenant userId = some tenantId ∧ db.applicationTenant applicationId = some tenantId

/-- They stay so. -/
theorem oneTenant_invariant {userId applicationId tenantId : String} :
    Invariant Write (OneTenant userId applicationId tenantId) := by
  rintro w db - ⟨huser, happ⟩
  cases w with
  | directory w => exact ⟨userTenant_effect huser, applicationTenant_effect happ⟩
  | artefact w => exact ⟨huser, happ⟩

theorem permissionApplication_effect {permissionId applicationId : String}
    (h : db.permissionApplication permissionId = some applicationId) :
    (w.effect db).permissionApplication permissionId = some applicationId := by
  obtain ⟨permission, hpermission, rfl⟩ := Option.map_eq_some_iff.mp h
  cases w <;> simp [DirectoryWrite.effect, Directory.permissionApplication, hpermission]

theorem groupTenant_effect {groupId tenantId : String} (hkept : w ≠ .deleteGroup groupId)
    (h : db.groupTenant groupId = some tenantId) :
    (w.effect db).groupTenant groupId = some tenantId := by
  obtain ⟨group, hgroup, rfl⟩ := Option.map_eq_some_iff.mp h
  have hkey := Table.key_of_get hgroup
  cases w with
  | deleteGroup other =>
      have hne : group.groupId ≠ other := fun heq => hkept (by rw [← heq, hkey])
      simp [DirectoryWrite.effect, Directory.groupTenant, hgroup, hne]
  | _ => simp [DirectoryWrite.effect, Directory.groupTenant, hgroup] <;> split <;> rfl

theorem roleOwners_effect {roleId : String} {owners : String × String}
    (hkept : w ≠ .deleteRole roleId) (h : db.roleOwners roleId = some owners) :
    (w.effect db).roleOwners roleId = some owners := by
  obtain ⟨role, hrole, rfl⟩ := Option.map_eq_some_iff.mp h
  have hkey := Table.key_of_get hrole
  cases w with
  | deleteRole other =>
      have hne : role.roleId ≠ other := fun heq => hkept (by rw [← heq, hkey])
      simp [DirectoryWrite.effect, Directory.roleOwners, hrole, hne]
  | _ => simp [DirectoryWrite.effect, Directory.roleOwners, hrole] <;> split <;> simp

/-- An enabled application stays enabled until it is disabled. -/
theorem applicationEnabled_effect {applicationId : String}
    (hkept : w ≠ .setApplicationEnabled applicationId false)
    (h : db.applicationEnabled applicationId = some true) :
    (w.effect db).applicationEnabled applicationId = some true := by
  obtain ⟨app, happ, henabled⟩ := Option.map_eq_some_iff.mp h
  have hkey := Table.key_of_get happ
  cases w with
  | setApplicationEnabled other enabled =>
      by_cases hother : app.applicationId = other
      · have hon : enabled = true := by
          by_contra hoff
          exact hkept (by rw [← hother, hkey, Bool.eq_false_iff.mpr hoff])
        simp [DirectoryWrite.effect, Directory.applicationEnabled, happ, hother, hon]
      · simp [DirectoryWrite.effect, Directory.applicationEnabled, happ, hother, henabled]
  | _ =>
      simp [DirectoryWrite.effect, Directory.applicationEnabled, happ, henabled] <;> split <;>
        simp [henabled]

/-- A user is as enabled as the last statement on it says. -/
theorem userEnabled_effect {userId : String} {enabled : Bool}
    (hkept : ∀ enabled', w = .setUserEnabled userId enabled' → enabled' = enabled)
    (h : db.userEnabled userId = some enabled) :
    (w.effect db).userEnabled userId = some enabled := by
  obtain ⟨user, huser, rfl⟩ := Option.map_eq_some_iff.mp h
  have hkey := Table.key_of_get huser
  cases w with
  | setUserEnabled other enabled' =>
      by_cases hother : user.userId = other
      · have hsame := hkept enabled' (by rw [← hother, hkey])
        simp [DirectoryWrite.effect, Directory.userEnabled, huser, hother, hsame]
      · simp [DirectoryWrite.effect, Directory.userEnabled, huser, hother]
  | _ =>
      simp [DirectoryWrite.effect, Directory.userEnabled, huser] <;> split <;> rfl

/-! ## What is there was there before, or is what the statement adds -/

theorem mem_groupMemberships_effect {m : GroupMembership}
    (h : m ∈ (w.effect db).groupMemberships) :
    m ∈ db.groupMemberships ∨ w = .insertGroupMembership m := by
  cases w with
  | insertGroupMembership row =>
      exact (Table.mem_or_eq_of_mem_insert h).imp_right fun heq => by rw [heq]
  | deleteGroupMembership groupId userId => exact Or.inl (Table.mem_erase.mp h).1
  | deleteMembershipsOfGroup groupId => exact Or.inl (Table.mem_erase.mp h).1
  | _ => exact Or.inl h

theorem mem_groupRoles_effect {gr : GroupRole} (h : gr ∈ (w.effect db).groupRoles) :
    gr ∈ db.groupRoles ∨ w = .insertGroupRole gr := by
  cases w with
  | insertGroupRole row =>
      exact (Table.mem_or_eq_of_mem_insert h).imp_right fun heq => by rw [heq]
  | deleteGroupRole groupId roleId => exact Or.inl (Table.mem_erase.mp h).1
  | deleteRolesOfGroup groupId => exact Or.inl (Table.mem_erase.mp h).1
  | deleteGroupsOfRole roleId => exact Or.inl (Table.mem_erase.mp h).1
  | _ => exact Or.inl h

theorem mem_rolePermissions_effect {rp : RolePermission}
    (h : rp ∈ (w.effect db).rolePermissions) :
    rp ∈ db.rolePermissions ∨ w = .insertRolePermission rp := by
  cases w with
  | insertRolePermission row =>
      exact (Table.mem_or_eq_of_mem_insert h).imp_right fun heq => by rw [heq]
  | deletePermissionsOfRole roleId => exact Or.inl (Table.mem_erase.mp h).1
  | _ => exact Or.inl h

/-- A role that is there after a statement has the owners it had before, or the
statement adds it. -/
theorem mem_roles_effect {r : Role} (h : r ∈ (w.effect db).roles) :
    db.roleOwners r.roleId = some (r.tenantId, r.applicationId) ∨ w = .insertRole r := by
  have hkept : ∀ {s : Role}, s ∈ db.roles → s.roleId = r.roleId → s.tenantId = r.tenantId →
      s.applicationId = r.applicationId →
      db.roleOwners r.roleId = some (r.tenantId, r.applicationId) := by
    intro s hs hkey htenant happ
    rw [Directory.roleOwners, ← hkey, Table.get_of_mem hs]
    simp [htenant, happ]
  cases w with
  | insertRole row =>
      rcases Table.mem_or_eq_of_mem_insert h with hold | rfl
      · exact Or.inl (hkept hold rfl rfl rfl)
      · exact Or.inr rfl
  | setRoleName | setRoleDescription =>
      simp only [DirectoryWrite.effect, Directory.updateRole, Table.mem_modify] at h
      obtain ⟨s, hs, rfl⟩ := h
      refine Or.inl (hkept hs ?_ ?_ ?_) <;> split <;> rfl
  | deleteRole roleId => exact Or.inl (hkept (Table.mem_erase.mp h).1 rfl rfl rfl)
  | _ => exact Or.inl (hkept h rfl rfl rfl)

/-- Only two statements give a tenant its anchors. -/
theorem anchors_effect {tenantId : String} {anchors : Option String × Option String}
    (h : (w.effect db).anchors tenantId = some anchors) :
    db.anchors tenantId = some anchors ∨ (∃ row, w = .insertTenant row) ∨
      ∃ other console group, w = .setTenantAnchors other console group := by
  cases w with
  | insertTenant row => exact Or.inr (Or.inl ⟨row, rfl⟩)
  | setTenantAnchors other console group => exact Or.inr (Or.inr ⟨other, console, group, rfl⟩)
  | setTenantName | setTenantBranding | setTenantLogo =>
      refine Or.inl ?_
      rw [← h]
      simp only [Directory.anchors, DirectoryWrite.effect, Directory.updateTenant, Table.get_modify,
        Option.map_map]
      congr 1
      funext t
      simp only [Function.comp_apply]
      split <;> rfl
  | _ => exact Or.inl h

/-- Only the insertion of a platform tenant makes one. -/
theorem isPlatform_of_effect {tenantId : String}
    (h : (w.effect db).isPlatform tenantId = some true) :
    db.isPlatform tenantId = some true ∨ ∃ row, w = .insertTenant row ∧ row.isPlatform = true := by
  obtain ⟨tenant, htenant, hplatform⟩ := Option.map_eq_some_iff.mp h
  cases w with
  | insertTenant row =>
      rcases Table.mem_or_eq_of_mem_insert (Table.mem_of_get htenant) with hold | rfl
      · refine Or.inl ?_
        rw [← Table.key_of_get htenant, Directory.isPlatform, Table.get_of_mem hold]
        simp [hplatform]
      · exact Or.inr ⟨_, rfl, hplatform⟩
  | setTenantName | setTenantBranding | setTenantLogo | setTenantAnchors =>
      refine Or.inl ?_
      simp only [DirectoryWrite.effect, Directory.updateTenant, Table.get_modify,
        Option.map_eq_some_iff] at htenant
      obtain ⟨old, hold, rfl⟩ := htenant
      rw [Directory.isPlatform, hold, Option.map_some, ← hplatform]
      split <;> rfl
  | _ => exact Or.inl h

end RbaIdp
