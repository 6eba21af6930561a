import RbaIdp.Db.Constraints
import RbaIdp.Ownership

/-!
# What belongs to a tenant

`Agree tenantId` relates two databases with the same rows of one tenant, over all
tables: a permission belongs to the tenant of its application, an edge to the
tenant of its group or role, and what sign-in leaves to the tenant of its user.

`Mine tenantId` is the condition under which a statement concerns that tenant
only.  Such a statement is accepted or refused alike in two states that agree,
keeps them in agreement (`twin_effect`), and leaves the rows of every other
tenant as they are (`others_effect`).
-/

namespace RbaIdp

open Relational

/-- No edge crosses a tenant or an application, and the anchors of a tenant name
objects of its own. -/
structure Owned (db : Directory) : Prop where
  memberships : ∀ m ∈ db.groupMemberships, ∃ tenantId,
    db.groupTenant m.groupId = some tenantId ∧ db.userTenant m.userId = some tenantId
  groupRoles : ∀ gr ∈ db.groupRoles, ∃ tenantId applicationId,
    db.groupTenant gr.groupId = some tenantId ∧
      db.roleOwners gr.roleId = some (tenantId, applicationId)
  roles : ∀ r ∈ db.roles, db.applicationTenant r.applicationId = some r.tenantId
  rolePermissions : ∀ rp ∈ db.rolePermissions, ∃ tenantId applicationId,
    db.roleOwners rp.roleId = some (tenantId, applicationId) ∧
      db.permissionApplication rp.permissionId = some applicationId
  adminGroup : ∀ t ∈ db.tenants, ∀ groupId, t.adminGroupId = some groupId →
    db.groupTenant groupId = some t.tenantId
  console : ∀ t ∈ db.tenants, ∀ applicationId, t.consoleApplicationId = some applicationId →
    db.applicationTenant applicationId = some t.tenantId

/-- What is kept along every run is more: every tenant has a console, switched on. -/
theorem WellOwned.owned {db : Directory} (h : WellOwned db) : Owned db := by
  refine ⟨h.memberships, h.groupRoles, h.roles, h.rolePermissions, h.adminGroup,
    fun t ht applicationId happ => ?_⟩
  obtain ⟨console, hconsole, howner, -⟩ := h.console t ht
  rw [Option.some.inj (happ.symm.trans hconsole)]
  exact howner

/-- The tenant of a role. -/
def Directory.roleTenant (db : Directory) (roleId : String) : Option String :=
  (db.roles.get roleId).map Role.tenantId

/-- The same rows of a tenant. -/
structure Agree (tenantId : String) (db db' : Db) : Prop where
  tenants : Table.AgreeOn (fun r => r.tenantId = tenantId) (fun r => r.tenantId = tenantId)
    db.tenants db'.tenants
  tenantDomains : Table.AgreeOn (fun r => r.tenantId = tenantId) (fun r => r.tenantId = tenantId)
    db.tenantDomains db'.tenantDomains
  applications : Table.AgreeOn (fun r => r.tenantId = tenantId) (fun r => r.tenantId = tenantId)
    db.applications db'.applications
  users : Table.AgreeOn (fun r => r.tenantId = tenantId) (fun r => r.tenantId = tenantId)
    db.users db'.users
  groups : Table.AgreeOn (fun r => r.tenantId = tenantId) (fun r => r.tenantId = tenantId)
    db.groups db'.groups
  roles : Table.AgreeOn (fun r => r.tenantId = tenantId) (fun r => r.tenantId = tenantId)
    db.roles db'.roles
  permissions : Table.AgreeOn (fun p => db.applicationTenant p.applicationId = some tenantId)
    (fun p => db'.applicationTenant p.applicationId = some tenantId) db.permissions db'.permissions
  groupMemberships : Table.AgreeOn (fun m => db.groupTenant m.groupId = some tenantId)
    (fun m => db'.groupTenant m.groupId = some tenantId) db.groupMemberships db'.groupMemberships
  groupRoles : Table.AgreeOn (fun gr => db.groupTenant gr.groupId = some tenantId)
    (fun gr => db'.groupTenant gr.groupId = some tenantId) db.groupRoles db'.groupRoles
  rolePermissions : Table.AgreeOn (fun rp => db.roleTenant rp.roleId = some tenantId)
    (fun rp => db'.roleTenant rp.roleId = some tenantId) db.rolePermissions db'.rolePermissions
  sessions : Table.AgreeOn (fun r => db.userTenant r.userId = some tenantId)
    (fun r => db'.userTenant r.userId = some tenantId) db.sessions db'.sessions
  activationCodes : Table.AgreeOn (fun r => db.userTenant r.userId = some tenantId)
    (fun r => db'.userTenant r.userId = some tenantId) db.activationCodes db'.activationCodes
  mfaChallenges : Table.AgreeOn (fun r => db.userTenant r.userId = some tenantId)
    (fun r => db'.userTenant r.userId = some tenantId) db.mfaChallenges db'.mfaChallenges
  webauthnCredentials : Table.AgreeOn (fun r => db.userTenant r.userId = some tenantId)
    (fun r => db'.userTenant r.userId = some tenantId) db.webauthnCredentials
    db'.webauthnCredentials
  authCodes : Table.AgreeOn (fun r => db.userTenant r.userId = some tenantId)
    (fun r => db'.userTenant r.userId = some tenantId) db.authCodes db'.authCodes

/-- The statement concerns rows of the tenant only. -/
def Mine (tenantId : String) (db : Directory) : DirectoryWrite → Prop
  | .setUserEnabled userId _ | .setUserIsAdmin userId _ | .setUserPasswordHash userId _
  | .setUserAlwaysPasskey userId _ => db.userTenant userId = some tenantId
  | .setApplicationName applicationId _ | .setApplicationEnabled applicationId _
  | .setApplicationRedirectUri applicationId _ | .setApplicationAlwaysPasskey applicationId _ =>
      db.applicationTenant applicationId = some tenantId
  | .setGroupName groupId _ | .setGroupDescription groupId _ | .deleteMembershipsOfGroup groupId
  | .deleteRolesOfGroup groupId | .deleteGroupMembership groupId _ | .deleteGroupRole groupId _ =>
      db.groupTenant groupId = some tenantId
  | .deleteGroup groupId => db.groupTenant groupId = some tenantId ∧
      ∀ anchors, db.anchors tenantId = some anchors → anchors.2 ≠ some groupId
  | .insertGroupMembership m => db.groupTenant m.groupId = some tenantId ∧
      db.userTenant m.userId = some tenantId
  | .insertGroupRole gr => db.groupTenant gr.groupId = some tenantId ∧
      db.roleTenant gr.roleId = some tenantId
  | .setRoleName roleId _ | .setRoleDescription roleId _ | .deleteRole roleId
  | .deletePermissionsOfRole roleId | .deleteGroupsOfRole roleId =>
      db.roleTenant roleId = some tenantId
  | .insertRolePermission rp => ∃ applicationId,
      db.roleOwners rp.roleId = some (tenantId, applicationId) ∧
        db.permissionApplication rp.permissionId = some applicationId
  | _ => False

variable {db db' : Db} {dir : Directory} {w : DirectoryWrite} {tenantId other : String}

theorem roleTenant_of_owners {roleId applicationId : String}
    (h : dir.roleOwners roleId = some (tenantId, applicationId)) :
    dir.roleTenant roleId = some tenantId := by
  obtain ⟨role, hrole, howners⟩ := Option.map_eq_some_iff.mp h
  rw [Directory.roleTenant, hrole, Option.map_some, (Prod.mk.inj howners).1]

theorem roleOwners_of_tenant {roleId : String} (h : dir.roleTenant roleId = some tenantId) :
    ∃ applicationId, dir.roleOwners roleId = some (tenantId, applicationId) := by
  obtain ⟨role, hrole, htenant⟩ := Option.map_eq_some_iff.mp h
  exact ⟨role.applicationId, by rw [Directory.roleOwners, hrole, Option.map_some, htenant]⟩

theorem Agree.refl (tenantId : String) (db : Db) : Agree tenantId db db := by
  constructor <;> exact Table.AgreeOn.refl _ _

theorem Agree.trans {db'' : Db} (h : Agree tenantId db db') (h' : Agree tenantId db' db'') :
    Agree tenantId db db'' where
  tenants := h.tenants.trans h'.tenants
  tenantDomains := h.tenantDomains.trans h'.tenantDomains
  applications := h.applications.trans h'.applications
  users := h.users.trans h'.users
  groups := h.groups.trans h'.groups
  roles := h.roles.trans h'.roles
  permissions := h.permissions.trans h'.permissions
  groupMemberships := h.groupMemberships.trans h'.groupMemberships
  groupRoles := h.groupRoles.trans h'.groupRoles
  rolePermissions := h.rolePermissions.trans h'.rolePermissions
  sessions := h.sessions.trans h'.sessions
  activationCodes := h.activationCodes.trans h'.activationCodes
  mfaChallenges := h.mfaChallenges.trans h'.mfaChallenges
  webauthnCredentials := h.webauthnCredentials.trans h'.webauthnCredentials
  authCodes := h.authCodes.trans h'.authCodes

/-! ## Owners -/

/-- Statements of this kind add no owner and remove none but what they delete. -/
theorem userTenant_mine (hw : Mine tenantId dir w) (userId : String) :
    (w.effect dir).userTenant userId = dir.userTenant userId := by
  cases w with
  | setUserEnabled | setUserIsAdmin | setUserPasswordHash | setUserAlwaysPasskey =>
      simp only [Directory.userTenant, DirectoryWrite.effect, Directory.updateUser,
        Table.get_modify, Option.map_map]
      congr 1
      funext r
      simp only [Function.comp_apply]
      split <;> rfl
  | insertUser | setUserLastLogin => exact hw.elim
  | _ => rfl

theorem applicationTenant_mine (hw : Mine tenantId dir w) (applicationId : String) :
    (w.effect dir).applicationTenant applicationId = dir.applicationTenant applicationId := by
  cases w with
  | setApplicationName | setApplicationEnabled | setApplicationRedirectUri
  | setApplicationAlwaysPasskey =>
      simp only [Directory.applicationTenant, DirectoryWrite.effect, Directory.updateApplication,
        Table.get_modify, Option.map_map]
      congr 1
      funext r
      simp only [Function.comp_apply]
      split <;> rfl
  | insertApplication | setApplicationClientId => exact hw.elim
  | _ => rfl

theorem groupTenant_mine (hw : Mine tenantId dir w) {groupId : String}
    (hkept : w ≠ .deleteGroup groupId) :
    (w.effect dir).groupTenant groupId = dir.groupTenant groupId := by
  cases hbefore : dir.groupTenant groupId with
  | some owner => exact groupTenant_effect hkept hbefore
  | none =>
      have hnone : dir.groups.get groupId = none := by
        simpa [Directory.groupTenant] using hbefore
      cases w with
      | insertGroup => exact hw.elim
      | _ => simp [Directory.groupTenant, DirectoryWrite.effect, hnone]

theorem roleTenant_mine (hw : Mine tenantId dir w) {roleId : String}
    (hkept : w ≠ .deleteRole roleId) :
    (w.effect dir).roleTenant roleId = dir.roleTenant roleId := by
  cases hbefore : dir.roleTenant roleId with
  | some owner =>
      obtain ⟨applicationId, howners⟩ := roleOwners_of_tenant hbefore
      exact roleTenant_of_owners (roleOwners_effect hkept howners)
  | none =>
      have hnone : dir.roles.get roleId = none := by
        simpa [Directory.roleTenant] using hbefore
      cases w with
      | insertRole => exact hw.elim
      | _ => simp [Directory.roleTenant, DirectoryWrite.effect, hnone]

/-- A group that an edge names is not deleted. -/
theorem ne_deleteGroup_of_membership (haccepted : w.violates dir = false) {m : GroupMembership}
    (hm : m ∈ dir.groupMemberships) : w ≠ .deleteGroup m.groupId := by
  rintro rfl
  exact (accepted_deleteGroup haccepted).1 m hm rfl

theorem ne_deleteGroup_of_groupRole (haccepted : w.violates dir = false) {gr : GroupRole}
    (hgr : gr ∈ dir.groupRoles) : w ≠ .deleteGroup gr.groupId := by
  rintro rfl
  exact (accepted_deleteGroup haccepted).2 gr hgr rfl

theorem ne_deleteRole_of_rolePermission (haccepted : w.violates dir = false) {rp : RolePermission}
    (hrp : rp ∈ dir.rolePermissions) : w ≠ .deleteRole rp.roleId := by
  rintro rfl
  exact (accepted_deleteRole haccepted).1 rp hrp rfl

/-! ## One statement, in two states that agree -/

section Both

variable (h : Agree tenantId db db') (hw : Mine tenantId db.toDirectory w)
  (hw' : Mine tenantId db'.toDirectory w) (haccepted : w.violates db.toDirectory = false)
  (haccepted' : w.violates db'.toDirectory = false)

include h hw

theorem agree_applications :
    Table.AgreeOn (fun r => r.tenantId = tenantId) (fun r => r.tenantId = tenantId)
      (w.effect db.toDirectory).applications (w.effect db'.toDirectory).applications := by
  cases w with
  | setApplicationName | setApplicationEnabled | setApplicationRedirectUri
  | setApplicationAlwaysPasskey =>
      refine h.applications.modify ?_ ?_ ?_
      · exact fun _ => rfl
      · exact fun _ => Iff.rfl
      · exact fun _ => Iff.rfl
  | insertApplication | setApplicationClientId => exact hw.elim
  | _ => exact h.applications

theorem agree_users :
    Table.AgreeOn (fun r => r.tenantId = tenantId) (fun r => r.tenantId = tenantId)
      (w.effect db.toDirectory).users (w.effect db'.toDirectory).users := by
  cases w with
  | setUserEnabled | setUserIsAdmin | setUserPasswordHash | setUserAlwaysPasskey =>
      refine h.users.modify ?_ ?_ ?_
      · exact fun _ => rfl
      · exact fun _ => Iff.rfl
      · exact fun _ => Iff.rfl
  | insertUser | setUserLastLogin => exact hw.elim
  | _ => exact h.users

theorem agree_groups :
    Table.AgreeOn (fun r => r.tenantId = tenantId) (fun r => r.tenantId = tenantId)
      (w.effect db.toDirectory).groups (w.effect db'.toDirectory).groups := by
  cases w with
  | setGroupName | setGroupDescription =>
      refine h.groups.modify ?_ ?_ ?_
      · exact fun _ => rfl
      · exact fun _ => Iff.rfl
      · exact fun _ => Iff.rfl
  | deleteGroup => exact h.groups.erase
  | insertGroup => exact hw.elim
  | _ => exact h.groups

theorem agree_roles :
    Table.AgreeOn (fun r => r.tenantId = tenantId) (fun r => r.tenantId = tenantId)
      (w.effect db.toDirectory).roles (w.effect db'.toDirectory).roles := by
  cases w with
  | setRoleName | setRoleDescription =>
      refine h.roles.modify ?_ ?_ ?_
      · exact fun _ => rfl
      · exact fun _ => Iff.rfl
      · exact fun _ => Iff.rfl
  | deleteRole => exact h.roles.erase
  | insertRole => exact hw.elim
  | _ => exact h.roles

include hw'

theorem agree_permissions :
    Table.AgreeOn (fun p => (w.effect db.toDirectory).applicationTenant p.applicationId =
        some tenantId)
      (fun p => (w.effect db'.toDirectory).applicationTenant p.applicationId = some tenantId)
      (w.effect db.toDirectory).permissions (w.effect db'.toDirectory).permissions := by
  have hsame : Table.AgreeOn (fun p => db.applicationTenant p.applicationId = some tenantId)
      (fun p => db'.applicationTenant p.applicationId = some tenantId)
      (w.effect db.toDirectory).permissions (w.effect db'.toDirectory).permissions := by
    cases w with
    | insertPermission => exact hw.elim
    | _ => exact h.permissions
  refine hsame.congr (fun p _ => ?_) fun p _ => ?_
  · rw [applicationTenant_mine hw]
  · rw [applicationTenant_mine hw']

include haccepted haccepted'

theorem agree_groupMemberships :
    Table.AgreeOn (fun m => (w.effect db.toDirectory).groupTenant m.groupId = some tenantId)
      (fun m => (w.effect db'.toDirectory).groupTenant m.groupId = some tenantId)
      (w.effect db.toDirectory).groupMemberships (w.effect db'.toDirectory).groupMemberships := by
  have hsame : Table.AgreeOn (fun m => db.groupTenant m.groupId = some tenantId)
      (fun m => db'.groupTenant m.groupId = some tenantId)
      (w.effect db.toDirectory).groupMemberships (w.effect db'.toDirectory).groupMemberships := by
    cases w with
    | insertGroupMembership row =>
        simp only [DirectoryWrite.violates, Bool.or_eq_false_iff,
          Option.isSome_eq_false_iff, Option.isNone_iff_eq_none] at haccepted haccepted'
        exact h.groupMemberships.insert haccepted.1.1 haccepted'.1.1 (iff_of_true hw.1 hw'.1)
    | deleteGroupMembership | deleteMembershipsOfGroup => exact h.groupMemberships.erase
    | _ => exact h.groupMemberships
  have howner : ∀ {dir : Directory}, Mine tenantId dir w → w.violates dir = false →
      ∀ m ∈ (w.effect dir).groupMemberships,
        dir.groupTenant m.groupId = some tenantId ↔
          (w.effect dir).groupTenant m.groupId = some tenantId := by
    intro dir hmine haccepted m hm
    rw [groupTenant_mine hmine]
    rcases mem_groupMemberships_effect hm with hold | rfl
    · exact ne_deleteGroup_of_membership haccepted hold
    · exact fun heq => by cases heq
  exact hsame.congr (howner hw haccepted) (howner hw' haccepted')

theorem agree_groupRoles :
    Table.AgreeOn (fun gr => (w.effect db.toDirectory).groupTenant gr.groupId = some tenantId)
      (fun gr => (w.effect db'.toDirectory).groupTenant gr.groupId = some tenantId)
      (w.effect db.toDirectory).groupRoles (w.effect db'.toDirectory).groupRoles := by
  have hsame : Table.AgreeOn (fun gr => db.groupTenant gr.groupId = some tenantId)
      (fun gr => db'.groupTenant gr.groupId = some tenantId)
      (w.effect db.toDirectory).groupRoles (w.effect db'.toDirectory).groupRoles := by
    cases w with
    | insertGroupRole row =>
        simp only [DirectoryWrite.violates, Bool.or_eq_false_iff,
          Option.isSome_eq_false_iff, Option.isNone_iff_eq_none] at haccepted haccepted'
        exact h.groupRoles.insert haccepted.1.1 haccepted'.1.1 (iff_of_true hw.1 hw'.1)
    | deleteGroupRole | deleteRolesOfGroup | deleteGroupsOfRole => exact h.groupRoles.erase
    | _ => exact h.groupRoles
  have howner : ∀ {dir : Directory}, Mine tenantId dir w → w.violates dir = false →
      ∀ gr ∈ (w.effect dir).groupRoles, dir.groupTenant gr.groupId = some tenantId ↔
        (w.effect dir).groupTenant gr.groupId = some tenantId := by
    intro dir hmine haccepted gr hgr
    rw [groupTenant_mine hmine]
    rcases mem_groupRoles_effect hgr with hold | rfl
    · exact ne_deleteGroup_of_groupRole haccepted hold
    · exact fun heq => by cases heq
  exact hsame.congr (howner hw haccepted) (howner hw' haccepted')

theorem agree_rolePermissions :
    Table.AgreeOn (fun rp => (w.effect db.toDirectory).roleTenant rp.roleId = some tenantId)
      (fun rp => (w.effect db'.toDirectory).roleTenant rp.roleId = some tenantId)
      (w.effect db.toDirectory).rolePermissions (w.effect db'.toDirectory).rolePermissions := by
  have hsame : Table.AgreeOn (fun rp => db.roleTenant rp.roleId = some tenantId)
      (fun rp => db'.roleTenant rp.roleId = some tenantId)
      (w.effect db.toDirectory).rolePermissions (w.effect db'.toDirectory).rolePermissions := by
    cases w with
    | insertRolePermission row =>
        simp only [DirectoryWrite.violates, Bool.or_eq_false_iff,
          Option.isSome_eq_false_iff, Option.isNone_iff_eq_none] at haccepted haccepted'
        obtain ⟨_, hrole, -⟩ := hw
        obtain ⟨_, hrole', -⟩ := hw'
        exact h.rolePermissions.insert haccepted.1.1 haccepted'.1.1
          (iff_of_true (roleTenant_of_owners hrole) (roleTenant_of_owners hrole'))
    | deletePermissionsOfRole => exact h.rolePermissions.erase
    | _ => exact h.rolePermissions
  have howner : ∀ {dir : Directory}, Mine tenantId dir w → w.violates dir = false →
      ∀ rp ∈ (w.effect dir).rolePermissions, dir.roleTenant rp.roleId = some tenantId ↔
        (w.effect dir).roleTenant rp.roleId = some tenantId := by
    intro dir hmine haccepted rp hrp
    rw [roleTenant_mine hmine]
    rcases mem_rolePermissions_effect hrp with hold | rfl
    · exact ne_deleteRole_of_rolePermission haccepted hold
    · exact fun heq => by cases heq
  exact hsame.congr (howner hw haccepted) (howner hw' haccepted')

theorem agree_effect :
    Agree tenantId (Statement.effect (Write.directory w) db)
      (Statement.effect (Write.directory w) db') := by
  -- what sign-in leaves is not written, and its owners are the users they were
  have hsignIn : ∀ {ρ κ : Type} {key : ρ → κ} {user : ρ → String} {t t' : Table ρ key},
      Table.AgreeOn (fun r => db.userTenant (user r) = some tenantId)
        (fun r => db'.userTenant (user r) = some tenantId) t t' →
      Table.AgreeOn (fun r => (w.effect db.toDirectory).userTenant (user r) = some tenantId)
        (fun r => (w.effect db'.toDirectory).userTenant (user r) = some tenantId) t t' := by
    intro ρ κ key user t t' hagree
    refine hagree.congr (fun r _ => ?_) fun r _ => ?_
    · rw [userTenant_mine hw]
    · rw [userTenant_mine hw']
  exact {
    tenants := by cases w <;> first | exact h.tenants | exact hw.elim
    tenantDomains := by cases w <;> first | exact h.tenantDomains | exact hw.elim
    applications := agree_applications h hw
    users := agree_users h hw
    groups := agree_groups h hw
    roles := agree_roles h hw
    permissions := agree_permissions h hw hw'
    groupMemberships := agree_groupMemberships h hw hw' haccepted haccepted'
    groupRoles := agree_groupRoles h hw hw' haccepted haccepted'
    rolePermissions := agree_rolePermissions h hw hw' haccepted haccepted'
    sessions := hsignIn h.sessions
    activationCodes := hsignIn h.activationCodes
    mfaChallenges := hsignIn h.mfaChallenges
    webauthnCredentials := hsignIn h.webauthnCredentials
    authCodes := hsignIn h.authCodes }

end Both

/-! ## One statement, seen by another tenant -/

section Others

variable (hw : Mine tenantId db.toDirectory w) (haccepted : w.violates db.toDirectory = false)
  (hother : other ≠ tenantId)

include hw hother

theorem others_applications :
    Table.AgreeOn (fun r => r.tenantId = other) (fun r => r.tenantId = other)
      db.applications (w.effect db.toDirectory).applications := by
  have hforeign : ∀ {applicationId : String}, db.applicationTenant applicationId = some tenantId →
      ∀ r ∈ db.applications, (r.applicationId == applicationId) = true → ¬ r.tenantId = other := by
    intro applicationId howner r hr hid hr'
    rw [← beq_iff_eq.mp hid, Directory.applicationTenant, Table.get_of_mem hr] at howner
    exact hother (hr'.symm.trans (Option.some.inj howner))
  cases w with
  | setApplicationName | setApplicationEnabled | setApplicationRedirectUri
  | setApplicationAlwaysPasskey =>
      refine Table.agreeOn_modify ?_ (hforeign hw) ?_
      · exact fun _ => rfl
      · exact fun _ => Iff.rfl
  | insertApplication | setApplicationClientId => exact hw.elim
  | _ => exact Table.AgreeOn.refl _ _

theorem others_users :
    Table.AgreeOn (fun r => r.tenantId = other) (fun r => r.tenantId = other)
      db.users (w.effect db.toDirectory).users := by
  have hforeign : ∀ {userId : String}, db.userTenant userId = some tenantId →
      ∀ r ∈ db.users, (r.userId == userId) = true → ¬ r.tenantId = other := by
    intro userId howner r hr hid hr'
    rw [← beq_iff_eq.mp hid, Directory.userTenant, Table.get_of_mem hr] at howner
    exact hother (hr'.symm.trans (Option.some.inj howner))
  cases w with
  | setUserEnabled | setUserIsAdmin | setUserPasswordHash | setUserAlwaysPasskey =>
      refine Table.agreeOn_modify ?_ (hforeign hw) ?_
      · exact fun _ => rfl
      · exact fun _ => Iff.rfl
  | insertUser | setUserLastLogin => exact hw.elim
  | _ => exact Table.AgreeOn.refl _ _

theorem others_groups :
    Table.AgreeOn (fun r => r.tenantId = other) (fun r => r.tenantId = other)
      db.groups (w.effect db.toDirectory).groups := by
  have hforeign : ∀ {groupId : String}, db.groupTenant groupId = some tenantId →
      ∀ r ∈ db.groups, (r.groupId == groupId) = true → ¬ r.tenantId = other := by
    intro groupId howner r hr hid hr'
    rw [← beq_iff_eq.mp hid, Directory.groupTenant, Table.get_of_mem hr] at howner
    exact hother (hr'.symm.trans (Option.some.inj howner))
  cases w with
  | setGroupName | setGroupDescription =>
      refine Table.agreeOn_modify ?_ (hforeign hw) ?_
      · exact fun _ => rfl
      · exact fun _ => Iff.rfl
  | deleteGroup => exact Table.agreeOn_erase (hforeign hw.1)
  | insertGroup => exact hw.elim
  | _ => exact Table.AgreeOn.refl _ _

theorem others_roles :
    Table.AgreeOn (fun r => r.tenantId = other) (fun r => r.tenantId = other)
      db.roles (w.effect db.toDirectory).roles := by
  have hforeign : ∀ {roleId : String}, db.roleTenant roleId = some tenantId →
      ∀ r ∈ db.roles, (r.roleId == roleId) = true → ¬ r.tenantId = other := by
    intro roleId howner r hr hid hr'
    rw [← beq_iff_eq.mp hid, Directory.roleTenant, Table.get_of_mem hr] at howner
    exact hother (hr'.symm.trans (Option.some.inj howner))
  cases w with
  | setRoleName | setRoleDescription =>
      refine Table.agreeOn_modify ?_ (hforeign hw) ?_
      · exact fun _ => rfl
      · exact fun _ => Iff.rfl
  | deleteRole => exact Table.agreeOn_erase (hforeign hw)
  | insertRole => exact hw.elim
  | _ => exact Table.AgreeOn.refl _ _

include haccepted

theorem others_groupMemberships :
    Table.AgreeOn (fun m => db.groupTenant m.groupId = some other)
      (fun m => (w.effect db.toDirectory).groupTenant m.groupId = some other)
      db.groupMemberships (w.effect db.toDirectory).groupMemberships := by
  have hforeign : ∀ {groupId : String}, db.groupTenant groupId = some tenantId →
      ¬ db.groupTenant groupId = some other :=
    fun howner hother' => hother (Option.some.inj (hother'.symm.trans howner))
  have hsame : Table.AgreeOn (fun m => db.groupTenant m.groupId = some other)
      (fun m => db.groupTenant m.groupId = some other)
      db.groupMemberships (w.effect db.toDirectory).groupMemberships := by
    cases w with
    | insertGroupMembership row => exact Table.agreeOn_insert (hforeign hw.1)
    | deleteGroupMembership groupId userId =>
        refine Table.agreeOn_erase fun m _ hid => ?_
        rw [beq_iff_eq.mp (Bool.and_eq_true_iff.mp hid).1]
        exact hforeign hw
    | deleteMembershipsOfGroup groupId =>
        refine Table.agreeOn_erase fun m _ hid => ?_
        rw [beq_iff_eq.mp hid]
        exact hforeign hw
    | _ => exact Table.AgreeOn.refl _ _
  refine hsame.congr (fun _ _ => Iff.rfl) fun m hm => ?_
  rw [groupTenant_mine hw]
  rcases mem_groupMemberships_effect hm with hold | rfl
  · exact ne_deleteGroup_of_membership haccepted hold
  · exact fun heq => by cases heq

theorem others_groupRoles (howned : Owned db.toDirectory) :
    Table.AgreeOn (fun gr => db.groupTenant gr.groupId = some other)
      (fun gr => (w.effect db.toDirectory).groupTenant gr.groupId = some other)
      db.groupRoles (w.effect db.toDirectory).groupRoles := by
  have hforeign : ∀ {groupId : String}, db.groupTenant groupId = some tenantId →
      ¬ db.groupTenant groupId = some other :=
    fun howner hother' => hother (Option.some.inj (hother'.symm.trans howner))
  have hsame : Table.AgreeOn (fun gr => db.groupTenant gr.groupId = some other)
      (fun gr => db.groupTenant gr.groupId = some other)
      db.groupRoles (w.effect db.toDirectory).groupRoles := by
    cases w with
    | insertGroupRole row => exact Table.agreeOn_insert (hforeign hw.1)
    | deleteGroupRole groupId roleId =>
        refine Table.agreeOn_erase fun gr _ hid => ?_
        rw [beq_iff_eq.mp (Bool.and_eq_true_iff.mp hid).1]
        exact hforeign hw
    | deleteRolesOfGroup groupId =>
        refine Table.agreeOn_erase fun gr _ hid => ?_
        rw [beq_iff_eq.mp hid]
        exact hforeign hw
    | deleteGroupsOfRole roleId =>
        -- the groups a role is assigned to are of its tenant
        refine Table.agreeOn_erase fun gr hgr hid => ?_
        obtain ⟨owner, applicationId, hgroup, hrole⟩ := howned.groupRoles gr hgr
        have howner := roleTenant_of_owners hrole
        rw [beq_iff_eq.mp hid] at howner
        rw [Option.some.inj (howner.symm.trans hw)] at hgroup
        exact hforeign hgroup
    | _ => exact Table.AgreeOn.refl _ _
  refine hsame.congr (fun _ _ => Iff.rfl) fun gr hgr => ?_
  rw [groupTenant_mine hw]
  rcases mem_groupRoles_effect hgr with hold | rfl
  · exact ne_deleteGroup_of_groupRole haccepted hold
  · exact fun heq => by cases heq

theorem others_rolePermissions :
    Table.AgreeOn (fun rp => db.roleTenant rp.roleId = some other)
      (fun rp => (w.effect db.toDirectory).roleTenant rp.roleId = some other)
      db.rolePermissions (w.effect db.toDirectory).rolePermissions := by
  have hforeign : ∀ {roleId : String}, db.roleTenant roleId = some tenantId →
      ¬ db.roleTenant roleId = some other :=
    fun howner hother' => hother (Option.some.inj (hother'.symm.trans howner))
  have hsame : Table.AgreeOn (fun rp => db.roleTenant rp.roleId = some other)
      (fun rp => db.roleTenant rp.roleId = some other)
      db.rolePermissions (w.effect db.toDirectory).rolePermissions := by
    cases w with
    | insertRolePermission row =>
        obtain ⟨applicationId, hrole, -⟩ := hw
        exact Table.agreeOn_insert (hforeign (roleTenant_of_owners hrole))
    | deletePermissionsOfRole roleId =>
        refine Table.agreeOn_erase fun rp _ hid => ?_
        rw [beq_iff_eq.mp hid]
        exact hforeign hw
    | _ => exact Table.AgreeOn.refl _ _
  refine hsame.congr (fun _ _ => Iff.rfl) fun rp hrp => ?_
  rw [roleTenant_mine hw]
  rcases mem_rolePermissions_effect hrp with hold | rfl
  · exact ne_deleteRole_of_rolePermission haccepted hold
  · exact fun heq => by cases heq

/-- The rows of another tenant stay as they are. -/
theorem others_effect (howned : Owned db.toDirectory) :
    Agree other db (Statement.effect (Write.directory w) db) := by
  have hsignIn : ∀ {ρ κ : Type} {key : ρ → κ} {user : ρ → String} (t : Table ρ key),
      Table.AgreeOn (fun r => db.userTenant (user r) = some other)
        (fun r => (w.effect db.toDirectory).userTenant (user r) = some other) t t := by
    intro ρ κ key user t
    refine (Table.AgreeOn.refl _ t).congr (fun _ _ => Iff.rfl) fun r _ => ?_
    rw [userTenant_mine hw]
  have hpermissions : Table.AgreeOn (fun p => db.applicationTenant p.applicationId = some other)
      (fun p => (w.effect db.toDirectory).applicationTenant p.applicationId = some other)
      db.permissions (w.effect db.toDirectory).permissions := by
    have hsame : (w.effect db.toDirectory).permissions = db.permissions := by
      cases w <;> first | rfl | exact hw.elim
    rw [hsame]
    refine (Table.AgreeOn.refl _ _).congr (fun _ _ => Iff.rfl) fun p _ => ?_
    rw [applicationTenant_mine hw]
  exact {
    tenants := by cases w <;> first | exact Table.AgreeOn.refl _ _ | exact hw.elim
    tenantDomains := by cases w <;> first | exact Table.AgreeOn.refl _ _ | exact hw.elim
    applications := others_applications hw hother
    users := others_users hw hother
    groups := others_groups hw hother
    roles := others_roles hw hother
    permissions := hpermissions
    groupMemberships := others_groupMemberships hw haccepted hother
    groupRoles := others_groupRoles hw haccepted hother howned
    rolePermissions := others_rolePermissions hw haccepted hother
    sessions := hsignIn _
    activationCodes := hsignIn _
    mfaChallenges := hsignIn _
    webauthnCredentials := hsignIn _
    authCodes := hsignIn _ }

end Others

/-! ## Twins -/

/-- Two states of the service with the same rows of a tenant. -/
structure Twin (tenantId : String) (db db' : Db) : Prop where
  agree : Agree tenantId db db'
  owned : Owned db.toDirectory
  owned' : Owned db'.toDirectory
  constraints : Constraints db.toDirectory
  constraints' : Constraints db'.toDirectory

theorem Agree.symm (h : Agree tenantId db db') : Agree tenantId db' db where
  tenants := h.tenants.symm
  tenantDomains := h.tenantDomains.symm
  applications := h.applications.symm
  users := h.users.symm
  groups := h.groups.symm
  roles := h.roles.symm
  permissions := h.permissions.symm
  groupMemberships := h.groupMemberships.symm
  groupRoles := h.groupRoles.symm
  rolePermissions := h.rolePermissions.symm
  sessions := h.sessions.symm
  activationCodes := h.activationCodes.symm
  mfaChallenges := h.mfaChallenges.symm
  webauthnCredentials := h.webauthnCredentials.symm
  authCodes := h.authCodes.symm

theorem Twin.symm (h : Twin tenantId db db') : Twin tenantId db' db :=
  ⟨h.agree.symm, h.owned', h.owned, h.constraints', h.constraints⟩

/-- A role on an application of the tenant is the tenant's. -/
theorem role_of_application (howned : Owned dir) {r s : Role} (hr : r ∈ dir.roles)
    (hs : s ∈ dir.roles) (happ : r.applicationId = s.applicationId) : r.tenantId = s.tenantId := by
  have howner := howned.roles r hr
  rw [happ, howned.roles s hs] at howner
  exact (Option.some.inj howner).symm

/-- The groups of a role are of its tenant. -/
theorem group_of_role (howned : Owned dir) {gr : GroupRole} (hgr : gr ∈ dir.groupRoles)
    (hrole : dir.roleTenant gr.roleId = some tenantId) :
    dir.groupTenant gr.groupId = some tenantId := by
  obtain ⟨owner, applicationId, hgroup, howners⟩ := howned.groupRoles gr hgr
  rw [hgroup, ← hrole, roleTenant_of_owners howners]

/-- A statement on a tenant's rows is accepted in both twins or in neither. -/
theorem violates_twin (h : Twin tenantId db db') (hw : Mine tenantId db.toDirectory w)
    (hw' : Mine tenantId db'.toDirectory w) :
    w.violates db.toDirectory = w.violates db'.toDirectory := by
  cases w with
  | setUserEnabled userId | setUserIsAdmin userId | setUserPasswordHash userId
  | setUserAlwaysPasskey userId =>
      obtain ⟨user, huser, -⟩ := Option.map_eq_some_iff.mp hw
      obtain ⟨user', huser', -⟩ := Option.map_eq_some_iff.mp hw'
      simp [DirectoryWrite.violates, huser, huser']
  | setApplicationName applicationId | setApplicationEnabled applicationId
  | setApplicationRedirectUri applicationId | setApplicationAlwaysPasskey applicationId =>
      obtain ⟨app, happ, -⟩ := Option.map_eq_some_iff.mp hw
      obtain ⟨app', happ', -⟩ := Option.map_eq_some_iff.mp hw'
      simp [DirectoryWrite.violates, happ, happ']
  | setGroupName groupId name =>
      obtain ⟨group, hgroup, htenant⟩ := Option.map_eq_some_iff.mp hw
      simp only [DirectoryWrite.violates, hgroup, h.agree.groups.get_some hgroup htenant]
      refine h.agree.groups.exists?_eq (fun r _ hp => ?_) fun r _ hp => ?_ <;>
        simp only [Bool.and_eq_true, beq_iff_eq] at hp <;> exact hp.1.2.trans htenant
  | setGroupDescription groupId =>
      obtain ⟨group, hgroup, -⟩ := Option.map_eq_some_iff.mp hw
      obtain ⟨group', hgroup', -⟩ := Option.map_eq_some_iff.mp hw'
      simp [DirectoryWrite.violates, hgroup, hgroup']
  | deleteGroup groupId =>
      have hmemberships := h.agree.groupMemberships.exists?_eq (p := fun r => r.groupId == groupId)
        (fun m _ hid => by rw [beq_iff_eq.mp hid]; exact hw.1)
        fun m _ hid => by rw [beq_iff_eq.mp hid]; exact hw'.1
      have hroles := h.agree.groupRoles.exists?_eq (p := fun r => r.groupId == groupId)
        (fun m _ hid => by rw [beq_iff_eq.mp hid]; exact hw.1)
        fun m _ hid => by rw [beq_iff_eq.mp hid]; exact hw'.1
      simp only [DirectoryWrite.violates, hmemberships, hroles]
  | insertGroupMembership row =>
      obtain ⟨group, hgroup, -⟩ := Option.map_eq_some_iff.mp hw.1
      obtain ⟨group', hgroup', -⟩ := Option.map_eq_some_iff.mp hw'.1
      obtain ⟨user, huser, -⟩ := Option.map_eq_some_iff.mp hw.2
      obtain ⟨user', huser', -⟩ := Option.map_eq_some_iff.mp hw'.2
      have hkey : ∀ {t : Table GroupMembership GroupMembership.key} {m : GroupMembership},
          t.get row.key = some m → m.groupId = row.groupId :=
        fun hget => congrArg Prod.fst (Table.key_of_get hget)
      have hget := h.agree.groupMemberships.get_eq (i := row.key)
        (fun m hm => by rw [hkey hm]; exact hw.1) fun m hm => by rw [hkey hm]; exact hw'.1
      simp [DirectoryWrite.violates, hgroup, hgroup', huser, huser', hget]
  | insertGroupRole row =>
      obtain ⟨group, hgroup, -⟩ := Option.map_eq_some_iff.mp hw.1
      obtain ⟨group', hgroup', -⟩ := Option.map_eq_some_iff.mp hw'.1
      obtain ⟨role, hrole, -⟩ := Option.map_eq_some_iff.mp hw.2
      obtain ⟨role', hrole', -⟩ := Option.map_eq_some_iff.mp hw'.2
      have hkey : ∀ {t : Table GroupRole GroupRole.key} {gr : GroupRole},
          t.get row.key = some gr → gr.groupId = row.groupId :=
        fun hget => congrArg Prod.fst (Table.key_of_get hget)
      have hget := h.agree.groupRoles.get_eq (i := row.key)
        (fun gr hgr => by rw [hkey hgr]; exact hw.1) fun gr hgr => by rw [hkey hgr]; exact hw'.1
      simp [DirectoryWrite.violates, hgroup, hgroup', hrole, hrole', hget]
  | setRoleName roleId name =>
      obtain ⟨role, hrole, htenant⟩ := Option.map_eq_some_iff.mp hw
      have hrole' := h.agree.roles.get_some hrole htenant
      simp only [DirectoryWrite.violates, hrole, hrole']
      refine h.agree.roles.exists?_eq (fun r hr hp => ?_) fun r hr hp => ?_ <;>
        simp only [Bool.and_eq_true, beq_iff_eq] at hp
      · exact (role_of_application h.owned hr (Table.mem_of_get hrole) hp.1.2).trans htenant
      · exact (role_of_application h.owned' hr (Table.mem_of_get hrole') hp.1.2).trans htenant
  | setRoleDescription roleId =>
      obtain ⟨role, hrole, -⟩ := Option.map_eq_some_iff.mp hw
      obtain ⟨role', hrole', -⟩ := Option.map_eq_some_iff.mp hw'
      simp [DirectoryWrite.violates, hrole, hrole']
  | deleteRole roleId =>
      have hpermissions := h.agree.rolePermissions.exists?_eq (p := fun r => r.roleId == roleId)
        (fun rp _ hid => by rw [beq_iff_eq.mp hid]; exact hw)
        fun rp _ hid => by rw [beq_iff_eq.mp hid]; exact hw'
      have hgroups := h.agree.groupRoles.exists?_eq (p := fun r => r.roleId == roleId)
        (fun gr hgr hid => group_of_role h.owned hgr (by rw [beq_iff_eq.mp hid]; exact hw))
        fun gr hgr hid => group_of_role h.owned' hgr (by rw [beq_iff_eq.mp hid]; exact hw')
      simp only [DirectoryWrite.violates, hpermissions, hgroups]
  | insertRolePermission row =>
      obtain ⟨applicationId, hrole, hpermission⟩ := hw
      obtain ⟨applicationId', hrole', hpermission'⟩ := hw'
      have hown := roleTenant_of_owners hrole
      have hown' := roleTenant_of_owners hrole'
      have hkey : ∀ {t : Table RolePermission RolePermission.key} {rp : RolePermission},
          t.get row.key = some rp → rp.roleId = row.roleId :=
        fun hget => congrArg Prod.fst (Table.key_of_get hget)
      have hget := h.agree.rolePermissions.get_eq (i := row.key)
        (fun rp hrp => by rw [hkey hrp]; exact hown) fun rp hrp => by rw [hkey hrp]; exact hown'
      obtain ⟨role, hrole, -⟩ := Option.map_eq_some_iff.mp hrole
      obtain ⟨role', hrole', -⟩ := Option.map_eq_some_iff.mp hrole'
      obtain ⟨permission, hpermission, -⟩ := Option.map_eq_some_iff.mp hpermission
      obtain ⟨permission', hpermission', -⟩ := Option.map_eq_some_iff.mp hpermission'
      simp [DirectoryWrite.violates, hrole, hrole', hpermission, hpermission', hget]
  | deleteGroupMembership | deleteMembershipsOfGroup | deletePermissionsOfRole | deleteGroupRole
  | deleteRolesOfGroup | deleteGroupsOfRole => rfl
  | _ => exact hw.elim

/-- A statement on a tenant's rows keeps every edge within its tenant. -/
theorem owned_mine (howned : Owned dir) (hw : Mine tenantId dir w)
    (haccepted : w.violates dir = false) : Owned (w.effect dir) := by
  have htenants : (w.effect dir).tenants = dir.tenants := by
    cases w <;> first | rfl | exact hw.elim
  constructor
  case memberships =>
    intro m hm
    rcases mem_groupMemberships_effect hm with hold | rfl
    · rw [groupTenant_mine hw (ne_deleteGroup_of_membership haccepted hold), userTenant_mine hw]
      exact howned.memberships m hold
    · exact ⟨tenantId, hw⟩
  case groupRoles =>
    intro gr hgr
    rcases mem_groupRoles_effect hgr with hold | rfl
    · obtain ⟨owner, applicationId, hgroup, hrole⟩ := howned.groupRoles gr hold
      refine ⟨owner, applicationId, groupTenant_effect ?_ hgroup, roleOwners_effect ?_ hrole⟩
      · exact ne_deleteGroup_of_groupRole haccepted hold
      · rintro rfl
        exact (accepted_deleteRole haccepted).2 gr hold rfl
    · obtain ⟨applicationId, hrole⟩ := roleOwners_of_tenant hw.2
      exact ⟨tenantId, applicationId, hw.1, hrole⟩
  case roles =>
    intro r hr
    rcases mem_roles_effect hr with hold | rfl
    · obtain ⟨old, hget, howners⟩ := Option.map_eq_some_iff.mp hold
      obtain ⟨htenant, happ⟩ := Prod.mk.inj howners
      rw [applicationTenant_mine hw, ← htenant, ← happ]
      exact howned.roles old (Table.mem_of_get hget)
    · exact hw.elim
  case rolePermissions =>
    intro rp hrp
    rcases mem_rolePermissions_effect hrp with hold | rfl
    · obtain ⟨owner, applicationId, hrole, hpermission⟩ := howned.rolePermissions rp hold
      exact ⟨owner, applicationId,
        roleOwners_effect (ne_deleteRole_of_rolePermission haccepted hold) hrole,
        permissionApplication_effect hpermission⟩
    · exact ⟨tenantId, hw⟩
  case adminGroup =>
    intro t ht groupId hgroup
    rw [htenants] at ht
    have howner := howned.adminGroup t ht groupId hgroup
    refine groupTenant_effect ?_ howner
    -- the group deleted is not the one that its tenant's anchor names
    rintro rfl
    obtain ⟨hown, hanchor⟩ := hw
    rw [howner, Option.some.injEq] at hown
    refine hanchor (t.consoleApplicationId, t.adminGroupId) ?_ hgroup
    rw [← hown, Directory.anchors, Table.get_of_mem ht, Option.map_some]
  case console =>
    intro t ht applicationId happ
    rw [htenants] at ht
    rw [applicationTenant_mine hw]
    exact howned.console t ht applicationId happ

/-- **One statement.**  Twins stay twins. -/
theorem twin_effect (h : Twin tenantId db db') (hw : Mine tenantId db.toDirectory w)
    (hw' : Mine tenantId db'.toDirectory w) (haccepted : w.violates db.toDirectory = false) :
    Twin tenantId (Statement.effect (Write.directory w) db)
      (Statement.effect (Write.directory w) db') := by
  have haccepted' := (violates_twin h hw hw').symm.trans haccepted
  exact ⟨agree_effect h.agree hw hw' haccepted haccepted', owned_mine h.owned hw haccepted,
    owned_mine h.owned' hw' haccepted', constraints_effect haccepted h.constraints,
    constraints_effect haccepted' h.constraints'⟩

end RbaIdp
