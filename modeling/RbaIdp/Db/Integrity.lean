import RbaIdp.Db.Owners

/-!
# Referential integrity

The foreign keys of the directory name rows that are there.  Every accepted
statement keeps this: an inserted row is checked against the rows it names, and
a row that others name cannot be deleted.
-/

namespace RbaIdp

open Relational

structure Integrity (db : Directory) : Prop where
  applications : ∀ a ∈ db.applications, (db.tenants.get a.tenantId).isSome
  groups : ∀ g ∈ db.groups, (db.tenants.get g.tenantId).isSome
  roles : ∀ r ∈ db.roles, (db.tenants.get r.tenantId).isSome
  permissions : ∀ p ∈ db.permissions, (db.applications.get p.applicationId).isSome
  memberships : ∀ m ∈ db.groupMemberships, (db.groups.get m.groupId).isSome
  groupRoles : ∀ gr ∈ db.groupRoles,
    (db.groups.get gr.groupId).isSome ∧ (db.roles.get gr.roleId).isSome
  rolePermissions : ∀ rp ∈ db.rolePermissions, (db.roles.get rp.roleId).isSome

theorem integrity_empty : Integrity Directory.empty := by
  constructor <;> intro _ h <;> exact absurd h (Table.not_mem_empty _)

variable {db : Directory} {w : DirectoryWrite}

/-! ## Rows stay -/

theorem tenants_effect {tenantId : String} (h : (db.tenants.get tenantId).isSome) :
    ((w.effect db).tenants.get tenantId).isSome := by
  cases w <;> simp [DirectoryWrite.effect, h]

theorem applications_effect {applicationId : String}
    (h : (db.applications.get applicationId).isSome) :
    ((w.effect db).applications.get applicationId).isSome := by
  cases w <;> simp [DirectoryWrite.effect, h]

theorem permissions_effect {permissionId : String}
    (h : (db.permissions.get permissionId).isSome) :
    ((w.effect db).permissions.get permissionId).isSome := by
  cases w <;> simp [DirectoryWrite.effect, h]

theorem groups_effect {groupId : String} (hkept : w ≠ .deleteGroup groupId)
    (h : (db.groups.get groupId).isSome) : ((w.effect db).groups.get groupId).isSome := by
  have howner : db.groupTenant groupId ≠ none := by
    simpa [Directory.groupTenant, Option.isSome_iff_ne_none] using h
  obtain ⟨tenantId, htenant⟩ := Option.ne_none_iff_exists'.mp howner
  have hafter := groupTenant_effect hkept htenant
  obtain ⟨group, hgroup, -⟩ := Option.map_eq_some_iff.mp hafter
  simp [hgroup]

theorem roles_effect {roleId : String} (hkept : w ≠ .deleteRole roleId)
    (h : (db.roles.get roleId).isSome) : ((w.effect db).roles.get roleId).isSome := by
  have howner : db.roleOwners roleId ≠ none := by
    simpa [Directory.roleOwners, Option.isSome_iff_ne_none] using h
  obtain ⟨owners, howners⟩ := Option.ne_none_iff_exists'.mp howner
  have hafter := roleOwners_effect hkept howners
  obtain ⟨role, hrole, -⟩ := Option.map_eq_some_iff.mp hafter
  simp [hrole]

/-! ## A row was there before, or is the one the statement adds -/

theorem mem_applications_effect {a : Application} (h : a ∈ (w.effect db).applications) :
    (∃ old ∈ db.applications, old.applicationId = a.applicationId ∧ old.tenantId = a.tenantId) ∨
      w = .insertApplication a := by
  cases w with
  | insertApplication row =>
      exact (Table.mem_or_eq_of_mem_insert h).imp (fun hold => ⟨a, hold, rfl, rfl⟩)
        fun heq => by rw [heq]
  | setApplicationClientId | setApplicationName | setApplicationEnabled
  | setApplicationRedirectUri | setApplicationAlwaysPasskey =>
      simp only [DirectoryWrite.effect, Directory.updateApplication, Table.mem_modify] at h
      obtain ⟨old, hold, rfl⟩ := h
      exact Or.inl ⟨old, hold, by split <;> rfl, by split <;> rfl⟩
  | _ => exact Or.inl ⟨a, h, rfl, rfl⟩

theorem mem_groups_effect {g : Group} (h : g ∈ (w.effect db).groups) :
    (∃ old ∈ db.groups, old.groupId = g.groupId ∧ old.tenantId = g.tenantId) ∨
      w = .insertGroup g := by
  cases w with
  | insertGroup row =>
      exact (Table.mem_or_eq_of_mem_insert h).imp (fun hold => ⟨g, hold, rfl, rfl⟩)
        fun heq => by rw [heq]
  | setGroupName | setGroupDescription =>
      simp only [DirectoryWrite.effect, Directory.updateGroup, Table.mem_modify] at h
      obtain ⟨old, hold, rfl⟩ := h
      exact Or.inl ⟨old, hold, by split <;> rfl, by split <;> rfl⟩
  | deleteGroup => exact Or.inl ⟨g, (Table.mem_erase.mp h).1, rfl, rfl⟩
  | _ => exact Or.inl ⟨g, h, rfl, rfl⟩

theorem mem_permissions_effect {p : Permission} (h : p ∈ (w.effect db).permissions) :
    p ∈ db.permissions ∨ w = .insertPermission p := by
  cases w with
  | insertPermission row =>
      exact (Table.mem_or_eq_of_mem_insert h).imp_right fun heq => by rw [heq]
  | _ => exact Or.inl h

/-! ## One statement, any program -/

/-- The rows an insert names are there. -/
def DirectoryWrite.Refers : DirectoryWrite → Directory → Prop
  | insertApplication row, db => (db.tenants.get row.tenantId).isSome
  | insertGroup row, db => (db.tenants.get row.tenantId).isSome
  | insertRole row, db => (db.tenants.get row.tenantId).isSome
  | insertPermission row, db => (db.applications.get row.applicationId).isSome
  | insertGroupMembership row, db => (db.groups.get row.groupId).isSome
  | insertGroupRole row, db => (db.groups.get row.groupId).isSome ∧ (db.roles.get row.roleId).isSome
  | insertRolePermission row, db => (db.roles.get row.roleId).isSome
  | _, _ => True

theorem refers_of_accepted (h : w.violates db = false) : w.Refers db := by
  cases w with
  | insertApplication | insertGroup | insertRole | insertPermission | insertGroupMembership
  | insertGroupRole | insertRolePermission =>
      simp only [DirectoryWrite.violates, Bool.or_eq_false_iff, Option.isNone_eq_false_iff] at h
      simp [DirectoryWrite.Refers, h]
  | _ => trivial

theorem accepted_deleteGroup {groupId : String}
    (h : (DirectoryWrite.deleteGroup groupId).violates db = false) :
    (∀ m ∈ db.groupMemberships, m.groupId ≠ groupId) ∧
      ∀ gr ∈ db.groupRoles, gr.groupId ≠ groupId := by
  simp only [DirectoryWrite.violates, Bool.or_eq_false_iff, Table.exists?_eq_false,
    beq_eq_false_iff_ne] at h
  exact h

theorem accepted_deleteRole {roleId : String}
    (h : (DirectoryWrite.deleteRole roleId).violates db = false) :
    (∀ rp ∈ db.rolePermissions, rp.roleId ≠ roleId) ∧ ∀ gr ∈ db.groupRoles, gr.roleId ≠ roleId := by
  simp only [DirectoryWrite.violates, Bool.or_eq_false_iff, Table.exists?_eq_false,
    beq_eq_false_iff_ne] at h
  exact h

theorem integrity_effect (haccepted : w.violates db = false) (h : Integrity db) :
    Integrity (w.effect db) := by
  constructor
  case applications =>
    intro a ha
    rcases mem_applications_effect ha with ⟨old, hold, -, htenant⟩ | rfl
    · rw [← htenant]
      exact tenants_effect (h.applications old hold)
    · exact tenants_effect (refers_of_accepted haccepted)
  case groups =>
    intro g hg
    rcases mem_groups_effect hg with ⟨old, hold, -, htenant⟩ | rfl
    · rw [← htenant]
      exact tenants_effect (h.groups old hold)
    · exact tenants_effect (refers_of_accepted haccepted)
  case roles =>
    intro r hr
    rcases mem_roles_effect hr with hold | rfl
    · obtain ⟨old, hget, howners⟩ := Option.map_eq_some_iff.mp hold
      have htenant := tenants_effect (w := w) (h.roles old (Table.mem_of_get hget))
      rw [Prod.mk.injEq] at howners
      rwa [howners.1] at htenant
    · exact tenants_effect (refers_of_accepted haccepted)
  case permissions =>
    intro p hp
    rcases mem_permissions_effect hp with hold | rfl
    · exact applications_effect (h.permissions p hold)
    · exact applications_effect (refers_of_accepted haccepted)
  case memberships =>
    intro m hm
    rcases mem_groupMemberships_effect hm with hold | rfl
    · refine groups_effect ?_ (h.memberships m hold)
      rintro rfl
      exact (accepted_deleteGroup haccepted).1 m hold rfl
    · exact refers_of_accepted haccepted
  case groupRoles =>
    intro gr hgr
    rcases mem_groupRoles_effect hgr with hold | rfl
    · obtain ⟨hgroup, hrole⟩ := h.groupRoles gr hold
      refine ⟨groups_effect ?_ hgroup, roles_effect ?_ hrole⟩
      · rintro rfl
        exact (accepted_deleteGroup haccepted).2 gr hold rfl
      · rintro rfl
        exact (accepted_deleteRole haccepted).2 gr hold rfl
    · exact refers_of_accepted haccepted
  case rolePermissions =>
    intro rp hrp
    rcases mem_rolePermissions_effect hrp with hold | rfl
    · refine roles_effect ?_ (h.rolePermissions rp hold)
      rintro rfl
      exact (accepted_deleteRole haccepted).1 rp hold rfl
    · exact refers_of_accepted haccepted

/-- Referential integrity is kept by every accepted statement. -/
theorem integrity_invariant : Invariant Write fun db : Db => Integrity db.toDirectory := by
  intro w db haccepted h
  cases w with
  | directory w => exact integrity_effect haccepted h
  | artefact w => exact h

end RbaIdp
