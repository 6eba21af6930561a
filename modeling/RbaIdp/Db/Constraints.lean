import RbaIdp.Db.Statements
import RbaIdp.Relational.Agreement

/-!
# Unique constraints

The unique constraints of `db/models.py` next to the primary keys:
`uq_users_tenant_email`, `uq_groups_tenant_name`, `uq_permissions_scope` and
`uq_roles_app_name`.  The database checks them at every statement, so every
accepted statement keeps them.
-/

namespace RbaIdp

open Relational

structure Constraints (db : Directory) : Prop where
  /-- `uq_users_tenant_email` -/
  users : db.users.UniqueBy fun u => (u.tenantId, u.email)
  /-- `uq_groups_tenant_name` -/
  groups : db.groups.UniqueBy fun g => (g.tenantId, g.name)
  /-- `uq_permissions_scope` -/
  permissions : db.permissions.UniqueBy fun p => (p.applicationId, p.resource, p.operation)
  /-- `uq_roles_app_name` -/
  roles : db.roles.UniqueBy fun r => (r.applicationId, r.name)

theorem constraints_empty : Constraints Directory.empty :=
  ⟨Table.uniqueBy_empty, Table.uniqueBy_empty, Table.uniqueBy_empty, Table.uniqueBy_empty⟩

variable {db : Directory} {w : DirectoryWrite}

theorem uniqueUsers_effect (haccepted : w.violates db = false)
    (h : db.users.UniqueBy fun u => (u.tenantId, u.email)) :
    (w.effect db).users.UniqueBy fun u => (u.tenantId, u.email) := by
  cases w with
  | insertUser row =>
      refine h.insert fun s hs heq => ?_
      simp only [DirectoryWrite.violates, Bool.or_eq_false_iff, Table.exists?_eq_false,
        Bool.and_eq_false_iff, beq_eq_false_iff_ne] at haccepted
      obtain ⟨htenant, hemail⟩ := Prod.mk.inj heq
      exact (haccepted.2 s hs).elim (· htenant) (· hemail)
  | setUserEnabled | setUserIsAdmin | setUserPasswordHash | setUserAlwaysPasskey
  | setUserLastLogin => refine h.modify ?_ ?_ <;> exact fun _ => rfl
  | _ => exact h

theorem uniqueGroups_effect (haccepted : w.violates db = false)
    (h : db.groups.UniqueBy fun g => (g.tenantId, g.name)) :
    (w.effect db).groups.UniqueBy fun g => (g.tenantId, g.name) := by
  cases w with
  | insertGroup row =>
      refine h.insert fun s hs heq => ?_
      simp only [DirectoryWrite.violates, Bool.or_eq_false_iff, Table.exists?_eq_false,
        Bool.and_eq_false_iff, beq_eq_false_iff_ne] at haccepted
      obtain ⟨htenant, hname⟩ := Prod.mk.inj heq
      exact (haccepted.2 s hs).elim (· htenant) (· hname)
  | setGroupName groupId name =>
      refine h.modify_one ?_ (fun r hr s hs hpr hps => Table.eq_of_key_eq hr hs ?_)
        fun r hr s hs hpr hps heq => ?_
      · exact fun _ => rfl
      · exact (beq_iff_eq.mp hpr).trans (beq_iff_eq.mp hps).symm
      · -- the name is free among the tenant's other groups
        have hget : db.groups.get groupId = some r := by
          rw [← beq_iff_eq.mp hpr]
          exact Table.get_of_mem hr
        simp only [DirectoryWrite.violates, hget, Table.exists?_eq_false] at haccepted
        obtain ⟨htenant, hname⟩ := Prod.mk.inj heq
        have hother : s.groupId ≠ groupId := by simpa using hps
        simpa [hother, htenant, hname] using haccepted s hs
  | setGroupDescription => refine h.modify ?_ ?_ <;> exact fun _ => rfl
  | deleteGroup => exact h.erase
  | _ => exact h

theorem uniquePermissions_effect (haccepted : w.violates db = false)
    (h : db.permissions.UniqueBy fun p => (p.applicationId, p.resource, p.operation)) :
    (w.effect db).permissions.UniqueBy fun p => (p.applicationId, p.resource, p.operation) := by
  cases w with
  | insertPermission row =>
      refine h.insert fun s hs heq => ?_
      simp only [DirectoryWrite.violates, Bool.or_eq_false_iff, Table.exists?_eq_false] at haccepted
      obtain ⟨happ, hscope⟩ := Prod.mk.inj heq
      obtain ⟨hresource, hoperation⟩ := Prod.mk.inj hscope
      simpa [happ, hresource, hoperation] using haccepted.2 s hs
  | _ => exact h

theorem uniqueRoles_effect (haccepted : w.violates db = false)
    (h : db.roles.UniqueBy fun r => (r.applicationId, r.name)) :
    (w.effect db).roles.UniqueBy fun r => (r.applicationId, r.name) := by
  cases w with
  | insertRole row =>
      refine h.insert fun s hs heq => ?_
      simp only [DirectoryWrite.violates, Bool.or_eq_false_iff, Table.exists?_eq_false] at haccepted
      obtain ⟨happ, hname⟩ := Prod.mk.inj heq
      simpa [happ, hname] using haccepted.2 s hs
  | setRoleName roleId name =>
      refine h.modify_one ?_ (fun r hr s hs hpr hps => Table.eq_of_key_eq hr hs ?_)
        fun r hr s hs hpr hps heq => ?_
      · exact fun _ => rfl
      · exact (beq_iff_eq.mp hpr).trans (beq_iff_eq.mp hps).symm
      · have hget : db.roles.get roleId = some r := by
          rw [← beq_iff_eq.mp hpr]
          exact Table.get_of_mem hr
        simp only [DirectoryWrite.violates, hget, Table.exists?_eq_false] at haccepted
        obtain ⟨happ, hname⟩ := Prod.mk.inj heq
        have hother : s.roleId ≠ roleId := by simpa using hps
        simpa [hother, happ, hname] using haccepted s hs
  | setRoleDescription => refine h.modify ?_ ?_ <;> exact fun _ => rfl
  | deleteRole => exact h.erase
  | _ => exact h

theorem constraints_effect (haccepted : w.violates db = false) (h : Constraints db) :
    Constraints (w.effect db) :=
  ⟨uniqueUsers_effect haccepted h.users, uniqueGroups_effect haccepted h.groups,
    uniquePermissions_effect haccepted h.permissions, uniqueRoles_effect haccepted h.roles⟩

/-- The unique constraints are kept by every accepted statement. -/
theorem constraints_invariant : Invariant Write fun db : Db => Constraints db.toDirectory := by
  intro w db haccepted h
  cases w with
  | directory w => exact constraints_effect haccepted h
  | artefact w => exact h

end RbaIdp
