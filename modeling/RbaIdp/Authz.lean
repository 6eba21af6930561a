import Mathlib.Data.Finset.Image
import RbaIdp.Db.Models

/-!
# Who may do what

`user → group → role → permission`, resolved by joins.  Every role is on one
application and every question names one, so a permission on one application
says nothing about another.

The joins are written as the nested conditions they are; each function has one
lemma that reads it as a path through the tables.
-/

namespace RbaIdp

open Relational

/-- One operation on one resource. -/
abbrev Scope := String × String

def ADMIN_READ : Scope := ("admin", "read")
def ADMIN_WRITE : Scope := ("admin", "write")
def TENANTS_READ : Scope := ("tenants", "read")
def TENANTS_WRITE : Scope := ("tenants", "write")

/-- Wire form of a permission: `("transfer", "create")` is `"transfer:create"`. -/
def scope (s : Scope) : String := s.1 ++ ":" ++ s.2

variable (db : Directory) (userId applicationId roleId : String)

/-- Is the role assigned to one of the user's groups? -/
def holdsRole : Bool :=
  db.groupRoles.exists? fun gr => gr.roleId == roleId &&
    db.groupMemberships.exists? fun m => m.groupId == gr.groupId && m.userId == userId

/-- `effective_permissions`: every permission the user holds on the
application, as scope strings. -/
def effectivePermissions : Finset String :=
  ((db.permissions.select fun p => p.applicationId == applicationId &&
      db.rolePermissions.exists? fun rp => rp.permissionId == p.permissionId &&
        db.roles.exists? fun r => r.roleId == rp.roleId && r.applicationId == applicationId &&
          holdsRole db userId r.roleId).map fun p => scope (p.resource, p.operation)).toFinset

/-- `has_application_access`: holding any role on the application grants sign-in. -/
def hasApplicationAccess : Bool :=
  db.roles.exists? fun r => r.applicationId == applicationId && holdsRole db userId r.roleId

variable {db userId applicationId roleId}

theorem holdsRole_iff :
    holdsRole db userId roleId = true ↔
      ∃ gr ∈ db.groupRoles, gr.roleId = roleId ∧
        ∃ m ∈ db.groupMemberships, m.groupId = gr.groupId ∧ m.userId = userId := by
  simp [holdsRole]

theorem hasApplicationAccess_iff :
    hasApplicationAccess db userId applicationId = true ↔
      ∃ r ∈ db.roles, r.applicationId = applicationId ∧ holdsRole db userId r.roleId = true := by
  simp [hasApplicationAccess]

theorem mem_effectivePermissions {s : String} :
    s ∈ effectivePermissions db userId applicationId ↔
      ∃ p ∈ db.permissions, p.applicationId = applicationId ∧
        scope (p.resource, p.operation) = s ∧
        ∃ rp ∈ db.rolePermissions, rp.permissionId = p.permissionId ∧
          ∃ r ∈ db.roles, r.roleId = rp.roleId ∧ r.applicationId = applicationId ∧
            holdsRole db userId r.roleId = true := by
  simp only [effectivePermissions, List.mem_toFinset, List.mem_map, Table.mem_select,
    Bool.and_eq_true, Table.exists?_eq_true, beq_iff_eq]
  constructor
  · rintro ⟨p, ⟨hp, happ, rp, hrp, hperm, r, hr, ⟨hrole, hrapp⟩, hholds⟩, rfl⟩
    exact ⟨p, hp, happ, rfl, rp, hrp, hperm, r, hr, hrole, hrapp, hholds⟩
  · rintro ⟨p, hp, happ, rfl, rp, hrp, hperm, r, hr, hrole, hrapp, hholds⟩
    exact ⟨p, ⟨hp, happ, rp, hrp, hperm, r, hr, ⟨hrole, hrapp⟩, hholds⟩, rfl⟩

end RbaIdp
