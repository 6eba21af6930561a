import RbaIdp.Db.Integrity
import RbaIdp.Effects.Serve

/-!
# Ownership of the RBAC graph

A directory is well owned when no edge of the RBAC graph crosses a tenant or an
application and every tenant's anchors are its own.  The invariant is kept by
every run of requests other than the creation of a tenant.

The argument is local to one statement.  `Db/Owners.lean` says that owners never
change and that an edge is old or is the one the statement adds; `Scoped` says
what was checked before it was added.  What remains is deletion: a group or a
role is deleted only when no edge names it, which is the database's own
referential integrity, and never when it anchors its tenant.
-/

namespace RbaIdp

open Relational

structure WellOwned (db : Directory) : Prop where
  /-- a membership joins a group and a user of one tenant -/
  memberships : ∀ m ∈ db.groupMemberships, ∃ tenantId,
    db.groupTenant m.groupId = some tenantId ∧ db.userTenant m.userId = some tenantId
  /-- an assignment joins a group and a role of one tenant -/
  groupRoles : ∀ gr ∈ db.groupRoles, ∃ tenantId applicationId,
    db.groupTenant gr.groupId = some tenantId ∧
      db.roleOwners gr.roleId = some (tenantId, applicationId)
  /-- a role is of the tenant of its application -/
  roles : ∀ r ∈ db.roles, db.applicationTenant r.applicationId = some r.tenantId
  /-- a role carries permissions of its own application only -/
  rolePermissions : ∀ rp ∈ db.rolePermissions, ∃ tenantId applicationId,
    db.roleOwners rp.roleId = some (tenantId, applicationId) ∧
      db.permissionApplication rp.permissionId = some applicationId
  /-- an admin group is a group of its tenant -/
  adminGroup : ∀ t ∈ db.tenants, ∀ groupId, t.adminGroupId = some groupId →
    db.groupTenant groupId = some t.tenantId
  /-- a console is an enabled application of its tenant -/
  console : ∀ t ∈ db.tenants, ∃ applicationId, t.consoleApplicationId = some applicationId ∧
    db.applicationTenant applicationId = some t.tenantId ∧
      db.applicationEnabled applicationId = some true

variable {env : Env} {db : Directory} {w : DirectoryWrite} {op : Operator} {call : AdminCall}

/-! ## One statement -/

/-- The anchors of a tenant that is there after a statement are the ones it had. -/
theorem anchors_of_scoped {t : Tenant} (ht : t ∈ (w.effect db).tenants)
    (hscoped : Scoped op call db w) :
    ∃ old ∈ db.tenants, old.tenantId = t.tenantId ∧ old.adminGroupId = t.adminGroupId ∧
      old.consoleApplicationId = t.consoleApplicationId := by
  have hafter : (w.effect db).anchors t.tenantId =
      some (t.consoleApplicationId, t.adminGroupId) := by
    simp [Directory.anchors, Table.get_of_mem ht]
  rcases anchors_effect hafter with hbefore | ⟨row, rfl⟩ | ⟨other, console, group, rfl⟩
  · obtain ⟨old, hold, hanchors⟩ := Option.map_eq_some_iff.mp hbefore
    rw [Prod.mk.injEq] at hanchors
    exact ⟨old, Table.mem_of_get hold, Table.key_of_get hold, hanchors.2, hanchors.1⟩
  · exact hscoped.elim
  · exact hscoped.elim

/-- **One statement.**  An accepted statement keeps the ownership of the graph
when what was checked before it holds. -/
theorem wellOwned_effect (h : WellOwned db) (hscoped : Scoped op call db w)
    (haccepted : w.violates db = false) : WellOwned (w.effect db) := by
  -- an admin group of a well-owned directory is never the group deleted
  have hadmin : ∀ t ∈ db.tenants, ∀ groupId, t.adminGroupId = some groupId →
      w ≠ .deleteGroup groupId := by
    rintro t ht groupId hgroup rfl
    obtain ⟨hown, hnot⟩ := hscoped
    have htenant : t.tenantId = op.tenantId :=
      Option.some.inj ((h.adminGroup t ht groupId hgroup).symm.trans hown)
    refine hnot (t.consoleApplicationId, t.adminGroupId) ?_ hgroup
    rw [← htenant, Directory.anchors, Table.get_of_mem ht, Option.map_some]
  -- nor is a console the application disabled
  have hconsole : ∀ t ∈ db.tenants, ∀ applicationId, t.consoleApplicationId = some applicationId →
      db.applicationTenant applicationId = some t.tenantId →
      w ≠ .setApplicationEnabled applicationId false := by
    rintro t ht applicationId happ howner rfl
    obtain ⟨hown, hnot⟩ := hscoped rfl
    have htenant : t.tenantId = op.tenantId := Option.some.inj (howner.symm.trans hown)
    refine hnot (t.consoleApplicationId, t.adminGroupId) ?_ happ
    rw [← htenant, Directory.anchors, Table.get_of_mem ht, Option.map_some]
  constructor
  case memberships =>
    intro m hm
    rcases mem_groupMemberships_effect hm with hold | rfl
    · obtain ⟨tenantId, hgroup, huser⟩ := h.memberships m hold
      refine ⟨tenantId, groupTenant_effect ?_ hgroup, userTenant_effect huser⟩
      rintro rfl
      exact (accepted_deleteGroup haccepted).1 m hold rfl
    · obtain ⟨huser, hown | ⟨anchors, hanchors, hgroup⟩⟩ := hscoped
      · exact ⟨op.tenantId, hown, huser⟩
      · -- the flag's group: the admin group of the operator's tenant
        obtain ⟨t, ht, rfl⟩ := Option.map_eq_some_iff.mp hanchors
        have howner := h.adminGroup t (Table.mem_of_get ht) m.groupId hgroup
        rw [Table.key_of_get ht] at howner
        exact ⟨op.tenantId, howner, huser⟩
  case groupRoles =>
    intro gr hgr
    rcases mem_groupRoles_effect hgr with hold | rfl
    · obtain ⟨tenantId, applicationId, hgroup, hrole⟩ := h.groupRoles gr hold
      refine ⟨tenantId, applicationId, groupTenant_effect ?_ hgroup, roleOwners_effect ?_ hrole⟩
      · rintro rfl
        exact (accepted_deleteGroup haccepted).2 gr hold rfl
      · rintro rfl
        exact (accepted_deleteRole haccepted).2 gr hold rfl
    · obtain ⟨hgroup, applicationId, hrole⟩ := hscoped
      exact ⟨op.tenantId, applicationId, hgroup, hrole⟩
  case roles =>
    intro r hr
    rcases mem_roles_effect hr with hold | rfl
    · obtain ⟨old, hget, howners⟩ := Option.map_eq_some_iff.mp hold
      have happ := h.roles old (Table.mem_of_get hget)
      rw [Prod.mk.injEq] at howners
      rw [howners.1, howners.2] at happ
      exact applicationTenant_effect happ
    · obtain ⟨htenant, happ⟩ := hscoped
      rw [htenant]
      exact happ
  case rolePermissions =>
    intro rp hrp
    rcases mem_rolePermissions_effect hrp with hold | rfl
    · obtain ⟨tenantId, applicationId, hrole, hpermission⟩ := h.rolePermissions rp hold
      refine ⟨tenantId, applicationId, roleOwners_effect ?_ hrole,
        permissionApplication_effect hpermission⟩
      rintro rfl
      exact (accepted_deleteRole haccepted).1 rp hold rfl
    · exact hscoped
  case adminGroup =>
    intro t ht groupId hgroup
    obtain ⟨old, hold, hid, hadminGroup, -⟩ := anchors_of_scoped ht hscoped
    rw [← hadminGroup] at hgroup
    rw [← hid]
    exact groupTenant_effect (hadmin old hold groupId hgroup) (h.adminGroup old hold groupId hgroup)
  case console =>
    intro t ht
    obtain ⟨old, hold, hid, -, hconsoleId⟩ := anchors_of_scoped ht hscoped
    obtain ⟨applicationId, happ, howner, henabled⟩ := h.console old hold
    rw [← hid, ← hconsoleId]
    exact ⟨applicationId, happ, applicationTenant_effect howner,
      applicationEnabled_effect (hconsole old hold applicationId happ howner) henabled⟩

/-- The time of a user's last login is nobody's business here. -/
theorem wellOwned_lastLogin {userId : String} {now : Time} (h : WellOwned db) :
    WellOwned ((DirectoryWrite.setUserLastLogin userId now).effect db) where
  memberships m hm := by
    obtain ⟨tenantId, hgroup, huser⟩ := h.memberships m hm
    exact ⟨tenantId, hgroup, userTenant_effect huser⟩
  groupRoles := h.groupRoles
  roles := h.roles
  rolePermissions := h.rolePermissions
  adminGroup := h.adminGroup
  console := h.console

/-! ## Any number of requests -/

theorem wellOwned_after {s : Served} (hcall : ∀ op body, s.request ≠ .admin op (.createTenant body))
    (h : WellOwned s.before.toDirectory) : WellOwned (s.after env).toDirectory := by
  refine (Served.path env s).invariant (I := fun db => WellOwned db.toDirectory)
    (fun db w hdb hallows haccepted => ?_) h
  cases hallows with
  | artefact w => exact hdb
  | lastLogin userId now => exact wellOwned_lastLogin hdb
  | edit _ _ hscoped => exact wellOwned_effect hdb hscoped haccepted
  | found hrequest _ => exact absurd hrequest (hcall _ _)

/-- **Ownership is an invariant.**  From a well-owned directory, any requests
other than the creation of a tenant, made by operators of any tenants with any
ids, in any order, succeeding or failing, lead to well-owned directories only. -/
theorem wellOwned_run {start db : Db} {hist : List Served} (hstart : WellOwned start.toDirectory)
    (run : Run env start hist db)
    (hcalls : ∀ s ∈ hist, ∀ op body, s.request ≠ .admin op (.createTenant body)) :
    WellOwned db.toDirectory := by
  induction run with
  | nil => exact hstart
  | cons init request draws ih =>
      have hearlier := ih fun s hs => hcalls s (List.mem_cons_of_mem _ hs)
      exact wellOwned_after (hcalls _ (List.mem_cons_self ..)) hearlier

theorem wellOwned_standInConsole : WellOwned Db.standInConsole.toDirectory := by
  have hevaluated :
      (∀ m ∈ Db.standInConsole.groupMemberships.rows,
        Db.standInConsole.groupTenant m.groupId = some "acme" ∧
          Db.standInConsole.userTenant m.userId = some "acme") ∧
      (∀ gr ∈ Db.standInConsole.groupRoles.rows,
        Db.standInConsole.groupTenant gr.groupId = some "acme" ∧
          Db.standInConsole.roleOwners gr.roleId = some ("acme", "portal")) ∧
      (∀ r ∈ Db.standInConsole.roles.rows,
        Db.standInConsole.applicationTenant r.applicationId = some r.tenantId) ∧
      (∀ rp ∈ Db.standInConsole.rolePermissions.rows,
        Db.standInConsole.roleOwners rp.roleId = some ("acme", "portal") ∧
          Db.standInConsole.permissionApplication rp.permissionId = some "portal") ∧
      ∀ t ∈ Db.standInConsole.tenants.rows,
        t.adminGroupId = some "staff" ∧ Db.standInConsole.groupTenant "staff" = some t.tenantId ∧
          t.consoleApplicationId = some "portal" ∧
            Db.standInConsole.applicationTenant "portal" = some t.tenantId ∧
              Db.standInConsole.applicationEnabled "portal" = some true := by
    decide +kernel
  obtain ⟨hmemberships, hgroupRoles, hroles, hrolePermissions, htenants⟩ := hevaluated
  refine ⟨fun m hm => ⟨_, hmemberships m hm⟩, fun gr hgr => ⟨_, _, hgroupRoles gr hgr⟩, hroles,
    fun rp hrp => ⟨_, _, hrolePermissions rp hrp⟩, fun t ht groupId hgroup => ?_,
    fun t ht => ⟨_, (htenants t ht).2.2⟩⟩
  obtain ⟨hstaff, htenant, -⟩ := htenants t ht
  rw [hstaff, Option.some.injEq] at hgroup
  rw [← hgroup]
  exact htenant

/-- An operator of the tenant adds a group and puts Ana into it. -/
def anaJoinsAudit : List Served × Db :=
  play .standIn .standInConsole
    [(.admin ⟨"usr_op", "acme", "acme", ∅, false⟩ (.addMember "audit" ⟨"usr_ana"⟩), .numbered 2),
      (.admin ⟨"usr_op", "acme", "acme", ∅, false⟩
        (.createGroup ⟨some "audit", "Audit", ""⟩), .numbered 1)]

theorem wellOwned_run_audit : WellOwned anaJoinsAudit.2.toDirectory ∧
    anaJoinsAudit.2.groupMemberships.get ("audit", "usr_ana") = some ⟨"audit", "usr_ana"⟩ := by
  refine ⟨wellOwned_run wellOwned_standInConsole (run_play _) fun s hs op body hrequest => ?_, ?_⟩
  · simp only [play, List.mem_cons, List.not_mem_nil, or_false] at hs
    rcases hs with rfl | rfl <;> cases hrequest
  · decide +kernel

end RbaIdp
