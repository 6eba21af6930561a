import RbaIdp.Accountability

/-!
# What the console shows

The pages of the console read the users with their groups, a group with its members and
roles, and a role with its permissions.  None of them reads what `effectivePermissions`
joins: a group shows the roles that are there, a role all it carries, on whatever
application, and an object of another tenant is answered like a missing one.

In an orderly directory none of this makes a difference (`console_agrees`): what an
operator finds by following the pages, from a user to a scope, is what the user may do.
Ownership carries both directions.  The roles on the way are of the operator's tenant, so
each page is answered; and what a role carries is on the role's application.
-/

namespace RbaIdp

open Relational Program

variable {env : Env} {d : Draws} {db : Db} {op : Operator}

/-! ## The pages -/

theorem answer_listUsers :
    Served.answer env ⟨db, .admin op .listUsers, d⟩ =
      .ok (.users ((sortOn (fun row : User => [row.email])
        (db.users.select fun row => row.tenantId == op.tenantId)).map (userPublicOf db))) := rfl

theorem answer_listGroups :
    Served.answer env ⟨db, .admin op .listGroups, d⟩ =
      .ok (.groups ((sortOn (fun row : Group => [row.name])
        (db.groups.select fun row => row.tenantId == op.tenantId)).map (groupPublic db))) := rfl

theorem answer_listRoles :
    Served.answer env ⟨db, .admin op (.listRoles none), d⟩ =
      .ok (.roles ((sortOn (fun row : Role => [row.applicationId, row.name])
        (db.roles.select fun row => row.tenantId == op.tenantId && true)).map
          (rolePublic db))) := rfl

/-- A page of one object is answered when the object is the operator's tenant's. -/
theorem answered_iff {α β ε : Type} {o : Option α} {p : α → Bool} {f : α → β} {e : ε} {b : β}
    {answer : Except ε β} (hnone : o.filter p = none → answer = .error e)
    (hsome : ∀ row, o.filter p = some row → answer = .ok (f row)) :
    answer = .ok b ↔ ∃ row, o = some row ∧ p row = true ∧ b = f row := by
  constructor
  · intro h
    cases hrow : o.filter p with
    | none =>
        rw [hnone hrow] at h
        cases h
    | some row =>
        rw [hsome row hrow] at h
        obtain ⟨hget, hp⟩ := Option.filter_eq_some_iff.mp hrow
        exact ⟨row, hget, hp, (Except.ok.inj h).symm⟩
  · rintro ⟨row, hget, hp, rfl⟩
    exact hsome row (Option.filter_eq_some_iff.mpr ⟨hget, hp⟩)

theorem answer_getGroup {groupId : String} {detail : GroupDetail} :
    Served.answer env ⟨db, .admin op (.getGroup groupId), d⟩ = .ok (.group detail) ↔
      ∃ row, db.groups.get groupId = some row ∧ row.tenantId = op.tenantId ∧
        detail = groupDetail db row := by
  have hpage : Served.answer env ⟨db, .admin op (.getGroup groupId), d⟩ = .ok (.group detail) ↔
      ∃ row, db.groups.get groupId = some row ∧ (row.tenantId == op.tenantId) = true ∧
        Answer.group detail = .group (groupDetail db row) := by
    refine answered_iff (e := .raised ⟨404, "unknown group"⟩) (fun hrow => ?_) fun row hrow => ?_
    all_goals simp [Served.answer, Served.outcome, serve, serveAdmin, answer, getGroup,
      refreshGroup, requireGroup, transaction, run_bind, require, hrow]
  simpa only [beq_iff_eq, Answer.group.injEq] using hpage

theorem answer_getRole {roleId : String} {detail : RoleDetail} :
    Served.answer env ⟨db, .admin op (.getRole roleId), d⟩ = .ok (.role detail) ↔
      ∃ row, db.roles.get roleId = some row ∧ row.tenantId = op.tenantId ∧
        detail = roleDetail db row := by
  have hpage : Served.answer env ⟨db, .admin op (.getRole roleId), d⟩ = .ok (.role detail) ↔
      ∃ row, db.roles.get roleId = some row ∧ (row.tenantId == op.tenantId) = true ∧
        Answer.role detail = .role (roleDetail db row) := by
    refine answered_iff (e := .raised ⟨404, "unknown role"⟩) (fun hrow => ?_) fun row hrow => ?_
    all_goals simp [Served.answer, Served.outcome, serve, serveAdmin, answer, getRole,
      refreshRole, requireRole, transaction, run_bind, require, hrow]
  simpa only [beq_iff_eq, Answer.role.injEq] using hpage

theorem mem_sortOn {α : Type} {key : α → List String} {xs : List α} {x : α} :
    x ∈ sortOn key xs ↔ x ∈ xs := (perm_sortOn key xs).mem_iff

/-- The users listed are the tenant's. -/
theorem mem_listed_users {user : AdminUserPublic} :
    user ∈ (sortOn (fun row : User => [row.email])
        (db.users.select fun row => row.tenantId == op.tenantId)).map (userPublicOf db) ↔
      ∃ row ∈ db.users, row.tenantId = op.tenantId ∧ user = userPublicOf db row := by
  simp only [List.mem_map, mem_sortOn, Table.mem_select, beq_iff_eq]
  constructor
  · rintro ⟨row, ⟨hrow, htenant⟩, rfl⟩
    exact ⟨row, hrow, htenant, rfl⟩
  · rintro ⟨row, hrow, htenant, rfl⟩
    exact ⟨row, ⟨hrow, htenant⟩, rfl⟩

/-- A user shows the groups it is in that are there. -/
theorem shows_group {row : User} {groupId : String} :
    (∃ g ∈ (userPublicOf db row).groups, g.groupId = groupId) ↔
      (⟨groupId, row.userId⟩ : GroupMembership) ∈ db.groupMemberships ∧
        (db.groups.get groupId).isSome := by
  simp only [userPublicOf, List.mem_map, mem_sortOn, List.mem_filterMap, Table.mem_select,
    beq_iff_eq]
  constructor
  · rintro ⟨_, ⟨group, ⟨m, ⟨hm, huser⟩, hget⟩, rfl⟩, rfl⟩
    have hid : group.groupId = m.groupId := Table.key_of_get hget
    rw [hid, ← huser, hget]
    exact ⟨hm, rfl⟩
  · rintro ⟨hm, hthere⟩
    obtain ⟨group, hget⟩ := Option.isSome_iff_exists.mp hthere
    have hid : group.groupId = groupId := Table.key_of_get hget
    exact ⟨_, ⟨group, ⟨_, ⟨hm, rfl⟩, hget⟩, rfl⟩, hid⟩

/-- A group shows the roles it is assigned that are there. -/
theorem shows_role {row : Group} {roleId applicationId : String} :
    (∃ r ∈ (groupDetail db row).roles, r.roleId = roleId ∧ r.applicationId = applicationId) ↔
      (⟨row.groupId, roleId⟩ : GroupRole) ∈ db.groupRoles ∧
        ∃ role, db.roles.get roleId = some role ∧ role.applicationId = applicationId := by
  simp only [groupDetail, List.mem_map, mem_sortOn, List.mem_filterMap, Table.mem_select,
    beq_iff_eq]
  constructor
  · rintro ⟨_, ⟨role, ⟨gr, ⟨hgr, hgroup⟩, hget⟩, rfl⟩, rfl, rfl⟩
    have hid : role.roleId = gr.roleId := Table.key_of_get hget
    rw [hid, ← hgroup]
    exact ⟨hgr, role, hget, rfl⟩
  · rintro ⟨hgr, role, hget, rfl⟩
    have hid : role.roleId = roleId := Table.key_of_get hget
    exact ⟨_, ⟨role, ⟨_, ⟨hgr, rfl⟩, hget⟩, rfl⟩, hid, rfl⟩

/-- The permissions a role shows are those it carries. -/
theorem mem_shown_permissions {row : Role} {p : PermissionPublic} :
    p ∈ (roleDetail db row).permissions ↔ ∃ q ∈ db.permissions,
      (⟨row.roleId, q.permissionId⟩ : RolePermission) ∈ db.rolePermissions ∧
        p = permissionPublic q := by
  simp only [roleDetail, rolePermissionsOf, List.mem_map, mem_sortOn, List.mem_filterMap,
    Table.mem_select, beq_iff_eq]
  constructor
  · rintro ⟨q, ⟨rp, ⟨hrp, hrole⟩, hget⟩, rfl⟩
    have hid : q.permissionId = rp.permissionId := Table.key_of_get hget
    refine ⟨q, Table.mem_of_get hget, ?_, rfl⟩
    rw [hid, ← hrole]
    exact hrp
  · rintro ⟨q, hq, hrp, rfl⟩
    exact ⟨q, ⟨_, ⟨hrp, rfl⟩, Table.get_of_mem hq⟩, rfl⟩

/-- A role shows all it carries. -/
theorem shows_permission {row : Role} {text : String} :
    (∃ p ∈ (roleDetail db row).permissions, scope (p.resource, p.operation) = text) ↔
      ∃ p ∈ db.permissions, (⟨row.roleId, p.permissionId⟩ : RolePermission) ∈ db.rolePermissions ∧
        scope (p.resource, p.operation) = text := by
  constructor
  · rintro ⟨_, hshown, htext⟩
    obtain ⟨p, hp, hrp, rfl⟩ := mem_shown_permissions.mp hshown
    exact ⟨p, hp, hrp, htext⟩
  · rintro ⟨p, hp, hrp, htext⟩
    exact ⟨_, mem_shown_permissions.mpr ⟨p, hp, hrp, rfl⟩, htext⟩

/-! ## Following the pages -/

variable (env d db op) in
/-- Following the pages from the user, the operator finds the scope on the application. -/
def Leads (userId applicationId text : String) : Prop :=
  ∃ users, Served.answer env ⟨db, .admin op .listUsers, d⟩ = .ok (.users users) ∧
  ∃ user ∈ users, user.userId = userId ∧
  ∃ shown ∈ user.groups, ∃ group,
    Served.answer env ⟨db, .admin op (.getGroup shown.groupId), d⟩ = .ok (.group group) ∧
  ∃ held ∈ group.roles, held.applicationId = applicationId ∧
  ∃ role, Served.answer env ⟨db, .admin op (.getRole held.roleId), d⟩ = .ok (.role role) ∧
  ∃ permission ∈ role.permissions, scope (permission.resource, permission.operation) = text

variable {userId applicationId text : String}

theorem permission_of_leads (howned : WellOwned db.toDirectory)
    (h : Leads env d db op userId applicationId text) :
    db.userTenant userId = some op.tenantId ∧
      text ∈ effectivePermissions db.toDirectory userId applicationId := by
  obtain ⟨users, husers, user, huser, rfl, shown, hshown, group, hgroup, held, hheld, happ,
    role, hrole, permission, hpermission, htext⟩ := h
  rw [answer_listUsers] at husers
  cases husers
  obtain ⟨row, hrow, htenant, rfl⟩ := mem_listed_users.mp huser
  obtain ⟨hmember, -⟩ := shows_group.mp ⟨shown, hshown, rfl⟩
  obtain ⟨groupRow, hgroupRow, -, rfl⟩ := answer_getGroup.mp hgroup
  obtain ⟨hassigned, roleRow, hroleRow, hon⟩ := shows_role.mp ⟨held, hheld, rfl, happ⟩
  obtain ⟨roleRow', hroleRow', -, rfl⟩ := answer_getRole.mp hrole
  obtain rfl : roleRow = roleRow' := Option.some.inj (hroleRow.symm.trans hroleRow')
  obtain ⟨p, hp, hcarries, hscope⟩ := shows_permission.mp ⟨permission, hpermission, htext⟩
  -- the role carries permissions of its own application only
  have hpermissionOn : p.applicationId = applicationId := by
    obtain ⟨tenantId, owner, howner, hsame⟩ := howned.rolePermissions _ hcarries
    rw [Directory.roleOwners, Table.get_of_mem (Table.mem_of_get hroleRow), Option.map_some,
      Option.some.injEq, Prod.mk.injEq] at howner
    rw [Directory.permissionApplication, Table.get_of_mem hp, Option.map_some,
      Option.some.injEq] at hsame
    rw [hsame, ← howner.2, hon]
  refine ⟨?_, mem_effectivePermissions.mpr ⟨p, hp, hpermissionOn, hscope, _, hcarries, rfl,
    roleRow, Table.mem_of_get hroleRow, rfl, hon, holdsRole_iff.mpr ⟨_, hassigned, ?_, _, hmember,
    (Table.key_of_get hgroupRow).symm, rfl⟩⟩⟩
  · show db.userTenant row.userId = some op.tenantId
    rw [Directory.userTenant, Table.get_of_mem hrow, Option.map_some, htenant]
  · exact (Table.key_of_get hroleRow).symm

theorem leads_of_permission (howned : WellOwned db.toDirectory)
    (hown : db.userTenant userId = some op.tenantId)
    (h : text ∈ effectivePermissions db.toDirectory userId applicationId) :
    Leads env d db op userId applicationId text := by
  obtain ⟨p, hp, -, htext, rp, hrp, hpermission, r, hr, hrole, hon, hholds⟩ :=
    mem_effectivePermissions.mp h
  obtain ⟨gr, hgr, hassigned, m, hm, hgroup, hmember⟩ := holdsRole_iff.mp hholds
  -- the group and the role are of the operator's tenant, as the user is
  have hgroupTenant : db.groupTenant gr.groupId = some op.tenantId := by
    obtain ⟨tenantId, hgroupOwner, huserOwner⟩ := howned.memberships m hm
    rw [hmember, hown] at huserOwner
    rw [← hgroup, hgroupOwner, Option.some.inj huserOwner]
  have hroleTenant : r.tenantId = op.tenantId := by
    obtain ⟨tenantId, owner, hgroupOwner, hroleOwner⟩ := howned.groupRoles gr hgr
    rw [hassigned, Directory.roleOwners, Table.get_of_mem hr, Option.map_some,
      Option.some.injEq, Prod.mk.injEq] at hroleOwner
    rw [hroleOwner.1]
    exact Option.some.inj (hgroupOwner.symm.trans hgroupTenant)
  obtain ⟨user, huser, huserTenant⟩ := Option.map_eq_some_iff.mp hown
  obtain ⟨group, hgroupRow, hgroupOwn⟩ := Option.map_eq_some_iff.mp hgroupTenant
  have huserId : user.userId = userId := Table.key_of_get huser
  have hgroupId : group.groupId = gr.groupId := Table.key_of_get hgroupRow
  have hshown : ∃ g ∈ (userPublicOf db user).groups, g.groupId = gr.groupId := by
    refine shows_group.mpr ⟨?_, by rw [hgroupRow]; rfl⟩
    rw [huserId, ← hmember, ← hgroup]
    exact hm
  obtain ⟨shown, hshown, hshownId⟩ := hshown
  have hheld : ∃ held ∈ (groupDetail db group).roles, held.roleId = r.roleId ∧
      held.applicationId = applicationId := by
    refine shows_role.mpr ⟨?_, r, Table.get_of_mem hr, hon⟩
    rw [hgroupId, ← hassigned]
    exact hgr
  obtain ⟨held, hheld, hheldId, hheldOn⟩ := hheld
  have hpermissions : ∃ p ∈ (roleDetail db r).permissions,
      scope (p.resource, p.operation) = text := by
    refine shows_permission.mpr ⟨p, hp, ?_, htext⟩
    rw [hrole, ← hpermission]
    exact hrp
  refine ⟨_, answer_listUsers, userPublicOf db user,
    mem_listed_users.mpr ⟨user, Table.mem_of_get huser, huserTenant, rfl⟩, huserId, shown, hshown,
    groupDetail db group, answer_getGroup.mpr ⟨group, ?_, hgroupOwn, rfl⟩, held, hheld, hheldOn,
    roleDetail db r, answer_getRole.mpr ⟨r, ?_, hroleTenant, rfl⟩, hpermissions⟩
  · rw [hshownId]
    exact hgroupRow
  · rw [hheldId]
    exact Table.get_of_mem hr

/-! ## The numbers -/

theorem length_members {row : Group} :
    (groupDetail db row).members.length = memberCount db row.groupId := by
  rw [groupDetail, List.length_map, (perm_sortOn _ _).length_eq, memberCount]

theorem shows_member {row : Group} :
    (∃ m ∈ (groupDetail db row).members, m.userId = userId) ↔
      (⟨row.groupId, userId⟩ : GroupMembership) ∈ db.groupMemberships := by
  simp only [groupDetail, List.mem_map, mem_sortOn, Table.mem_select, beq_iff_eq]
  constructor
  · rintro ⟨_, ⟨m, ⟨hm, hgroup⟩, rfl⟩, rfl⟩
    rw [← hgroup]
    exact hm
  · intro hm
    exact ⟨_, ⟨_, ⟨hm, rfl⟩, rfl⟩, rfl⟩

/-- A role shows as many permissions as it carries, when they are there. -/
theorem length_permissions (howned : WellOwned db.toDirectory) {row : Role} :
    (roleDetail db row).permissions.length = (rolePublic db row).permissionCount := by
  have hthere : ∀ rp ∈ db.rolePermissions.select (fun rp => rp.roleId == row.roleId),
      (db.permissions.get rp.permissionId).isSome := by
    intro rp hrp
    obtain ⟨tenantId, applicationId, -, happ⟩ :=
      howned.rolePermissions rp (Table.mem_select.mp hrp).1
    obtain ⟨p, hget, -⟩ := Option.map_eq_some_iff.mp happ
    rw [hget]
    rfl
  rw [roleDetail, rolePublic, rolePermissionsOf, List.length_map, (perm_sortOn _ _).length_eq]
  exact List.filterMap_length_eq_length.mpr hthere

/-! ## All pages at once -/

/-- The pages an operator reads tell what is so, and the same. -/
structure ConsoleAgrees (env : Env) (d : Draws) (db : Db) (op : Operator) : Prop where
  /-- what the pages lead to, for the tenant's users and for nobody else -/
  permissions : ∀ userId applicationId text, Leads env d db op userId applicationId text ↔
    db.userTenant userId = some op.tenantId ∧
      text ∈ effectivePermissions db.toDirectory userId applicationId
  /-- a group that is listed with a number of members can be opened and shows as many, the
  users that show the group -/
  members : ∀ groups users,
    Served.answer env ⟨db, .admin op .listGroups, d⟩ = .ok (.groups groups) →
    Served.answer env ⟨db, .admin op .listUsers, d⟩ = .ok (.users users) →
    ∀ shown ∈ groups, ∃ group,
      Served.answer env ⟨db, .admin op (.getGroup shown.groupId), d⟩ = .ok (.group group) ∧
      group.members.length = shown.memberCount ∧
      ∀ userId, (∃ m ∈ group.members, m.userId = userId) ↔
        ∃ user ∈ users, user.userId = userId ∧ ∃ g ∈ user.groups, g.groupId = shown.groupId
  /-- a role that is listed with a number of permissions can be opened and shows as many -/
  contents : ∀ roles, Served.answer env ⟨db, .admin op (.listRoles none), d⟩ = .ok (.roles roles) →
    ∀ shown ∈ roles, ∃ role,
      Served.answer env ⟨db, .admin op (.getRole shown.roleId), d⟩ = .ok (.role role) ∧
      role.permissions.length = shown.permissionCount

/-- The users who show a group are its members. -/
theorem shown_members (howned : WellOwned db.toDirectory) {row : Group}
    (hget : db.groups.get row.groupId = some row) (htenant : row.tenantId = op.tenantId) :
    (⟨row.groupId, userId⟩ : GroupMembership) ∈ db.groupMemberships ↔
      ∃ user ∈ (sortOn (fun row : User => [row.email])
          (db.users.select fun row => row.tenantId == op.tenantId)).map (userPublicOf db),
        user.userId = userId ∧ ∃ g ∈ user.groups, g.groupId = row.groupId := by
  constructor
  · intro hm
    obtain ⟨tenantId, hgroupOwner, huserOwner⟩ := howned.memberships _ hm
    obtain ⟨user, huser, hown⟩ := Option.map_eq_some_iff.mp huserOwner
    rw [Directory.groupTenant, hget, Option.map_some, htenant] at hgroupOwner
    have huserId : user.userId = userId := Table.key_of_get huser
    refine ⟨userPublicOf db user, mem_listed_users.mpr ⟨user, Table.mem_of_get huser, ?_, rfl⟩,
      huserId, shows_group.mpr ⟨?_, by rw [hget]; rfl⟩⟩
    · rw [hown]
      exact (Option.some.inj hgroupOwner).symm
    · rw [huserId]
      exact hm
  · rintro ⟨user, huser, rfl, hshown⟩
    obtain ⟨userRow, -, -, rfl⟩ := mem_listed_users.mp huser
    exact (shows_group.mp hshown).1

theorem agrees_of_owned (howned : WellOwned db.toDirectory) : ConsoleAgrees env d db op where
  permissions userId applicationId text :=
    ⟨permission_of_leads howned, fun h => leads_of_permission howned h.1 h.2⟩
  members := by
    intro groups users hgroups husers shown hshown
    rw [answer_listGroups] at hgroups
    rw [answer_listUsers] at husers
    cases hgroups
    cases husers
    simp only [List.mem_map, mem_sortOn, Table.mem_select, beq_iff_eq] at hshown
    obtain ⟨row, ⟨hrow, htenant⟩, rfl⟩ := hshown
    have hget : db.groups.get row.groupId = some row := Table.get_of_mem hrow
    refine ⟨groupDetail db row, answer_getGroup.mpr ⟨row, hget, htenant, rfl⟩, length_members,
      fun userId => ?_⟩
    exact shows_member.trans (shown_members howned hget htenant)
  contents := by
    intro roles hroles shown hshown
    rw [answer_listRoles] at hroles
    cases hroles
    simp only [List.mem_map, mem_sortOn, Table.mem_select, Bool.and_true, beq_iff_eq] at hshown
    obtain ⟨row, ⟨hrow, htenant⟩, rfl⟩ := hshown
    exact ⟨roleDetail db row,
      answer_getRole.mpr ⟨row, Table.get_of_mem hrow, htenant, rfl⟩, length_permissions howned⟩

/-- **The console tells the truth.**  In every state that requests of the API lead to, no
tenant being founded, from an orderly directory, the pages of any operator agree with what
is so and with each other. -/
theorem console_agrees {start : Db} {hist : List ApiServed} (hstart : Orderly start.toDirectory)
    (run : ApiRun env start hist db) (hcreate : ∀ m ∈ hist, m.FoundsNothing) :
    ConsoleAgrees env d db op :=
  agrees_of_owned (orderly_api hstart run hcreate).owned

/-- The pages lead from whom Ana hired to what she may do. -/
theorem console_agrees_hired :
    Leads .standIn (.numbered 3) (anaHires.after .standIn) ⟨"usr_ana", "acme", "acme", ∅, false⟩
      "usr_hex-2" "portal" "admin:read" := by
  have hown : (anaHires.after .standIn).userTenant "usr_hex-2" = some "acme" := by
    decide +kernel
  exact ((console_agrees orderly_standInManaged run_hires foundsNothing_hires).permissions
    _ _ _).mpr ⟨hown, evaluated_hires.2⟩

end RbaIdp
