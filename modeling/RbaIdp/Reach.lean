import RbaIdp.Effects.Edits
import RbaIdp.Ownership
import RbaIdp.Relational.Grants

/-!
# The reach of an edit of the RBAC graph

`grants` reads the five tables that authorization joins as relations, and every
edit of them as one step on those relations: `grants_after` says that the state
an edit leaves has the relations of the step.  What an edit can change, and for
whom, is then a fact about the step, from `Relational/Grants.lean`.

Referential integrity and ownership are what makes a new role or permission
unreachable: no edge names an id before there is a row under it.
-/

namespace RbaIdp

open Relational

/-! ## The relations -/

/-- The relations that authorization joins. -/
def grants (db : Directory) : Grants String String String String String String where
  member groupId userId := ⟨groupId, userId⟩ ∈ db.groupMemberships
  assigned groupId roleId := ⟨groupId, roleId⟩ ∈ db.groupRoles
  roleOn roleId applicationId := ∃ r ∈ db.roles, r.roleId = roleId ∧ r.applicationId = applicationId
  carries roleId permissionId := ⟨roleId, permissionId⟩ ∈ db.rolePermissions
  gives permissionId applicationId text := ∃ p ∈ db.permissions, p.permissionId = permissionId ∧
    p.applicationId = applicationId ∧ scope (p.resource, p.operation) = text

variable {env : Env} {d : Draws} {op : Operator} {call : AdminCall} {db : Directory}
  {userId applicationId roleId : String}

theorem holdsRole_iff_holds :
    holdsRole db userId roleId = true ↔ (grants db).Holds userId roleId := by
  rw [holdsRole_iff]
  constructor
  · rintro ⟨gr, hgr, rfl, m, hm, hgroup, rfl⟩
    refine ⟨gr.groupId, ?_, hgr⟩
    show (⟨gr.groupId, m.userId⟩ : GroupMembership) ∈ db.groupMemberships
    rw [← hgroup]
    exact hm
  · rintro ⟨groupId, hm, hgr⟩
    exact ⟨⟨groupId, roleId⟩, hgr, rfl, ⟨groupId, userId⟩, hm, rfl, rfl⟩

theorem hasApplicationAccess_iff_access :
    hasApplicationAccess db userId applicationId = true ↔
      (grants db).Access userId applicationId := by
  rw [hasApplicationAccess_iff]
  constructor
  · rintro ⟨r, hr, happ, hholds⟩
    obtain ⟨groupId, hmember, hassigned⟩ := holdsRole_iff_holds.mp hholds
    exact ⟨groupId, r.roleId, hmember, hassigned, r, hr, rfl, happ⟩
  · rintro ⟨groupId, roleId, hmember, hassigned, r, hr, rfl, happ⟩
    exact ⟨r, hr, happ, holdsRole_iff_holds.mpr ⟨groupId, hmember, hassigned⟩⟩

theorem mem_effectivePermissions_iff {text : String} :
    text ∈ effectivePermissions db userId applicationId ↔
      text ∈ (grants db).permissions userId applicationId := by
  rw [mem_effectivePermissions]
  constructor
  · rintro ⟨p, hp, hon, htext, rp, hrp, hpermission, r, hr, hrole, happ, hholds⟩
    obtain ⟨groupId, hmember, hassigned⟩ := holdsRole_iff_holds.mp hholds
    refine ⟨groupId, r.roleId, p.permissionId, ⟨hmember, hassigned, r, hr, rfl, happ⟩, ?_,
      p, hp, rfl, hon, htext⟩
    show (⟨r.roleId, p.permissionId⟩ : RolePermission) ∈ db.rolePermissions
    rw [hrole, ← hpermission]
    exact hrp
  · rintro ⟨groupId, _, _, ⟨hmember, hassigned, r, hr, rfl, happ⟩, hcarries, p, hp, rfl, hon, htext⟩
    exact ⟨p, hp, hon, htext, _, hcarries, rfl, r, hr, rfl, happ,
      holdsRole_iff_holds.mpr ⟨groupId, hmember, hassigned⟩⟩

/-! ## Edits as steps -/

/-- What `_sync_admin_flag` does to the relations. -/
def syncStep (db : Directory) (tenantId userId : String) (isAdmin : Bool) :
    Grants.Edit String String String String String String :=
  match adminGroup db tenantId with
  | none => .keep
  | some group => if isAdmin then .join group.groupId userId else .leave group.groupId userId

/-- The step of an edit. -/
def stepOf (d : Draws) (op : Operator) (db : Directory) :
    AdminCall → Grants.Edit String String String String String String
  | .addMember groupId body => .join groupId body.userId
  | .removeMember groupId userId => .leave groupId userId
  | .deleteGroup groupId => .dropGroup groupId
  | .patchUser userId body =>
      match body.isAdmin with
      | none => .keep
      | some isAdmin => syncStep db op.tenantId userId isAdmin
  | .addGroupRole groupId body => .assign groupId body.roleId
  | .removeGroupRole groupId roleId => .unassign groupId roleId
  | .setRolePermissions roleId body => .setCarried roleId {pid | pid ∈ body.permissionIds}
  | .deleteRole roleId => .dropRole roleId
  | .createRole body => .addRole (roleRow d op body).roleId body.applicationId
  | .createPermission body =>
      .addPermission (permissionRow body).permissionId body.applicationId
        (scope (body.resource, body.operation))
  | _ => .keep

/-- What an edit of the RBAC graph is an edit of. -/
inductive EditKind where
  | ofMembers
  | ofRole (roleId : String)
  | ofNothing

/-- The edits of the RBAC graph. -/
def AdminCall.editKind : AdminCall → Option EditKind
  | .addMember _ _ | .removeMember _ _ | .deleteGroup _ | .patchUser _ _ => some .ofMembers
  | .addGroupRole _ body => some (.ofRole body.roleId)
  | .removeGroupRole _ roleId | .setRolePermissions roleId _ | .deleteRole roleId =>
      some (.ofRole roleId)
  | .createPermission _ | .patchRole _ _ | .patchGroup _ _ | .createRole _ => some .ofNothing
  | _ => none

/-- The group whose members an edit changes; for the flag of `patch_user`, the
tenant's admin group. -/
def editedGroup (op : Operator) (db : Directory) : AdminCall → Option String
  | .addMember groupId _ | .removeMember groupId _ | .deleteGroup groupId => some groupId
  | .patchUser _ _ => (db.tenants.get op.tenantId).bind Tenant.adminGroupId
  | _ => none

/-! Statements that are steps of their own. -/

theorem mem_insertGroupMembership {db : Directory} {m row : GroupMembership} :
    m ∈ db.groupMemberships.insert row ↔ m ∈ db.groupMemberships ∨ m = row :=
  Table.mem_insert_of_injective GroupMembership.key_injective

theorem mem_insertGroupRole {db : Directory} {gr row : GroupRole} :
    gr ∈ db.groupRoles.insert row ↔ gr ∈ db.groupRoles ∨ gr = row :=
  Table.mem_insert_of_injective GroupRole.key_injective

theorem mem_insertRolePermission {db : Directory} {rp row : RolePermission} :
    rp ∈ db.rolePermissions.insert row ↔ rp ∈ db.rolePermissions ∨ rp = row :=
  Table.mem_insert_of_injective RolePermission.key_injective

theorem grants_join {groupId : String} :
    grants ((DirectoryWrite.insertGroupMembership ⟨groupId, userId⟩).effect db) =
      (Grants.Edit.join groupId userId).apply (grants db) := by
  ext <;> simp [grants, Grants.Edit.apply, DirectoryWrite.effect, mem_insertGroupMembership]

theorem grants_leave {groupId : String} :
    grants ((DirectoryWrite.deleteGroupMembership groupId userId).effect db) =
      (Grants.Edit.leave groupId userId).apply (grants db) := by
  ext <;> simp [grants, Grants.Edit.apply, DirectoryWrite.effect]

theorem grants_assign {groupId : String} :
    grants ((DirectoryWrite.insertGroupRole ⟨groupId, roleId⟩).effect db) =
      (Grants.Edit.assign groupId roleId).apply (grants db) := by
  ext <;> simp [grants, Grants.Edit.apply, DirectoryWrite.effect, mem_insertGroupRole]

theorem grants_unassign {groupId : String} :
    grants ((DirectoryWrite.deleteGroupRole groupId roleId).effect db) =
      (Grants.Edit.unassign groupId roleId).apply (grants db) := by
  ext <;> simp [grants, Grants.Edit.apply, DirectoryWrite.effect]

theorem grants_dropGroup {groupId : String} :
    grants (applied [.deleteMembershipsOfGroup groupId, .deleteRolesOfGroup groupId,
      .deleteGroup groupId] db) = (Grants.Edit.dropGroup groupId).apply (grants db) := by
  ext <;> simp [grants, Grants.Edit.apply, DirectoryWrite.effect]

theorem grants_dropRole :
    grants (applied [.deletePermissionsOfRole roleId, .deleteGroupsOfRole roleId,
      .deleteRole roleId] db) = (Grants.Edit.dropRole roleId).apply (grants db) := by
  have hroles : ∀ q a, (∃ r ∈ (db.roles.erase fun r => r.roleId == roleId),
      r.roleId = q ∧ r.applicationId = a) ↔
      (∃ r ∈ db.roles, r.roleId = q ∧ r.applicationId = a) ∧ q ≠ roleId := by
    intro q a
    constructor
    · rintro ⟨r, hr, rfl, happ⟩
      obtain ⟨hold, hother⟩ := Table.mem_erase.mp hr
      exact ⟨⟨r, hold, rfl, happ⟩, by simpa using hother⟩
    · rintro ⟨⟨r, hr, rfl, happ⟩, hother⟩
      exact ⟨r, Table.mem_erase.mpr ⟨hr, by simpa using hother⟩, rfl, happ⟩
  ext q
  case roleOn a => exact hroles q a
  all_goals simp [grants, Grants.Edit.apply, DirectoryWrite.effect]

theorem grants_setCarried {wanted : List String} :
    grants (applied (.deletePermissionsOfRole roleId ::
      wanted.map fun pid => .insertRolePermission ⟨roleId, pid⟩) db) =
      (Grants.Edit.setCarried roleId {pid | pid ∈ wanted}).apply (grants db) := by
  have hinserts : ∀ db : Directory, grants (applied (wanted.map fun pid =>
      .insertRolePermission ⟨roleId, pid⟩) db) =
      { grants db with
        carries := fun r p => (grants db).carries r p ∨ (r = roleId ∧ p ∈ wanted) } := by
    induction wanted with
    | nil => intro db; ext <;> simp
    | cons pid wanted ih =>
        intro db
        rw [List.map_cons, applied_cons, ih]
        ext
        case carries r p =>
          simp [grants, DirectoryWrite.effect, mem_insertRolePermission, or_assoc, and_or_left]
        all_goals rfl
  rw [applied_cons, hinserts]
  ext
  case carries r p =>
    simp [grants, Grants.Edit.apply, DirectoryWrite.effect]
  all_goals rfl

theorem grants_insertRole {row : Role} (hfree : db.roles.get row.roleId = none) :
    grants ((DirectoryWrite.insertRole row).effect db) =
      (Grants.Edit.addRole row.roleId row.applicationId).apply (grants db) := by
  ext
  case roleOn q a =>
    simp only [grants, Grants.Edit.apply, DirectoryWrite.effect, Table.mem_insert hfree]
    constructor
    · rintro ⟨r, hr | rfl, rfl, rfl⟩
      · exact Or.inl ⟨r, hr, rfl, rfl⟩
      · exact Or.inr ⟨rfl, rfl⟩
    · rintro (⟨r, hr, hid, happ⟩ | ⟨rfl, rfl⟩)
      · exact ⟨r, Or.inl hr, hid, happ⟩
      · exact ⟨row, Or.inr rfl, rfl, rfl⟩
  all_goals rfl

theorem grants_insertPermission {row : Permission}
    (hfree : db.permissions.get row.permissionId = none) :
    grants ((DirectoryWrite.insertPermission row).effect db) =
      (Grants.Edit.addPermission row.permissionId row.applicationId
        (scope (row.resource, row.operation))).apply (grants db) := by
  ext
  case gives q a text =>
    simp only [grants, Grants.Edit.apply, DirectoryWrite.effect, Table.mem_insert hfree]
    constructor
    · rintro ⟨p, hp | rfl, rfl, rfl, rfl⟩
      · exact Or.inl ⟨p, hp, rfl, rfl, rfl⟩
      · exact Or.inr ⟨rfl, rfl, rfl⟩
    · rintro (⟨p, hp, hid, happ, htext⟩ | ⟨rfl, rfl, rfl⟩)
      · exact ⟨p, Or.inl hp, hid, happ, htext⟩
      · exact ⟨row, Or.inr rfl, rfl, rfl, rfl⟩
  all_goals rfl

/-- Names and descriptions, and what a user's row says, are no part of the
relations. -/
def DirectoryWrite.describes : DirectoryWrite → Bool
  | .setRoleName _ _ | .setRoleDescription _ _ | .setGroupName _ _ | .setGroupDescription _ _
  | .setUserEnabled _ _ | .setUserIsAdmin _ _ | .setUserPasswordHash _ _
  | .setUserAlwaysPasskey _ _ => true
  | _ => false

theorem grants_describe {w : DirectoryWrite} (hw : w.describes = true) :
    grants (w.effect db) = grants db := by
  have hroles : ∀ {f : Role → Role} {hf : ∀ r, (f r).roleId = r.roleId} {id : String},
      (∀ r, (f r).applicationId = r.applicationId) →
      grants (db.updateRole id f hf) = grants db := by
    intro f hf id happ
    ext
    case roleOn q a =>
      simp only [grants, Directory.updateRole, Table.mem_modify]
      constructor
      · rintro ⟨_, ⟨r, hr, rfl⟩, hid, ha⟩
        refine ⟨r, hr, ?_, ?_⟩
        · rw [← hid]; split <;> simp [hf]
        · rw [← ha]; split <;> simp [happ]
      · rintro ⟨r, hr, hid, ha⟩
        refine ⟨_, ⟨r, hr, rfl⟩, ?_, ?_⟩
        · rw [← hid]; split <;> simp [hf]
        · rw [← ha]; split <;> simp [happ]
    all_goals rfl
  cases w with
  | setRoleName | setRoleDescription => exact hroles fun _ => rfl
  | setGroupName | setGroupDescription | setUserEnabled | setUserIsAdmin | setUserPasswordHash
  | setUserAlwaysPasskey => rfl
  | _ => cases hw

theorem grants_describes {α : Type} {o : Option α} {w : α → DirectoryWrite}
    (hw : ∀ a, (w a).describes = true) (db : Directory) :
    grants (applied (o.toList.map w) db) = grants db := by
  refine applied_frame (fun v hv _ => grants_describe ?_) db
  obtain ⟨a, -, rfl⟩ := List.mem_map.mp hv
  exact hw a

/-- The flag's group gains or loses the user, unless that is how it was. -/
theorem grants_sync {tenantId : String} {isAdmin : Bool} {db' : Directory}
    (hmemberships : db'.groupMemberships = db.groupMemberships) :
    grants (applied (syncWrites db tenantId userId isAdmin) db') =
      (syncStep db tenantId userId isAdmin).apply (grants db') := by
  have hmember : ∀ groupId, (grants db').member groupId userId ↔
      db.groupMemberships.get (groupId, userId) ≠ none := by
    intro groupId
    rw [← mem_groupMemberships_iff, ← hmemberships]
    exact Iff.rfl
  unfold syncWrites syncStep
  cases adminGroup db tenantId with
  | none => rfl
  | some group =>
      by_cases hthere : db.groupMemberships.get (group.groupId, userId) = none
      · have hnot : ¬ (grants db').member group.groupId userId := fun h =>
          (hmember group.groupId).mp h hthere
        cases isAdmin with
        | true => simpa [hthere] using grants_join
        | false => simp [hthere, Grants.leave_of_not_member hnot]
      · have hin : (grants db').member group.groupId userId := (hmember group.groupId).mpr hthere
        cases isAdmin with
        | true => simp [hthere, Grants.join_of_member hin]
        | false => simpa [hthere] using grants_leave

theorem grants_patchUser {body : PatchUserRequest} :
    grants (applied (patchUserWrites d op db userId body) db) =
      (stepOf d op db (.patchUser userId body)).apply (grants db) := by
  rw [patchUserWrites, applied_append, grants_describes fun _ => rfl, applied_append,
    grants_describes fun _ => rfl, applied_append]
  have hbefore : grants (applied (body.enabled.toList.map (.setUserEnabled userId)) db) =
      grants db := grants_describes (fun _ => rfl) db
  cases hisAdmin : body.isAdmin with
  | none => simpa [stepOf, hisAdmin, Grants.Edit.apply] using hbefore
  | some isAdmin =>
      simp only [Option.toList_some, List.flatMap_cons, List.flatMap_nil, List.append_nil,
        applied_cons]
      rw [grants_sync, grants_describe rfl, hbefore]
      · simp [stepOf, hisAdmin]
      · cases body.enabled <;> rfl

/-- **An edit is a step.**  The state an edit leaves has the relations its step
leaves. -/
theorem grants_after {ws : List DirectoryWrite} (hedit : AdminEdit env d op db call ws)
    (hkind : call.editKind.isSome = true) :
    grants (applied ws db) = (stepOf d op db call).apply (grants db) := by
  cases hedit with
  | addMember => exact grants_join
  | removeMember => exact grants_leave
  | deleteGroup => exact grants_dropGroup
  | patchUser => exact grants_patchUser
  | addGroupRole => exact grants_assign
  | removeGroupRole => exact grants_unassign
  | setRolePermissions =>
      rw [grants_setCarried]
      simp only [stepOf, mem_wantedPermissions]
  | deleteRole => exact grants_dropRole
  | createRole hfree => exact grants_insertRole hfree
  | createPermission hfree => exact grants_insertPermission hfree
  | patchRole | patchGroup =>
      rw [applied_append, grants_describes fun _ => rfl,
        grants_describes fun _ => rfl]
      rfl
  | createUser | createGroup => cases hkind

/-! ## The reach of an edit -/

/-- Does the user have other permissions or other access on the application
after an edit? -/
def Changes (before after : Directory) (userId applicationId : String) : Prop :=
  effectivePermissions after userId applicationId ≠
      effectivePermissions before userId applicationId ∨
    hasApplicationAccess after userId applicationId ≠
      hasApplicationAccess before userId applicationId

theorem not_changes_of_same {before after : Directory}
    (h : (grants before).Same (grants after) userId applicationId) :
    ¬ Changes before after userId applicationId := by
  rintro (hpermissions | haccess)
  · refine hpermissions (Finset.ext fun text => ?_)
    rw [mem_effectivePermissions_iff, mem_effectivePermissions_iff, h.1]
  · refine haccess (Bool.eq_iff_iff.mpr ?_)
    rw [hasApplicationAccess_iff_access, hasApplicationAccess_iff_access, h.2]

/-- What an edit of the RBAC graph can change, from a state to the one it leaves. -/
structure EditReach (d : Draws) (op : Operator) (call : AdminCall) (before after : Directory) :
    Prop where
  /-- an edit of members changes nothing except for those it adds or removes -/
  members : call.editKind = some .ofMembers → ∀ userId applicationId,
    Changes before after userId applicationId →
      ∃ groupId, editedGroup op before call = some groupId ∧
        ¬ ((⟨groupId, userId⟩ : GroupMembership) ∈ before.groupMemberships ↔
          (⟨groupId, userId⟩ : GroupMembership) ∈ after.groupMemberships)
  /-- an edit of a role changes nothing except on its application, for its holders -/
  role : ∀ roleId, call.editKind = some (.ofRole roleId) → ∀ userId applicationId,
    Changes before after userId applicationId →
      (before.roles.get roleId).map Role.applicationId = some applicationId ∧
        (holdsRole before userId roleId = true ∨ holdsRole after userId roleId = true)
  /-- a new role or permission and new names change nothing for anybody -/
  nothing : call.editKind = some .ofNothing → ∀ userId applicationId,
    ¬ Changes before after userId applicationId
  /-- the permissions are the scopes at the ends of the remaining paths, and access is that
  there is one -/
  paths : ∀ userId applicationId,
    (∀ text, text ∈ effectivePermissions after userId applicationId ↔
      ∃ groupId roleId permissionId,
        ((stepOf d op before call).apply (grants before)).Path userId applicationId groupId roleId ∧
        ((stepOf d op before call).apply (grants before)).carries roleId permissionId ∧
        ((stepOf d op before call).apply (grants before)).gives permissionId applicationId text) ∧
    (hasApplicationAccess after userId applicationId = true ↔ ∃ groupId roleId,
      ((stepOf d op before call).apply (grants before)).Path userId applicationId groupId roleId)
  /-- a role given other permissions gives its holders these, next to what their other roles
  give, and nobody loses or gains access -/
  contents : ∀ roleId body, call = .setRolePermissions roleId body →
    (∀ userId applicationId, hasApplicationAccess after userId applicationId =
      hasApplicationAccess before userId applicationId) ∧
    ∀ userId role, before.roles.get roleId = some role → holdsRole before userId roleId = true →
      ∀ text, text ∈ effectivePermissions after userId role.applicationId ↔
        (∃ p ∈ before.permissions, p.permissionId ∈ body.permissionIds ∧
          scope (p.resource, p.operation) = text) ∨
        ∃ other ∈ before.roles, other.roleId ≠ roleId ∧
          other.applicationId = role.applicationId ∧
          holdsRole before userId other.roleId = true ∧
          ∃ p ∈ before.permissions, p.applicationId = role.applicationId ∧
            (⟨other.roleId, p.permissionId⟩ : RolePermission) ∈ before.rolePermissions ∧
            scope (p.resource, p.operation) = text

/-- The group of an edit of members is the one its step is about. -/
theorem editedGroup_of_step (hkind : call.editKind = some .ofMembers)
    (hkept : stepOf d op db call ≠ .keep) :
    ∃ groupId, editedGroup op db call = some groupId ∧
      (stepOf d op db call).group? = some groupId := by
  cases call with
  | addMember groupId body => exact ⟨groupId, rfl, rfl⟩
  | removeMember groupId userId => exact ⟨groupId, rfl, rfl⟩
  | deleteGroup groupId => exact ⟨groupId, rfl, rfl⟩
  | patchUser userId body =>
      simp only [stepOf, syncStep] at hkept ⊢
      cases hisAdmin : body.isAdmin with
      | none => exact absurd (by simp [hisAdmin]) hkept
      | some isAdmin =>
          cases hgroup : adminGroup db op.tenantId with
          | none => exact absurd (by simp [hisAdmin, hgroup]) hkept
          | some group =>
              refine ⟨group.groupId, ?_, by cases isAdmin <;> rfl⟩
              obtain ⟨tenant, htenant, hadmin⟩ := Option.bind_eq_some_iff.mp hgroup
              obtain ⟨groupId, hid, hget⟩ := Option.bind_eq_some_iff.mp hadmin
              rw [editedGroup, htenant, Option.bind_some, Table.key_of_get hget]
              exact (Option.filter_eq_some_iff.mp hid).1
  | _ => cases hkind

theorem role_of_step (hkind : call.editKind = some (.ofRole roleId)) :
    (stepOf d op db call).role? = some roleId := by
  cases call with
  | addGroupRole | removeGroupRole | setRolePermissions | deleteRole =>
      cases hkind
      rfl
  | _ => cases hkind

/-- Nobody holds what is not there yet. -/
theorem same_of_ofNothing {ws : List DirectoryWrite} (hintegrity : Integrity db)
    (howned : WellOwned db) (hedit : AdminEdit env d op db call ws)
    (hkind : call.editKind = some .ofNothing) :
    (grants db).Same ((stepOf d op db call).apply (grants db)) userId applicationId := by
  cases hedit with
  | createRole hfree =>
      refine Grants.same_of_addRole fun groupId hassigned => ?_
      have hrole := (hintegrity.groupRoles _ hassigned).2
      rw [hfree] at hrole
      cases hrole
  | createPermission hfree =>
      refine Grants.same_of_addPermission fun roleId hcarries => ?_
      obtain ⟨_, _, _, happ⟩ := howned.rolePermissions _ hcarries
      rw [Directory.permissionApplication, hfree] at happ
      cases happ
  | patchRole | patchGroup => exact ⟨rfl, Iff.rfl⟩
  | _ => cases hkind

theorem contents_of_step {ws : List DirectoryWrite} {body : SetRolePermissionsRequest}
    {role : Role} (hedit : AdminEdit env d op db (.setRolePermissions roleId body) ws)
    (hrole : db.roles.get roleId = some role) (hholds : holdsRole db userId roleId = true)
    (text : String) :
    text ∈ ((stepOf d op db (.setRolePermissions roleId body)).apply (grants db)).permissions
        userId role.applicationId ↔
      (∃ p ∈ db.permissions, p.permissionId ∈ body.permissionIds ∧
        scope (p.resource, p.operation) = text) ∨
      ∃ other ∈ db.roles, other.roleId ≠ roleId ∧ other.applicationId = role.applicationId ∧
        holdsRole db userId other.roleId = true ∧
        ∃ p ∈ db.permissions, p.applicationId = role.applicationId ∧
          (⟨other.roleId, p.permissionId⟩ : RolePermission) ∈ db.rolePermissions ∧
          scope (p.resource, p.operation) = text := by
  have hon : (grants db).roleOn roleId role.applicationId :=
    ⟨role, Table.mem_of_get hrole, Table.key_of_get hrole, rfl⟩
  rw [stepOf, Grants.permissions_setCarried (holdsRole_iff_holds.mp hholds) hon]
  refine or_congr ?_ ?_
  · constructor
    · rintro ⟨pid, hpid, p, hp, rfl, -, htext⟩
      exact ⟨p, hp, hpid, htext⟩
    · rintro ⟨p, hp, hpid, htext⟩
      -- a permission asked for is on the role's application
      refine ⟨p.permissionId, hpid, p, hp, rfl, ?_, htext⟩
      cases hedit with
      | setRolePermissions hrole' hsame =>
          have happ := hsame _ hpid
          rw [Directory.permissionApplication, Table.get_of_mem hp] at happ
          rw [hrole] at hrole'
          rw [Option.some.inj hrole', ← Option.some.inj happ]
  · constructor
    · rintro ⟨groupId, _, _, hother, ⟨hmember, hassigned, other, hrow, rfl, happ⟩, hcarries,
        p, hp, rfl, hon, htext⟩
      exact ⟨other, hrow, hother, happ, holdsRole_iff_holds.mpr ⟨groupId, hmember, hassigned⟩,
        p, hp, hon, hcarries, htext⟩
    · rintro ⟨other, hrow, hother, happ, hholds, p, hp, hon, hcarries, htext⟩
      obtain ⟨groupId, hmember, hassigned⟩ := holdsRole_iff_holds.mp hholds
      exact ⟨groupId, other.roleId, p.permissionId, hother,
        ⟨hmember, hassigned, other, hrow, rfl, happ⟩, hcarries, p, hp, rfl, hon, htext⟩

/-- **The reach of an edit.**  From a directory with referential integrity and
ownership, an answered edit of the RBAC graph changes what a user may do only as
far as `EditReach` says. -/
theorem edit_reach {s : Served} {a : Answer} (hintegrity : Integrity s.before.toDirectory)
    (howned : WellOwned s.before.toDirectory) (hrequest : s.request = .admin op call)
    (hkind : call.editKind.isSome = true) (hanswer : s.answer env = .ok a) :
    EditReach s.draws op call s.before.toDirectory (s.after env).toDirectory := by
  have hcall : call.administers = true := by
    cases call <;> first | rfl | cases hkind
  obtain ⟨ws, hedit, hafter⟩ := Served.edited hrequest hcall hanswer
  have hstep := grants_after hedit hkind
  rw [← hafter] at hstep
  have hunchanged : ∀ {userId applicationId : String},
      (grants s.before.toDirectory).Same ((stepOf s.draws op s.before.toDirectory call).apply
        (grants s.before.toDirectory)) userId applicationId →
      ¬ Changes s.before.toDirectory (s.after env).toDirectory userId applicationId := by
    intro userId applicationId hsame
    exact not_changes_of_same (hstep ▸ hsame)
  constructor
  case members =>
    intro hmembers userId applicationId hchanges
    by_contra hnone
    refine hunchanged ?_ hchanges
    by_cases hkept : stepOf s.draws op s.before.toDirectory call = .keep
    · rw [hkept]
      exact ⟨rfl, Iff.rfl⟩
    · obtain ⟨groupId, hgroup, hstepGroup⟩ := editedGroup_of_step hmembers hkept
      refine Grants.same_of_member hstepGroup ?_
      rw [← hstep]
      by_contra hdiffers
      exact hnone ⟨groupId, hgroup, hdiffers⟩
  case role =>
    intro roleId hrole userId applicationId hchanges
    by_contra hout
    refine hunchanged (Grants.same_of_role (role_of_step hrole) ?_) hchanges
    rintro ⟨⟨r, hr, rfl, rfl⟩, hholds⟩
    rw [← hstep, ← holdsRole_iff_holds, ← holdsRole_iff_holds] at hholds
    exact hout ⟨by rw [Table.get_of_mem hr, Option.map_some], hholds⟩
  case nothing =>
    intro hnothing userId applicationId
    exact hunchanged (same_of_ofNothing hintegrity howned hedit hnothing)
  case paths =>
    intro userId applicationId
    rw [← hstep]
    exact ⟨fun text => mem_effectivePermissions_iff, hasApplicationAccess_iff_access⟩
  case contents =>
    rintro roleId body rfl
    refine ⟨fun userId applicationId => Bool.eq_iff_iff.mpr ?_,
      fun userId role hrole hholds text => ?_⟩
    · rw [hasApplicationAccess_iff_access, hasApplicationAccess_iff_access, hstep]
      exact Grants.access_setCarried
    · rw [mem_effectivePermissions_iff, hstep]
      exact contents_of_step hedit hrole hholds text

theorem integrity_standInConsole : Integrity Db.standInConsole.toDirectory := by
  have hevaluated :
      (∀ a ∈ Db.standInConsole.applications.rows,
        (Db.standInConsole.tenants.get a.tenantId).isSome) ∧
      (∀ g ∈ Db.standInConsole.groups.rows, (Db.standInConsole.tenants.get g.tenantId).isSome) ∧
      (∀ r ∈ Db.standInConsole.roles.rows, (Db.standInConsole.tenants.get r.tenantId).isSome) ∧
      (∀ p ∈ Db.standInConsole.permissions.rows,
        (Db.standInConsole.applications.get p.applicationId).isSome) ∧
      (∀ m ∈ Db.standInConsole.groupMemberships.rows,
        (Db.standInConsole.groups.get m.groupId).isSome) ∧
      (∀ gr ∈ Db.standInConsole.groupRoles.rows,
        (Db.standInConsole.groups.get gr.groupId).isSome ∧
          (Db.standInConsole.roles.get gr.roleId).isSome) ∧
      ∀ rp ∈ Db.standInConsole.rolePermissions.rows,
        (Db.standInConsole.roles.get rp.roleId).isSome := by
    decide +kernel
  obtain ⟨happlications, hgroups, hroles, hpermissions, hmemberships, hgroupRoles,
    hrolePermissions⟩ := hevaluated
  exact ⟨happlications, hgroups, hroles, hpermissions, hmemberships, hgroupRoles, hrolePermissions⟩

/-- An operator takes Ana off the staff. -/
def anaLeaves : Served :=
  ⟨.standInConsole, .admin ⟨"usr_op", "acme", "acme", ∅, false⟩ (.removeMember "staff" "usr_ana"),
    .numbered 1⟩

theorem edit_reach_leaves :
    EditReach (.numbered 1) ⟨"usr_op", "acme", "acme", ∅, false⟩ (.removeMember "staff" "usr_ana")
      Db.standInConsole.toDirectory (anaLeaves.after .standIn).toDirectory ∧
    hasApplicationAccess Db.standInConsole.toDirectory "usr_ana" "portal" = true ∧
    hasApplicationAccess (anaLeaves.after .standIn).toDirectory "usr_ana" "portal" = false := by
  have hevaluated : (anaLeaves.answer .standIn).isOk = true ∧
      hasApplicationAccess Db.standInConsole.toDirectory "usr_ana" "portal" = true ∧
      hasApplicationAccess (anaLeaves.after .standIn).toDirectory "usr_ana" "portal" = false := by
    decide +kernel
  obtain ⟨hok, hbefore, hafter⟩ := hevaluated
  obtain ⟨a, hanswer⟩ := Served.answer_of_isOk _ hok
  exact ⟨edit_reach (s := anaLeaves) integrity_standInConsole wellOwned_standInConsole rfl rfl
    hanswer, hbefore, hafter⟩

end RbaIdp
