import RbaIdp.Effects.Serve

/-!
# What an admin call changes, exactly

`Scoped` bounds what an admin call may write.  Here are the statements
themselves: `AdminEdit` has one case for every call on users, groups, roles and
permissions, with what the call has checked in the state it found and the
statements it executes there, in order.  The state it leaves is that state with
the statements applied.
-/

namespace RbaIdp

open Relational Program

/-- A directory after some statements. -/
def applied (ws : List DirectoryWrite) (db : Directory) : Directory :=
  ws.foldl (fun db w => w.effect db) db

@[simp] theorem applied_nil (db : Directory) : applied [] db = db := rfl

@[simp] theorem applied_cons (w : DirectoryWrite) (ws : List DirectoryWrite) (db : Directory) :
    applied (w :: ws) db = applied ws (w.effect db) := rfl

theorem applied_append (ws ws' : List DirectoryWrite) (db : Directory) :
    applied (ws ++ ws') db = applied ws' (applied ws db) :=
  List.foldl_append

/-- What no statement of a list touches, the list leaves alone. -/
theorem applied_frame {β : Type} {view : Directory → β} {ws : List DirectoryWrite}
    (h : ∀ w ∈ ws, ∀ db : Directory, view (w.effect db) = view db) (db : Directory) :
    view (applied ws db) = view db := by
  induction ws generalizing db with
  | nil => rfl
  | cons w ws ih =>
      rw [applied_cons, ih fun v hv => h v (List.mem_cons_of_mem _ hv)]
      exact h w (List.mem_cons_self ..) db

/-! ## The statements of a call -/

/-- The group a tenant's administrators are in, when it is there. -/
def adminGroup (db : Directory) (tenantId : String) : Option Group :=
  (db.tenants.get tenantId).bind fun tenant =>
    (nonEmpty tenant.adminGroupId).bind db.groups.get

theorem mem_groupMemberships_iff {db : Directory} {groupId userId : String} :
    (⟨groupId, userId⟩ : GroupMembership) ∈ db.groupMemberships ↔
      db.groupMemberships.get (groupId, userId) ≠ none := by
  constructor
  · intro hmem hnone
    have hget : db.groupMemberships.get (groupId, userId) = some ⟨groupId, userId⟩ :=
      Table.get_of_mem hmem
    rw [hnone] at hget
    cases hget
  · intro hsome
    obtain ⟨m, hm⟩ := Option.ne_none_iff_exists'.mp hsome
    have hkey : m.key = (groupId, userId) := Table.key_of_get hm
    obtain ⟨rfl, rfl⟩ := Prod.mk.inj hkey
    exact Table.mem_of_get hm

/-- What `_sync_admin_flag` executes. -/
def syncWrites (db : Directory) (tenantId userId : String) (isAdmin : Bool) :
    List DirectoryWrite :=
  match adminGroup db tenantId with
  | none => []
  | some group =>
      if isAdmin then
        if db.groupMemberships.get (group.groupId, userId) = none
        then [.insertGroupMembership ⟨group.groupId, userId⟩] else []
      else
        if db.groupMemberships.get (group.groupId, userId) = none
        then [] else [.deleteGroupMembership group.groupId userId]

section Rows

variable (env : Env) (d : Draws) (op : Operator)

/-- The row `create_user` adds. -/
def userRow (body : CreateUserRequest) : User where
  userId := "usr_" ++ d.hex12
  tenantId := op.tenantId
  email := env.lib.lower (strip body.email)
  passwordHash := d.hashPassword body.password
  enabled := true
  isAdmin := body.isAdmin
  alwaysPasskey := none
  createdAt := d.now
  lastLoginAt := none

/-- The row `create_group` adds. -/
def groupRow (body : CreateGroupRequest) : Group where
  groupId := (nonEmpty body.groupId).getD ("grp_" ++ d.hex12)
  tenantId := op.tenantId
  name := body.name
  description := body.description
  createdAt := d.now

/-- The row `create_role` adds. -/
def roleRow (body : CreateRoleRequest) : Role where
  roleId := (nonEmpty body.roleId).getD ("role_" ++ d.hex12)
  tenantId := op.tenantId
  applicationId := body.applicationId
  name := body.name
  description := body.description
  createdAt := d.now

/-- The row `create_permission` adds. -/
def permissionRow (body : CreatePermissionRequest) : Permission where
  permissionId := permissionId body.applicationId (body.resource, body.operation)
  applicationId := body.applicationId
  resource := body.resource
  operation := body.operation
  description := body.description

/-- The statements of `patch_user`. -/
def patchUserWrites (db : Directory) (userId : String) (body : PatchUserRequest) :
    List DirectoryWrite :=
  body.enabled.toList.map (.setUserEnabled userId) ++
    (body.isAdmin.toList.flatMap fun isAdmin =>
      .setUserIsAdmin userId isAdmin :: syncWrites db op.tenantId userId isAdmin) ++
    (body.password.toList.map fun password =>
      .setUserPasswordHash userId (d.hashPassword password)) ++
    body.alwaysPasskey.toList.map (.setUserAlwaysPasskey userId)

/-- The permissions a role is to have, in the order they are written. -/
def wantedPermissions (body : SetRolePermissionsRequest) : List String :=
  sortOn (fun pid => [pid]) body.permissionIds.dedup

/-- What a call on users, groups, roles or permissions has checked, and the
statements it executes. -/
inductive AdminEdit (db : Directory) : AdminCall → List DirectoryWrite → Prop
  | createUser {body : CreateUserRequest} (htenant : (db.tenants.get op.tenantId).isSome)
      (hfree : db.users.get (userRow env d op body).userId = none) :
      AdminEdit db (.createUser body) (.insertUser (userRow env d op body) ::
        syncWrites db op.tenantId (userRow env d op body).userId body.isAdmin)
  | patchUser {userId : String} {body : PatchUserRequest}
      (huser : db.userTenant userId = some op.tenantId) :
      AdminEdit db (.patchUser userId body) (patchUserWrites d op db userId body)
  | createGroup {body : CreateGroupRequest}
      (hfree : db.groups.get (groupRow d op body).groupId = none) :
      AdminEdit db (.createGroup body) [.insertGroup (groupRow d op body)]
  | patchGroup {groupId : String} {body : PatchGroupRequest} :
      AdminEdit db (.patchGroup groupId body)
        (body.name.toList.map (.setGroupName groupId) ++
          body.description.toList.map (.setGroupDescription groupId))
  | deleteGroup {groupId : String} {tenant : Tenant}
      (hgroup : db.groupTenant groupId = some op.tenantId)
      (htenant : db.tenants.get op.tenantId = some tenant)
      (hother : some groupId ≠ tenant.adminGroupId) :
      AdminEdit db (.deleteGroup groupId)
        [.deleteMembershipsOfGroup groupId, .deleteRolesOfGroup groupId, .deleteGroup groupId]
  | addMember {groupId : String} {body : AddGroupMemberRequest}
      (hgroup : db.groupTenant groupId = some op.tenantId)
      (huser : db.userTenant body.userId = some op.tenantId) :
      AdminEdit db (.addMember groupId body) [.insertGroupMembership ⟨groupId, body.userId⟩]
  | removeMember {groupId userId : String}
      (hgroup : db.groupTenant groupId = some op.tenantId)
      (hmember : db.groupMemberships.get (groupId, userId) ≠ none) :
      AdminEdit db (.removeMember groupId userId) [.deleteGroupMembership groupId userId]
  | addGroupRole {groupId : String} {body : AddGroupRoleRequest} {applicationId : String}
      (hrole : db.roleOwners body.roleId = some (op.tenantId, applicationId)) :
      AdminEdit db (.addGroupRole groupId body) [.insertGroupRole ⟨groupId, body.roleId⟩]
  | removeGroupRole {groupId roleId : String}
      (hassigned : db.groupRoles.get (groupId, roleId) ≠ none) :
      AdminEdit db (.removeGroupRole groupId roleId) [.deleteGroupRole groupId roleId]
  | createRole {body : CreateRoleRequest}
      (hfree : db.roles.get (roleRow d op body).roleId = none) :
      AdminEdit db (.createRole body) [.insertRole (roleRow d op body)]
  | patchRole {roleId : String} {body : PatchRoleRequest} :
      AdminEdit db (.patchRole roleId body)
        (body.name.toList.map (.setRoleName roleId) ++
          body.description.toList.map (.setRoleDescription roleId))
  | deleteRole {roleId : String} :
      AdminEdit db (.deleteRole roleId)
        [.deletePermissionsOfRole roleId, .deleteGroupsOfRole roleId, .deleteRole roleId]
  | setRolePermissions {roleId : String} {body : SetRolePermissionsRequest} {role : Role}
      (hrole : db.roles.get roleId = some role)
      (hsame : ∀ pid ∈ body.permissionIds,
        db.permissionApplication pid = some role.applicationId) :
      AdminEdit db (.setRolePermissions roleId body)
        (.deletePermissionsOfRole roleId :: (wantedPermissions body).map fun pid =>
          .insertRolePermission ⟨roleId, pid⟩)
  | createPermission {body : CreatePermissionRequest}
      (hfree : db.permissions.get (permissionRow body).permissionId = none) :
      AdminEdit db (.createPermission body) [.insertPermission (permissionRow body)]

/-- The calls `AdminEdit` describes. -/
def AdminCall.administers : AdminCall → Bool
  | .createUser _ | .patchUser _ _ | .createGroup _ | .patchGroup _ _ | .deleteGroup _
  | .addMember _ _ | .removeMember _ _ | .addGroupRole _ _ | .removeGroupRole _ _ | .createRole _
  | .patchRole _ _ | .deleteRole _ | .setRolePermissions _ _ | .createPermission _ => true
  | _ => false

end Rows

/-! ## The calls -/

variable {env : Env} {d : Draws} {op : Operator} {call : AdminCall} {t t' t'' : World}

/-- From one world to the other these statements were executed. -/
structure Wrote (t : World) (ws : List DirectoryWrite) (t' : World) : Prop where
  writes : t'.writes = t.writes ++ ws.map Write.directory
  directory : t'.db.toDirectory = applied ws t.db.toDirectory

theorem Wrote.refl (t : World) : Wrote t [] t := ⟨by simp, rfl⟩

theorem Wrote.exec {ws : List DirectoryWrite} {w : DirectoryWrite} (h : Wrote t ws t') :
    Wrote t (ws ++ [w]) (t'.exec (.directory w)) where
  writes := by rw [Trace.exec_writes, h.writes, List.map_append, List.append_assoc]; rfl
  directory := by rw [Trace.exec_db, effect_directory, h.directory, applied_append]; rfl

/-- What an edit is about in the world it leaves. -/
def Edited (env : Env) (d : Draws) (op : Operator) (call : AdminCall) (t t' : World) : Prop :=
  ∃ ws, AdminEdit env d op t.db.toDirectory call ws ∧ Wrote t ws t'

section Rules

theorem wp_edited {α : Type} {m : App α}
    (h : m.wp (fun _ => Edited env d op call t) (fun _ => True) t) :
    (transaction m).wp (fun _ => Edited env d op call t) (fun _ => True) t := by
  rw [wp_transaction]
  exact h

/-- One more statement. -/
theorem wp_wrote {ws : List DirectoryWrite} {w : DirectoryWrite} (h : Wrote t ws t') :
    (onDirectory w).wp (fun _ => Wrote t (ws ++ [w])) (fun _ => True) t' :=
  wp_onDirectory fun _ => h.exec

/-- One more statement, when the request asks for it. -/
theorem wp_wrote_ifSome {α : Type} {o : Option α} {w : α → DirectoryWrite}
    {ws : List DirectoryWrite} (h : Wrote t ws t') :
    (ifSome o fun a => onDirectory (w a)).wp (fun _ => Wrote t (ws ++ o.toList.map w))
      (fun _ => True) t' := by
  rw [wp_ifSome]
  refine ⟨?_, ?_⟩
  · rintro rfl
    simpa using h
  · rintro a rfl
    exact wp_wrote h

/-- One statement for every element of a list. -/
theorem wp_wrote_forEach {α : Type} {xs : List α} {w : α → DirectoryWrite}
    {ws : List DirectoryWrite} (h : Wrote t ws t') :
    (forEach xs fun a => onDirectory (w a)).wp (fun _ => Wrote t (ws ++ xs.map w))
      (fun _ => True) t' := by
  induction xs generalizing ws t' with
  | nil => simpa [forEach] using h
  | cons a rest ih =>
      simp only [forEach]
      refine wp_seq (wp_wrote h) fun _ t'' h' => ?_
      simpa using ih h'

end Rules

theorem wp_wrote_sync {tenant : Tenant} {userId : String} {isAdmin : Bool}
    {ws : List DirectoryWrite} (htenant : t.db.tenants.get op.tenantId = some tenant)
    (hgroups : t'.db.groups = t.db.groups)
    (hmemberships : t'.db.groupMemberships = t.db.groupMemberships) (h : Wrote t ws t') :
    (syncAdminFlag tenant userId isAdmin).wp
      (fun _ => Wrote t (ws ++ syncWrites t.db.toDirectory op.tenantId userId isAdmin))
      (fun _ => True) t' := by
  have hadmin : adminGroup t.db.toDirectory op.tenantId =
      (nonEmpty tenant.adminGroupId).bind t'.db.groups.get := by
    rw [adminGroup, htenant, hgroups, Option.bind_some]
  simp only [syncAdminFlag, wp_bind, wp_read, wp_ifSome, ← hadmin, syncWrites, hmemberships]
  refine ⟨fun hnone => by simpa [hnone] using h, fun group hgroup => ?_⟩
  rw [hgroup]
  cases isAdmin with
  | true =>
      simp only [wp_when, true_and, if_true, Bool.true_eq_false, false_and]
      refine ⟨fun hfree => ?_, fun htaken => ?_⟩
      · refine wp_mono (wp_wrote h) (fun _ t'' h' => ?_) fun _ h => h
        simpa [hfree] using h'
      · simpa [htaken] using h
  | false =>
      simp only [wp_when, true_and, Bool.false_eq_true, false_and, if_false]
      refine ⟨False.elim, fun _ => ⟨fun htaken => ?_, fun hfree => ?_⟩⟩
      · refine wp_mono (wp_wrote h) (fun _ t'' h' => ?_) fun _ h => h
        simpa [if_neg htaken] using h'
      · simpa [not_not.mp hfree] using h

theorem edited_createUser {body : CreateUserRequest} :
    (createUser env d op body).wp (fun _ => Edited env d op (.createUser body) t)
      (fun _ => True) t := by
  refine wp_edited (wp_seq (I := fun tenant t' => t' = t ∧
    t.db.tenants.get op.tenantId = some tenant)
    (wp_requireTenant (fun row h => ⟨rfl, h⟩) trivial) ?_)
  rintro tenant t ⟨rfl, htenant⟩
  simp only [wp_bind, wp_read, wp_raiseIf, wp_onIntegrity]
  refine ⟨fun _ => trivial, fun _ => wp_onDirectory fun haccepted => ?_⟩
  refine wp_mono (wp_wrote_sync htenant rfl rfl (Wrote.refl t).exec)
    (fun _ t' h => wp_refreshUser ?_) fun _ h => h
  simp only [violates_directory, DirectoryWrite.violates, Bool.or_eq_false_iff] at haccepted
  have hfree := Option.isSome_eq_false_iff.mp haccepted.1.1
  simp only [Option.isNone_iff_eq_none] at hfree
  exact ⟨_, .createUser (by simp [htenant]) hfree, h⟩

theorem edited_patchUser {userId : String} {body : PatchUserRequest} :
    (patchUser d op userId body).wp (fun _ => Edited env d op (.patchUser userId body) t)
      (fun _ => True) t := by
  refine wp_edited (wp_seq (I := fun _ t' => t' = t ∧ t.db.userTenant userId = some op.tenantId)
    (wp_requireUser (fun _ h => ⟨rfl, h⟩) trivial) ?_)
  rintro _ t ⟨rfl, huser⟩
  refine wp_seq (wp_wrote_ifSome (Wrote.refl t)) fun _ t₁ h₁ => ?_
  -- the user's row is all the update touches, so the flag's group is the one found
  have hframe : ∀ {β : Type} (view : Directory → β), (∀ (users : Table User User.userId) db,
      view { db with users } = view db) → view t₁.db.toDirectory = view t.db.toDirectory := by
    intro β view hview
    rw [h₁.directory]
    refine applied_frame (fun w hw db => ?_) _
    obtain ⟨enabled, -, rfl⟩ := List.mem_map.mp hw
    exact hview _ _
  refine wp_seq (I := fun _ => Wrote t (body.enabled.toList.map (.setUserEnabled userId) ++
      body.isAdmin.toList.flatMap fun isAdmin => .setUserIsAdmin userId isAdmin ::
        syncWrites t.db.toDirectory op.tenantId userId isAdmin)) ?_ fun _ t₂ h₂ => ?_
  · rw [wp_ifSome]
    refine ⟨fun hnone => by simpa [hnone] using h₁, fun isAdmin hisAdmin => ?_⟩
    refine wp_seq (I := fun _ t' => Wrote t (body.enabled.toList.map (.setUserEnabled userId) ++
        [.setUserIsAdmin userId isAdmin]) t' ∧ t'.db.tenants = t.db.tenants ∧
        t'.db.groups = t.db.groups ∧ t'.db.groupMemberships = t.db.groupMemberships)
      (wp_onDirectory fun _ => ⟨by simpa using h₁.exec, hframe Directory.tenants fun _ _ => rfl,
        hframe Directory.groups fun _ _ => rfl,
        hframe Directory.groupMemberships fun _ _ => rfl⟩) ?_
    rintro _ t' ⟨h', htenants, hgroups, hmemberships⟩
    rw [wp_bind]
    refine wp_requireTenant (fun tenant htenant => ?_) trivial
    rw [htenants] at htenant
    refine wp_mono (wp_wrote_sync htenant hgroups hmemberships h') (fun _ t'' h'' => ?_)
      fun _ h => h
    simpa [hisAdmin] using h''
  refine wp_seq (wp_wrote_ifSome h₂) fun _ t₃ h₃ => ?_
  refine wp_seq (wp_wrote_ifSome h₃) fun _ t₄ h₄ => ?_
  exact wp_refreshUser ⟨_, .patchUser huser, h₄⟩

theorem edited_createGroup {body : CreateGroupRequest} :
    (createGroup d op body).wp (fun _ => Edited env d op (.createGroup body) t)
      (fun _ => True) t := by
  refine wp_edited ?_
  simp only [wp_bind, wp_read, wp_raiseIf, wp_onIntegrity]
  refine ⟨fun _ => trivial, fun hfree => ⟨fun _ => trivial, fun _ => wp_onDirectory fun _ => ?_⟩⟩
  exact wp_refreshGroup ⟨_, .createGroup (not_not.mp hfree), (Wrote.refl t).exec⟩

theorem edited_patchGroup {groupId : String} {body : PatchGroupRequest} :
    (patchGroup op groupId body).wp (fun _ => Edited env d op (.patchGroup groupId body) t)
      (fun _ => True) t := by
  refine wp_edited (wp_seq (I := fun _ t' => t' = t) (wp_requireGroup (fun _ _ => rfl) trivial) ?_)
  rintro _ t rfl
  refine wp_seq (I := fun _ t' => t' = t) ?_ ?_
  · simp [wp_ifSome]
  rintro _ t rfl
  refine wp_seq (I := fun _ => Wrote t (body.name.toList.map (.setGroupName groupId) ++
    body.description.toList.map (.setGroupDescription groupId))) ?_
    fun _ t' h => wp_refreshGroup ⟨_, .patchGroup, h⟩
  rw [wp_onIntegrity]
  refine wp_seq (wp_wrote_ifSome (Wrote.refl t)) fun _ t₁ h₁ => ?_
  simpa using wp_wrote_ifSome h₁

theorem edited_deleteGroup {groupId : String} :
    (deleteGroup op groupId).wp (fun _ => Edited env d op (.deleteGroup groupId) t)
      (fun _ => True) t := by
  refine wp_edited (wp_seq (I := fun _ t' => t' = t ∧ t.db.groupTenant groupId = some op.tenantId)
    (wp_requireGroup (fun _ h => ⟨rfl, h⟩) trivial) ?_)
  rintro _ t ⟨rfl, hgroup⟩
  refine wp_seq (I := fun tenant t' => t' = t ∧ t.db.tenants.get op.tenantId = some tenant)
    (wp_requireTenant (fun _ h => ⟨rfl, h⟩) trivial) ?_
  rintro tenant t ⟨rfl, htenant⟩
  simp only [wp_bind, wp_raiseIf]
  refine ⟨fun _ => trivial, fun hother => wp_onDirectory fun _ => wp_onDirectory fun _ =>
    wp_onDirectory fun _ => ?_⟩
  exact ⟨_, .deleteGroup hgroup htenant hother, (Wrote.refl t).exec.exec.exec⟩

theorem edited_addMember {groupId : String} {body : AddGroupMemberRequest} :
    (addMember op groupId body).wp (fun _ => Edited env d op (.addMember groupId body) t)
      (fun _ => True) t := by
  refine wp_edited (wp_seq (I := fun _ t' => t' = t ∧ t.db.groupTenant groupId = some op.tenantId)
    (wp_requireGroup (fun _ h => ⟨rfl, h⟩) trivial) ?_)
  rintro _ t ⟨rfl, hgroup⟩
  refine wp_seq (I := fun _ t' => t' = t ∧ t.db.userTenant body.userId = some op.tenantId)
    (wp_requireUser (fun _ h => ⟨rfl, h⟩) trivial) ?_
  rintro _ t ⟨rfl, huser⟩
  simp only [wp_bind, wp_read, wp_raiseIf]
  refine ⟨fun _ => trivial, fun _ => wp_onDirectory fun _ => wp_refreshGroup ?_⟩
  exact ⟨_, .addMember hgroup huser, (Wrote.refl t).exec⟩

theorem edited_removeMember {groupId userId : String} :
    (removeMember op groupId userId).wp
      (fun _ => Edited env d op (.removeMember groupId userId) t) (fun _ => True) t := by
  refine wp_edited (wp_seq (I := fun _ t' => t' = t ∧ t.db.groupTenant groupId = some op.tenantId)
    (wp_requireGroup (fun _ h => ⟨rfl, h⟩) trivial) ?_)
  rintro _ t ⟨rfl, hgroup⟩
  simp only [wp_bind, wp_read, wp_raiseIf]
  refine ⟨fun _ => trivial, fun hmember => wp_onDirectory fun _ => wp_refreshGroup ?_⟩
  exact ⟨_, .removeMember hgroup hmember, (Wrote.refl t).exec⟩

theorem edited_addGroupRole {groupId : String} {body : AddGroupRoleRequest} :
    (addGroupRole op groupId body).wp (fun _ => Edited env d op (.addGroupRole groupId body) t)
      (fun _ => True) t := by
  refine wp_edited (wp_seq (I := fun _ t' => t' = t) (wp_requireGroup (fun _ _ => rfl) trivial) ?_)
  rintro _ t rfl
  refine wp_seq (I := fun role t' => t' = t ∧
      t.db.roleOwners body.roleId = some (op.tenantId, role.applicationId))
    (wp_requireRole (fun _ _ h => ⟨rfl, h⟩) trivial) ?_
  rintro role t ⟨rfl, hrole⟩
  simp only [wp_bind, wp_read, wp_raiseIf]
  refine ⟨fun _ => trivial, fun _ => wp_onDirectory fun _ => wp_refreshGroup ?_⟩
  exact ⟨_, .addGroupRole hrole, (Wrote.refl t).exec⟩

theorem edited_removeGroupRole {groupId roleId : String} :
    (removeGroupRole op groupId roleId).wp
      (fun _ => Edited env d op (.removeGroupRole groupId roleId) t) (fun _ => True) t := by
  refine wp_edited (wp_seq (I := fun _ t' => t' = t) (wp_requireGroup (fun _ _ => rfl) trivial) ?_)
  rintro _ t rfl
  simp only [wp_bind, wp_read, wp_raiseIf]
  refine ⟨fun _ => trivial, fun hassigned => wp_onDirectory fun _ => wp_refreshGroup ?_⟩
  exact ⟨_, .removeGroupRole hassigned, (Wrote.refl t).exec⟩

theorem edited_createRole {body : CreateRoleRequest} :
    (createRole d op body).wp (fun _ => Edited env d op (.createRole body) t)
      (fun _ => True) t := by
  refine wp_edited (wp_seq (I := fun _ t' => t' = t)
    (wp_requireApplication (fun _ _ => rfl) trivial) ?_)
  rintro _ t rfl
  simp only [wp_bind, wp_read, wp_raiseIf, wp_onIntegrity]
  refine ⟨fun _ => trivial, fun hfree => ⟨fun _ => trivial, fun _ => wp_onDirectory fun _ => ?_⟩⟩
  exact wp_refreshRole ⟨_, .createRole (not_not.mp hfree), (Wrote.refl t).exec⟩

theorem edited_patchRole {roleId : String} {body : PatchRoleRequest} :
    (patchRole op roleId body).wp (fun _ => Edited env d op (.patchRole roleId body) t)
      (fun _ => True) t := by
  refine wp_edited (wp_seq (I := fun _ t' => t' = t) (wp_requireRole (fun _ _ _ => rfl) trivial) ?_)
  rintro row t rfl
  refine wp_seq (I := fun _ => Wrote t (body.name.toList.map (.setRoleName roleId))) ?_
    fun _ t₁ h₁ => ?_
  · simp only [wp_ifSome, wp_bind, wp_read, wp_raiseIf]
    refine ⟨fun hnone => by simpa [hnone] using Wrote.refl t, fun name hname =>
      ⟨fun _ => trivial, fun _ => ?_⟩⟩
    rw [hname]
    exact wp_wrote (Wrote.refl t)
  · refine wp_seq (wp_wrote_ifSome h₁) fun _ t₂ h₂ => ?_
    exact wp_refreshRole ⟨_, .patchRole, h₂⟩

theorem edited_deleteRole {roleId : String} :
    (deleteRole op roleId).wp (fun _ => Edited env d op (.deleteRole roleId) t)
      (fun _ => True) t := by
  refine wp_edited (wp_seq (I := fun _ t' => t' = t) (wp_requireRole (fun _ _ _ => rfl) trivial) ?_)
  rintro _ t rfl
  simp only [wp_bind]
  refine wp_onDirectory fun _ => wp_onDirectory fun _ => wp_onDirectory fun _ => ?_
  exact ⟨_, .deleteRole, (Wrote.refl t).exec.exec.exec⟩

theorem mem_wantedPermissions {body : SetRolePermissionsRequest} {pid : String} :
    pid ∈ wantedPermissions body ↔ pid ∈ body.permissionIds := by
  rw [wantedPermissions, sortOn, List.mem_insertionSort, List.mem_dedup]

theorem edited_setRolePermissions {roleId : String} {body : SetRolePermissionsRequest} :
    (setRolePermissions op roleId body).wp
      (fun _ => Edited env d op (.setRolePermissions roleId body) t) (fun _ => True) t := by
  refine wp_edited (wp_seq (I := fun role t' => t' = t ∧ t.db.roles.get roleId = some role)
    (wp_requireRole (fun _ h _ => ⟨rfl, h⟩) trivial) ?_)
  rintro role t ⟨rfl, hrole⟩
  simp only [wp_bind, wp_read, wp_raiseIf]
  refine ⟨fun _ => trivial, fun hknown => ⟨fun _ => trivial, fun hsame =>
    wp_onDirectory fun _ => ?_⟩⟩
  simp only [ne_eq, not_not, List.filter_eq_nil_iff, Bool.not_eq_true] at hknown hsame
  refine wp_mono (wp_wrote_forEach (Wrote.refl t).exec)
    (fun _ t' h => wp_refreshRole ⟨_, .setRolePermissions hrole fun pid hpid => ?_, h⟩) fun _ h => h
  -- the permission is known, and of the role's application
  have hpid : pid ∈ wantedPermissions body := mem_wantedPermissions.mpr hpid
  obtain ⟨permission, hown⟩ := Option.isSome_iff_exists.mp
    (Option.isNone_eq_false_iff.mp (hknown pid hpid))
  have happ := hsame pid hpid
  rw [hown, Option.any_some, bne_eq_false_iff_eq] at happ
  rw [Directory.permissionApplication, (Option.filter_eq_some_iff.mp hown).1, Option.map_some, happ]

theorem edited_createPermission {body : CreatePermissionRequest} :
    (createPermission op body).wp (fun _ => Edited env d op (.createPermission body) t)
      (fun _ => True) t := by
  refine wp_edited (wp_seq (I := fun _ t' => t' = t)
    (wp_requireApplication (fun _ _ => rfl) trivial) ?_)
  rintro _ t rfl
  simp only [wp_bind, wp_read, wp_raiseIf, wp_onIntegrity]
  refine ⟨fun _ => trivial, fun hfree => wp_onDirectory fun _ => ?_⟩
  exact ⟨_, .createPermission (not_not.mp hfree), (Wrote.refl t).exec⟩

theorem edited_serveAdmin (hcall : call.administers = true) :
    (serveAdmin env d op call).wp (fun _ => Edited env d op call t) (fun _ => True) t := by
  cases call with
  | createUser body => exact wp_answer edited_createUser
  | patchUser userId body => exact wp_answer edited_patchUser
  | createGroup body => exact wp_answer edited_createGroup
  | patchGroup groupId body => exact wp_answer edited_patchGroup
  | deleteGroup groupId => exact wp_answer edited_deleteGroup
  | addMember groupId body => exact wp_answer edited_addMember
  | removeMember groupId userId => exact wp_answer edited_removeMember
  | addGroupRole groupId body => exact wp_answer edited_addGroupRole
  | removeGroupRole groupId roleId => exact wp_answer edited_removeGroupRole
  | createRole body => exact wp_answer edited_createRole
  | patchRole roleId body => exact wp_answer edited_patchRole
  | deleteRole roleId => exact wp_answer edited_deleteRole
  | setRolePermissions roleId body => exact wp_answer edited_setRolePermissions
  | createPermission body => exact wp_answer edited_createPermission
  | _ => cases hcall

/-- **The inversion lemma.**  An answered call executed the statements of its
edit. -/
theorem Served.edited {s : Served} {a : Answer} (hrequest : s.request = .admin op call)
    (hcall : call.administers = true) (hanswer : s.answer env = .ok a) :
    ∃ ws, AdminEdit env s.draws op s.before.toDirectory call ws ∧
      (s.after env).toDirectory = applied ws s.before.toDirectory := by
  obtain ⟨before, request, draws⟩ := s
  obtain rfl : request = .admin op call := hrequest
  have hedited : (serveAdmin env draws op call).wp
      (fun _ => Edited env draws op call ⟨before, [], []⟩) (fun _ => True) ⟨before, [], []⟩ :=
    edited_serveAdmin hcall
  obtain ⟨ws, hedit, hwrote⟩ := wp_of_ok hedited (Prod.ext hanswer rfl)
  exact ⟨ws, hedit, hwrote.directory⟩

end RbaIdp
