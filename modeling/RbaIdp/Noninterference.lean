import RbaIdp.Blindness

/-!
# Operators learn nothing of other tenants

Two states with the same rows of a tenant, and nothing else in common, cannot be
told apart by an operator of that tenant: the nineteen calls on objects that are
there answer alike in both, leave states that have the same rows of the tenant
again, and leave every other tenant's rows as they were.
-/

namespace RbaIdp

open Relational Program

variable {tenantId : String} {db db' : Db} {dir : Directory} {w : DirectoryWrite} {env : Env}
  {d : Draws} {op : Operator} {start : Db × Db} {K J : Directory → Prop}

/-! ## Calls that read -/

theorem coupled_currentTenant :
    Coupled (Unknowing op.tenantId start) (currentTenant op) fun _ =>
      Unknowing op.tenantId start := by
  refine coupled_transaction (coupled_bind coupled_requireTenant fun row => coupled_show
    fun db db' h hk _ => ?_)
  exact tenantPublic_twin h (Table.key_of_get hk.2)

/-- What twins list of a table are the tenant's rows, in the same order and shown alike. -/
theorem listed_twin {ρ κ α : Type} {key : ρ → κ} {own : ρ → Prop} {table table' : Table ρ key}
    {p : ρ → Bool} {rank : ρ → List String} {display display' : ρ → α}
    (hagree : Table.AgreeOn own own table table') (hown : ∀ {row}, p row = true → own row)
    (hrank : ∀ a ∈ table, ∀ b ∈ table, own a → own b → rank a = rank b → a = b)
    (hdisplay : ∀ row ∈ table, own row → display row = display' row) :
    (sortOn rank (table.select p)).map display = (sortOn rank (table'.select p)).map display' := by
  have hperm := hagree.perm_select (fun row _ hp => ⟨hown hp, hp⟩) fun row _ hp => ⟨hown hp, hp⟩
  rw [← sortOn_eq_of_perm hperm]
  · refine List.map_congr_left fun row hrow => ?_
    obtain ⟨hmem, hp⟩ := Table.mem_select.mp ((perm_sortOn _ _).subset hrow)
    exact hdisplay row hmem (hown hp)
  · intro a ha b hb hsame
    obtain ⟨hma, hpa⟩ := Table.mem_select.mp ha
    obtain ⟨hmb, hpb⟩ := Table.mem_select.mp hb
    exact hrank a hma b hmb (hown hpa) (hown hpb) hsame

theorem coupled_listUsers :
    Coupled (Unknowing op.tenantId start) (listUsers op) fun _ => Unknowing op.tenantId start := by
  refine coupled_transaction (coupled_show fun db db' h _ _ => ?_)
  refine listed_twin h.agree.users beq_iff_eq.mp (fun a ha b hb hown hown' hsame => ?_)
    fun row hrow hown => userPublicOf_twin h hrow hown
  have hemail : a.email = b.email := by simpa using hsame
  exact h.constraints.users a ha b hb (Prod.ext (hown.trans hown'.symm) hemail)

theorem coupled_listApplications :
    Coupled (Unknowing op.tenantId start) (listApplications op) fun _ =>
      Unknowing op.tenantId start := by
  refine coupled_transaction (coupled_show fun db db' h _ _ => ?_)
  refine listed_twin h.agree.applications beq_iff_eq.mp (fun a ha b hb _ _ hsame => ?_)
    fun _ _ _ => rfl
  exact Table.eq_of_key_eq ha hb (by simpa using hsame)

theorem coupled_listGroups :
    Coupled (Unknowing op.tenantId start) (listGroups op) fun _ => Unknowing op.tenantId start := by
  refine coupled_transaction (coupled_show fun db db' h _ _ => ?_)
  refine listed_twin h.agree.groups beq_iff_eq.mp (fun a ha b hb hown hown' hsame => ?_)
    fun row hrow hown => groupPublic_twin h hrow hown
  have hname : a.name = b.name := by simpa using hsame
  exact h.constraints.groups a ha b hb (Prod.ext (hown.trans hown'.symm) hname)

theorem coupled_getGroup {groupId : String} :
    Coupled (Unknowing op.tenantId start) (getGroup op groupId) fun _ =>
      Unknowing op.tenantId start :=
  coupled_transaction coupled_refreshGroup

theorem coupled_listRoles {applicationId : Option String} :
    Coupled (Unknowing op.tenantId start) (listRoles op applicationId) fun _ =>
      Unknowing op.tenantId start := by
  refine coupled_transaction (coupled_show fun db db' h _ _ => ?_)
  refine listed_twin h.agree.roles (fun hp => beq_iff_eq.mp (Bool.and_eq_true_iff.mp hp).1)
    (fun a ha b hb _ _ hsame => ?_) fun row hrow hown => rolePublic_twin h hrow hown
  obtain ⟨happ, hname⟩ : a.applicationId = b.applicationId ∧ a.name = b.name := by
    simpa using hsame
  exact h.constraints.roles a ha b hb (Prod.ext happ hname)

theorem coupled_getRole {roleId : String} :
    Coupled (Unknowing op.tenantId start) (getRole op roleId) fun _ =>
      Unknowing op.tenantId start :=
  coupled_transaction coupled_refreshRole

theorem coupled_listPermissions {applicationId : Option String} :
    Coupled (Unknowing op.tenantId start) (listPermissions op applicationId) fun _ =>
      Unknowing op.tenantId start := by
  refine coupled_transaction (coupled_show fun db db' h _ _ => ?_)
  have hselect : ∀ {one two : Db}, Twin op.tenantId one two → ∀ row ∈ one.permissions,
      (((one.applications.get row.applicationId).filter fun a =>
          a.tenantId == op.tenantId).isSome &&
        applicationId.all fun a => row.applicationId == a) = true →
      one.applicationTenant row.applicationId = some op.tenantId ∧
        (((two.applications.get row.applicationId).filter fun a =>
          a.tenantId == op.tenantId).isSome &&
          applicationId.all fun a => row.applicationId == a) = true := by
    intro one two htwin row _ hp
    rw [Bool.and_eq_true, isSome_filter_iff] at hp
    obtain ⟨app, happ, htenant⟩ := Option.map_eq_some_iff.mp hp.1
    refine ⟨hp.1, ?_⟩
    rw [Bool.and_eq_true, isSome_filter_iff, Directory.applicationTenant,
      htwin.agree.applications.get_some happ htenant, Option.map_some, htenant]
    exact ⟨rfl, hp.2⟩
  have hperm := h.agree.permissions.perm_select (hselect h) (hselect h.symm)
  rw [← sortOn_eq_of_perm hperm]
  intro a ha b hb hkey
  obtain ⟨happ, hresource, hoperation⟩ : a.applicationId = b.applicationId ∧
      a.resource = b.resource ∧ a.operation = b.operation := by simpa using hkey
  exact h.constraints.permissions a (Table.mem_select.mp ha).1 b (Table.mem_select.mp hb).1
    (Prod.ext happ (Prod.ext hresource hoperation))

/-! ## Calls that write

Statements on the tenant's rows keep what a call has found out of their owners.
-/

theorem userTenant_kept {userId : String} (hw : Mine tenantId dir w)
    (h : dir.userTenant userId = some tenantId) :
    (w.effect dir).userTenant userId = some tenantId := by
  rw [userTenant_mine hw]
  exact h

theorem applicationTenant_kept {applicationId : String} (hw : Mine tenantId dir w)
    (h : dir.applicationTenant applicationId = some tenantId) :
    (w.effect dir).applicationTenant applicationId = some tenantId := by
  rw [applicationTenant_mine hw]
  exact h

/-- An anchor names a group of the tenant. -/
theorem adminGroup_tenant (howned : Owned dir) {tenant : Tenant} {groupId : String}
    (htenant : dir.tenants.get tenantId = some tenant)
    (hid : nonEmpty tenant.adminGroupId = some groupId) :
    dir.groupTenant groupId = some tenantId := by
  rw [← Table.key_of_get htenant]
  exact howned.adminGroup tenant (Table.mem_of_get htenant) groupId
    (Option.filter_eq_some_iff.mp hid).1

/-- A membership of a user and a group of the tenant, as far as a call knows. -/
abbrev Joinable (tenantId groupId userId : String) (dir : Directory) : Prop :=
  dir.groupTenant groupId = some tenantId ∧ dir.userTenant userId = some tenantId

theorem groupTenant_kept {groupId : String} (hne : w ≠ .deleteGroup groupId)
    (hw : Mine tenantId dir w) (h : dir.groupTenant groupId = some tenantId) :
    (w.effect dir).groupTenant groupId = some tenantId := by
  rw [groupTenant_mine hw hne]
  exact h

theorem roleTenant_kept {roleId : String} (hne : w ≠ .deleteRole roleId)
    (hw : Mine tenantId dir w) (h : dir.roleTenant roleId = some tenantId) :
    (w.effect dir).roleTenant roleId = some tenantId := by
  rw [roleTenant_mine hw hne]
  exact h

theorem joinable_kept {groupId userId : String} (hne : w ≠ .deleteGroup groupId)
    (dir : Directory) (hw : Mine tenantId dir w) (h : Joinable tenantId groupId userId dir) :
    Joinable tenantId groupId userId (w.effect dir) :=
  ⟨groupTenant_kept hne hw h.1, userTenant_kept hw h.2⟩

theorem coupled_syncAdminFlag {tenant : Tenant} {userId : String} {isAdmin : Bool} :
    Coupled (Under op.tenantId start fun dir => dir.userTenant userId = some op.tenantId ∧
        dir.tenants.get op.tenantId = some tenant)
      (syncAdminFlag tenant userId isAdmin)
      fun _ => Under op.tenantId start fun dir => dir.userTenant userId = some op.tenantId := by
  refine coupled_bind (coupled_look
    (f := fun dir => (nonEmpty tenant.adminGroupId).bind dir.groups.get)
    fun db db' h hk _ => ?_) fun group => ?_
  · cases hid : nonEmpty tenant.adminGroupId with
    | none => rfl
    | some groupId => exact group_twin h (adminGroup_tenant h.owned hk.2 hid)
  refine coupled_ifSome (fun group hfound => ?_) fun db db' hu => hu.mono fun dir hk => hk.1.1
  subst hfound
  refine coupled_known (J := Joinable op.tenantId group.groupId userId)
    (fun dir howned hk => ⟨?_, hk.1.1⟩) ?_
  · obtain ⟨groupId, hid, hget⟩ := Option.bind_eq_some_iff.mp hk.2
    rw [Table.key_of_get hget]
    exact adminGroup_tenant howned hk.1.2 hid
  refine coupled_bind (coupled_look
    (f := fun dir => dir.groupMemberships.get (group.groupId, userId))
    fun db db' h hk _ => membership_twin h hk.1) fun membership => ?_
  refine coupled_known (fun dir _ hk => hk.1) ?_
  refine coupled_bind (coupled_when_mine (fun _ dir hk => hk) (joinable_kept (by simp)))
    fun _ => ?_
  refine (coupled_when_mine (fun _ dir hk => hk.1) (joinable_kept (by simp))).mono
    (fun _ _ hu => hu) fun _ _ _ hu => ?_
  exact hu.mono fun dir hk => hk.2

theorem coupled_patchUser {userId : String} {body : PatchUserRequest} :
    Coupled (Unknowing op.tenantId start) (patchUser d op userId body) fun _ =>
      Unknowing op.tenantId start := by
  refine coupled_transaction (coupled_bind coupled_requireUser fun row => ?_)
  refine coupled_known (J := fun dir => dir.userTenant userId = some op.tenantId)
    (fun dir _ hk => userTenant_of_row hk.2) ?_
  refine coupled_bind (coupled_ifSome_mine (fun _ _ dir hk => hk)
    fun _ _ => userTenant_kept) fun _ => ?_
  refine coupled_bind (I := fun _ => Under op.tenantId start fun dir =>
    dir.userTenant userId = some op.tenantId)
    (coupled_ifSome (fun isAdmin _ => ?_) fun _ _ hu => hu) fun _ => ?_
  · refine coupled_bind (coupled_mine_keeps (fun dir hk => hk) fun _ => userTenant_kept) fun _ => ?_
    exact coupled_bind coupled_requireTenant fun tenant => coupled_syncAdminFlag
  refine coupled_bind (coupled_ifSome_mine (fun _ _ dir hk => hk)
    fun _ _ => userTenant_kept) fun _ => ?_
  refine coupled_bind (coupled_ifSome_mine (fun _ _ dir hk => hk)
    fun _ _ => userTenant_kept) fun _ => ?_
  exact coupled_refreshUser

theorem coupled_patchApplication {applicationId : String} {body : PatchApplicationRequest} :
    Coupled (Unknowing op.tenantId start) (patchApplication op applicationId body) fun _ =>
      Unknowing op.tenantId start := by
  refine coupled_transaction (coupled_bind coupled_requireApplication fun row =>
    coupled_bind coupled_requireTenant fun tenant => coupled_bind coupled_unless fun _ => ?_)
  refine coupled_known (J := fun dir => dir.applicationTenant applicationId = some op.tenantId)
    (fun dir _ hk => applicationTenant_of_row hk.1.1.2) ?_
  refine coupled_bind (coupled_ifSome_mine (fun _ _ dir hk => hk)
    fun _ _ => applicationTenant_kept) fun _ => ?_
  refine coupled_bind (coupled_ifSome_mine (fun _ _ dir hk => hk)
    fun _ _ => applicationTenant_kept) fun _ => ?_
  refine coupled_bind (coupled_ifSome_mine (fun _ _ dir hk => hk)
    fun _ _ => applicationTenant_kept) fun _ => ?_
  refine coupled_bind (coupled_ifSome_mine (fun _ _ dir hk => hk)
    fun _ _ => applicationTenant_kept) fun _ => ?_
  exact coupled_refreshApplication

theorem coupled_patchGroup {groupId : String} {body : PatchGroupRequest} :
    Coupled (Unknowing op.tenantId start) (patchGroup op groupId body) fun _ =>
      Unknowing op.tenantId start := by
  refine coupled_transaction (coupled_bind coupled_requireGroup fun row => ?_)
  refine coupled_known (J := fun dir => dir.groupTenant groupId = some op.tenantId)
    (fun dir _ hk => groupTenant_of_row hk.2) ?_
  refine coupled_bind (I := fun _ => Under op.tenantId start fun dir =>
    dir.groupTenant groupId = some op.tenantId)
    (coupled_ifSome (fun name _ => ?_) fun _ _ hu => hu) fun _ => ?_
  · refine coupled_bind (coupled_look (f := fun dir => dir.groups.first? fun g =>
      g.tenantId == op.tenantId && g.name == name && g.groupId != groupId)
      fun db db' h _ _ => groupClash_twin h) fun clash => ?_
    exact coupled_raiseIf fun _ _ _ hu => hu.mono fun dir hk => hk.1
  refine coupled_bind (coupled_onIntegrity (coupled_bind (coupled_ifSome_mine
    (fun _ _ dir hk => hk) fun _ _ => groupTenant_kept (by simp)) fun _ => coupled_ifSome_mine
      (fun _ _ dir hk => hk) fun _ _ => groupTenant_kept (by simp))) fun _ => ?_
  exact coupled_refreshGroup

theorem coupled_deleteGroup {groupId : String} :
    Coupled (Unknowing op.tenantId start) (deleteGroup op groupId) fun _ =>
      Unknowing op.tenantId start := by
  refine coupled_transaction (coupled_bind coupled_requireGroup fun row =>
    coupled_bind coupled_requireTenant fun tenant => coupled_bind coupled_unless fun _ => ?_)
  refine coupled_known (J := fun dir => dir.groupTenant groupId = some op.tenantId ∧
    ∀ anchors, dir.anchors op.tenantId = some anchors → anchors.2 ≠ some groupId)
    (fun dir _ hk => ⟨groupTenant_of_row hk.1.1.2, ?_⟩) ?_
  · -- the group is not the one that the tenant's anchor names
    intro anchors hanchors
    simp only [Directory.anchors, hk.1.2, Option.map_some, Option.some.injEq] at hanchors
    rw [← hanchors]
    exact fun hid => hk.2 hid.symm
  have hkept : ∀ {w : DirectoryWrite}, (∀ dir : Directory, (w.effect dir).groups = dir.groups) →
      ∀ dir, Mine op.tenantId dir w → dir.groupTenant groupId = some op.tenantId ∧
        (∀ anchors, dir.anchors op.tenantId = some anchors → anchors.2 ≠ some groupId) →
      (w.effect dir).groupTenant groupId = some op.tenantId ∧ ∀ anchors,
        (w.effect dir).anchors op.tenantId = some anchors → anchors.2 ≠ some groupId := by
    intro w hgroups dir hw hk
    have htenants : (w.effect dir).tenants = dir.tenants := by
      cases w <;> first | rfl | exact hw.elim
    rw [Directory.groupTenant, hgroups, Directory.anchors, htenants]
    exact hk
  refine coupled_bind (coupled_mine_keeps (fun _ hk => hk.1) (hkept fun _ => rfl)) fun _ => ?_
  refine coupled_bind (coupled_mine_keeps (fun _ hk => hk.1) (hkept fun _ => rfl)) fun _ => ?_
  exact coupled_mine (fun _ hk => hk) fun _ _ _ => trivial

theorem coupled_addMember {groupId : String} {body : AddGroupMemberRequest} :
    Coupled (Unknowing op.tenantId start) (addMember op groupId body) fun _ =>
      Unknowing op.tenantId start := by
  refine coupled_transaction (coupled_bind coupled_requireGroup fun row =>
    coupled_bind coupled_requireUser fun user => ?_)
  refine coupled_known (J := Joinable op.tenantId groupId body.userId)
    (fun dir _ hk => ⟨groupTenant_of_row hk.1.2, userTenant_of_row hk.2⟩) ?_
  refine coupled_bind (coupled_look
    (f := fun dir => dir.groupMemberships.get (groupId, body.userId))
    fun db db' h hk _ => membership_twin h hk.1) fun existing => ?_
  refine coupled_bind coupled_unless fun _ => ?_
  refine coupled_known (J := Joinable op.tenantId groupId body.userId)
    (fun dir _ hk => hk.1.1) ?_
  exact coupled_bind (coupled_mine (J := fun _ => True) (fun _ hk => hk)
    fun _ _ _ => trivial) fun _ => coupled_refreshGroup

theorem coupled_removeMember {groupId userId : String} :
    Coupled (Unknowing op.tenantId start) (removeMember op groupId userId) fun _ =>
      Unknowing op.tenantId start := by
  refine coupled_transaction (coupled_bind coupled_requireGroup fun row => ?_)
  refine coupled_known (J := fun dir => dir.groupTenant groupId = some op.tenantId)
    (fun dir _ hk => groupTenant_of_row hk.2) ?_
  refine coupled_bind (coupled_look (f := fun dir => dir.groupMemberships.get (groupId, userId))
    fun db db' h hk _ => membership_twin h hk) fun membership => ?_
  refine coupled_bind coupled_unless fun _ => ?_
  exact coupled_bind (coupled_mine (J := fun _ => True) (fun _ hk => hk.1.1)
    fun _ _ _ => trivial) fun _ => coupled_refreshGroup

theorem coupled_addGroupRole {groupId : String} {body : AddGroupRoleRequest} :
    Coupled (Unknowing op.tenantId start) (addGroupRole op groupId body) fun _ =>
      Unknowing op.tenantId start := by
  refine coupled_transaction (coupled_bind coupled_requireGroup fun row =>
    coupled_bind coupled_requireRole fun role => ?_)
  refine coupled_known (J := fun dir => dir.groupTenant groupId = some op.tenantId ∧
    dir.roleTenant body.roleId = some op.tenantId)
    (fun dir _ hk => ⟨groupTenant_of_row hk.1.2, roleTenant_of_row hk.2⟩) ?_
  refine coupled_bind (coupled_look (f := fun dir => dir.groupRoles.get (groupId, body.roleId))
    fun db db' h hk _ => groupRole_twin h hk.1) fun existing => ?_
  refine coupled_bind coupled_unless fun _ => ?_
  exact coupled_bind (coupled_mine (J := fun _ => True) (fun _ hk => hk.1.1)
    fun _ _ _ => trivial) fun _ => coupled_refreshGroup

theorem coupled_removeGroupRole {groupId roleId : String} :
    Coupled (Unknowing op.tenantId start) (removeGroupRole op groupId roleId) fun _ =>
      Unknowing op.tenantId start := by
  refine coupled_transaction (coupled_bind coupled_requireGroup fun row => ?_)
  refine coupled_known (J := fun dir => dir.groupTenant groupId = some op.tenantId)
    (fun dir _ hk => groupTenant_of_row hk.2) ?_
  refine coupled_bind (coupled_look (f := fun dir => dir.groupRoles.get (groupId, roleId))
    fun db db' h hk _ => groupRole_twin h hk) fun assignment => ?_
  refine coupled_bind coupled_unless fun _ => ?_
  exact coupled_bind (coupled_mine (J := fun _ => True) (fun _ hk => hk.1.1)
    fun _ _ _ => trivial) fun _ => coupled_refreshGroup

theorem coupled_patchRole {roleId : String} {body : PatchRoleRequest} :
    Coupled (Unknowing op.tenantId start) (patchRole op roleId body) fun _ =>
      Unknowing op.tenantId start := by
  refine coupled_transaction (coupled_bind coupled_requireRole fun row => ?_)
  -- the role is of the tenant, and so is its application
  refine coupled_known (J := fun dir => dir.roleTenant roleId = some op.tenantId ∧
    dir.applicationTenant row.applicationId = some op.tenantId)
    (fun dir howned hk => ⟨roleTenant_of_row hk.2, ?_⟩) ?_
  · rw [howned.roles row (Table.mem_of_get hk.2.1), beq_iff_eq.mp hk.2.2]
  have hkept : ∀ {w : DirectoryWrite}, w ≠ .deleteRole roleId → ∀ dir, Mine op.tenantId dir w →
      dir.roleTenant roleId = some op.tenantId ∧
        dir.applicationTenant row.applicationId = some op.tenantId →
      (w.effect dir).roleTenant roleId = some op.tenantId ∧
        (w.effect dir).applicationTenant row.applicationId = some op.tenantId :=
    fun hne dir hw hk => ⟨roleTenant_kept hne hw hk.1, applicationTenant_kept hw hk.2⟩
  refine coupled_bind (I := fun _ => Under op.tenantId start fun dir =>
    dir.roleTenant roleId = some op.tenantId ∧
      dir.applicationTenant row.applicationId = some op.tenantId)
    (coupled_ifSome (fun name _ => ?_) fun _ _ hu => hu) fun _ => ?_
  · refine coupled_bind (coupled_look (f := fun dir => dir.roles.first? fun r =>
      r.applicationId == row.applicationId && r.name == name && r.roleId != roleId)
      fun db db' h hk hk' => roleClash_twin h hk.2 hk'.2) fun clash => ?_
    refine coupled_bind coupled_unless fun _ => coupled_known (fun dir _ hk => hk.1.1) ?_
    exact coupled_mine (fun _ hk => hk.1) (hkept (by simp))
  refine coupled_bind (coupled_ifSome_mine (fun _ _ dir hk => hk.1)
    fun _ => hkept (by simp)) fun _ => ?_
  exact coupled_refreshRole

theorem coupled_deleteRole {roleId : String} :
    Coupled (Unknowing op.tenantId start) (deleteRole op roleId) fun _ =>
      Unknowing op.tenantId start := by
  refine coupled_transaction (coupled_bind coupled_requireRole fun row => ?_)
  refine coupled_known (J := fun dir => dir.roleTenant roleId = some op.tenantId)
    (fun dir _ hk => roleTenant_of_row hk.2) ?_
  refine coupled_bind (coupled_mine_keeps (fun _ hk => hk)
    fun _ => roleTenant_kept (by simp)) fun _ => ?_
  refine coupled_bind (coupled_mine_keeps (fun _ hk => hk)
    fun _ => roleTenant_kept (by simp)) fun _ => ?_
  exact coupled_mine (fun _ hk => hk) fun _ _ _ => trivial

/-- What a call on a role's permissions knows before it replaces them. -/
abbrev Grantable (tenantId roleId applicationId : String) (wanted : List String)
    (dir : Directory) : Prop :=
  dir.roleOwners roleId = some (tenantId, applicationId) ∧
    ∀ pid ∈ wanted, dir.permissionApplication pid = some applicationId

/-- A wanted permission that is neither missing nor foreign is on the role's application. -/
theorem permissionApplication_of_wanted {wanted : List String} {applicationId pid : String}
    (hpid : pid ∈ wanted)
    (hmissing : wanted.filter (fun pid => (ownPermission dir tenantId pid).isNone) = [])
    (hforeign : wanted.filter (fun pid => (ownPermission dir tenantId pid).any fun p =>
      p.applicationId != applicationId) = []) :
    dir.permissionApplication pid = some applicationId := by
  have hown := List.filter_eq_nil_iff.mp hmissing pid hpid
  have hsame := List.filter_eq_nil_iff.mp hforeign pid hpid
  cases hfound : ownPermission dir tenantId pid with
  | none => simp [hfound] at hown
  | some permission =>
      have hget : dir.permissions.get pid = some permission :=
        (Option.filter_eq_some_iff.mp hfound).1
      rw [Directory.permissionApplication, hget, Option.map_some]
      simpa [hfound] using hsame

theorem coupled_setRolePermissions {roleId : String} {body : SetRolePermissionsRequest} :
    Coupled (Unknowing op.tenantId start) (setRolePermissions op roleId body) fun _ =>
      Unknowing op.tenantId start := by
  refine coupled_transaction (coupled_bind coupled_requireRole fun row => ?_)
  -- what is wanted is looked up among the tenant's permissions, the same in both states
  refine coupled_bind (coupled_look (f := fun dir =>
    (sortOn (fun pid => [pid]) body.permissionIds.dedup).filter fun pid =>
      (ownPermission dir op.tenantId pid).isNone)
    fun db db' h _ _ => by simp only [ownPermission_twin h]) fun missing => ?_
  refine coupled_bind coupled_unless fun _ => ?_
  refine coupled_bind (coupled_look (f := fun dir =>
    (sortOn (fun pid => [pid]) body.permissionIds.dedup).filter fun pid =>
      (ownPermission dir op.tenantId pid).any fun p => p.applicationId != row.applicationId)
    fun db db' h _ _ => by simp only [ownPermission_twin h]) fun foreign => ?_
  refine coupled_bind coupled_unless fun _ => ?_
  refine coupled_known (J := Grantable op.tenantId roleId row.applicationId
    (sortOn (fun pid => [pid]) body.permissionIds.dedup)) (fun dir _ hk => ?_) ?_
  · obtain ⟨⟨⟨⟨⟨-, hget, htenant⟩, hmissing⟩, hsome⟩, hforeign⟩, hsame⟩ := hk
    rw [not_not] at hsome hsame
    refine ⟨?_, fun pid hpid => permissionApplication_of_wanted hpid (hmissing.trans hsome)
      (hforeign.trans hsame)⟩
    rw [Directory.roleOwners, hget, Option.map_some, beq_iff_eq.mp htenant]
  refine coupled_bind (coupled_mine_keeps (fun dir hk => roleTenant_of_owners hk.1)
    fun _ _ hk => hk) fun _ => ?_
  refine coupled_bind (coupled_forEach fun pid hpid => coupled_mine_keeps
    (fun dir hk => ⟨_, hk.1, hk.2 pid hpid⟩) fun _ _ hk => hk) fun _ => ?_
  exact coupled_refreshRole

/-! ## Every call on objects that are there -/

/-- The calls that create nothing and stay within one tenant. -/
def AdminCall.onExisting : AdminCall → Bool
  | .currentTenant | .listUsers | .listApplications | .listGroups | .getGroup _ | .listRoles _
  | .getRole _ | .listPermissions _ | .patchUser _ _ | .patchApplication _ _ | .patchGroup _ _
  | .deleteGroup _ | .addMember _ _ | .removeMember _ _ | .addGroupRole _ _ | .removeGroupRole _ _
  | .patchRole _ _ | .deleteRole _ | .setRolePermissions _ _ => true
  | _ => false

variable {call : AdminCall}

theorem coupled_answer {α : Type} {m : App α} {f : α → Answer}
    (h : Coupled (Unknowing tenantId start) m fun _ => Unknowing tenantId start) :
    Coupled (Unknowing tenantId start) (answer m f) fun _ => Unknowing tenantId start :=
  coupled_bind h fun _ => coupled_pure fun _ _ hu => hu

theorem coupled_serveAdmin (hcall : call.onExisting = true) :
    Coupled (Unknowing op.tenantId start) (serveAdmin env d op call) fun _ =>
      Unknowing op.tenantId start := by
  cases call with
  | currentTenant => exact coupled_answer coupled_currentTenant
  | listUsers => exact coupled_answer coupled_listUsers
  | listApplications => exact coupled_answer coupled_listApplications
  | listGroups => exact coupled_answer coupled_listGroups
  | getGroup => exact coupled_answer coupled_getGroup
  | listRoles => exact coupled_answer coupled_listRoles
  | getRole => exact coupled_answer coupled_getRole
  | listPermissions => exact coupled_answer coupled_listPermissions
  | patchUser => exact coupled_answer coupled_patchUser
  | patchApplication => exact coupled_answer coupled_patchApplication
  | patchGroup => exact coupled_answer coupled_patchGroup
  | deleteGroup => exact coupled_answer coupled_deleteGroup
  | addMember => exact coupled_answer coupled_addMember
  | removeMember => exact coupled_answer coupled_removeMember
  | addGroupRole => exact coupled_answer coupled_addGroupRole
  | removeGroupRole => exact coupled_answer coupled_removeGroupRole
  | patchRole => exact coupled_answer coupled_patchRole
  | deleteRole => exact coupled_answer coupled_deleteRole
  | setRolePermissions => exact coupled_answer coupled_setRolePermissions
  | _ => cases hcall

/-- **Noninterference.**  Two states that have the rows of a tenant in common
answer its operators alike, and have the rows of the tenant in common again
afterwards; in each, the rows of every other tenant are what they were.  So the
id of another tenant's object and an id that is nobody's cannot be told apart. -/
theorem noninterference (howned : Owned db.toDirectory) (howned' : Owned db'.toDirectory)
    (hunique : Constraints db.toDirectory) (hunique' : Constraints db'.toDirectory)
    (hagree : Agree op.tenantId db db') (hcall : call.onExisting = true) :
    Served.answer env ⟨db, .admin op call, d⟩ = Served.answer env ⟨db', .admin op call, d⟩ ∧
      Agree op.tenantId (Served.after env ⟨db, .admin op call, d⟩)
        (Served.after env ⟨db', .admin op call, d⟩) ∧
      ∀ other, other ≠ op.tenantId →
        Agree other db (Served.after env ⟨db, .admin op call, d⟩) ∧
          Agree other db' (Served.after env ⟨db', .admin op call, d⟩) := by
  have hstart : Unknowing op.tenantId (db, db') db db' :=
    ⟨⟨⟨hagree, howned, howned', hunique, hunique'⟩, fun _ _ => Agree.refl _ _,
      fun _ _ => Agree.refl _ _⟩, trivial, trivial⟩
  have hcoupled : Coupled (Unknowing op.tenantId (db, db')) (serveAdmin env d op call) fun _ =>
    Unknowing op.tenantId (db, db') := coupled_serveAdmin hcall
  have hanswer : Served.answer env ⟨db, .admin op call, d⟩ =
      Served.answer env ⟨db', .admin op call, d⟩ :=
    hcoupled.answer (t := ⟨db, [], []⟩) hstart
  refine ⟨hanswer, ?_⟩
  cases hresult : Served.answer env ⟨db, .admin op call, d⟩ with
  | error e =>
      -- a refused call leaves both states as they were
      rw [Served.after_of_error hresult, Served.after_of_error (hanswer.symm.trans hresult)]
      exact ⟨hagree, fun other _ => ⟨Agree.refl _ _, Agree.refl _ _⟩⟩
  | ok a =>
      have hafter : Unknowing op.tenantId (db, db') (Served.after env ⟨db, .admin op call, d⟩)
          (Served.after env ⟨db', .admin op call, d⟩) :=
        hcoupled.after (t := ⟨db, [], []⟩) hstart (Prod.ext hresult rfl)
      obtain ⟨hblind, -, -⟩ := hafter
      exact ⟨hblind.twin.agree, fun other hother =>
        ⟨hblind.others other hother, hblind.others' other hother⟩⟩

/-- The state of a second tenant besides, with a group of its own. -/
def Db.standInRivals : Db :=
  { Db.standInConsole with
    toDirectory := [DirectoryWrite.insertTenant {
        tenantId := "rival"
        name := "Rival"
        isPlatform := false
        consoleApplicationId := none
        adminGroupId := none
        displayName := "Rival"
        loginStyle := "rokusec"
        logoUrl := none
        primaryColour := "#1466E5"
        accentColour := "#152953"
        createdAt := 0 },
      .insertApplication ⟨"desk", none, "rival", "Desk", true, none, none, 0⟩,
      .insertGroup ⟨"rivals", "rival", "Rivals", "", 0⟩,
      .setTenantAnchors "rival" "desk" "rivals"].foldl (fun db w => w.effect db)
        Db.standInConsole.toDirectory }

theorem owned_standInRivals : Owned Db.standInRivals.toDirectory := by
  have hevaluated :
      (∀ m ∈ Db.standInRivals.groupMemberships.rows,
        Db.standInRivals.groupTenant m.groupId = some "acme" ∧
          Db.standInRivals.userTenant m.userId = some "acme") ∧
      (∀ gr ∈ Db.standInRivals.groupRoles.rows,
        Db.standInRivals.groupTenant gr.groupId = some "acme" ∧
          Db.standInRivals.roleOwners gr.roleId = some ("acme", "portal")) ∧
      (∀ r ∈ Db.standInRivals.roles.rows,
        Db.standInRivals.applicationTenant r.applicationId = some r.tenantId) ∧
      (∀ rp ∈ Db.standInRivals.rolePermissions.rows,
        Db.standInRivals.roleOwners rp.roleId = some ("acme", "portal") ∧
          Db.standInRivals.permissionApplication rp.permissionId = some "portal") ∧
      (∀ t ∈ Db.standInRivals.tenants.rows,
        t.adminGroupId.all fun groupId =>
          Db.standInRivals.groupTenant groupId == some t.tenantId) ∧
      ∀ t ∈ Db.standInRivals.tenants.rows,
        t.consoleApplicationId.all fun applicationId =>
          Db.standInRivals.applicationTenant applicationId == some t.tenantId := by
    decide +kernel
  obtain ⟨hmemberships, hgroupRoles, hroles, hrolePermissions, hgroups, hconsoles⟩ := hevaluated
  refine ⟨fun m hm => ⟨_, hmemberships m hm⟩, fun gr hgr => ⟨_, _, hgroupRoles gr hgr⟩, hroles,
    fun rp hrp => ⟨_, _, hrolePermissions rp hrp⟩, fun t ht groupId hgroup => ?_,
    fun t ht applicationId happ => ?_⟩
  · simpa [hgroup] using hgroups t ht
  · simpa [happ] using hconsoles t ht

theorem wellOwned_standInRivals : WellOwned Db.standInRivals.toDirectory := by
  have howned := owned_standInRivals
  have hconsoles : ∀ t ∈ Db.standInRivals.tenants.rows, ∃ applicationId,
      t.consoleApplicationId = some applicationId ∧
        Db.standInRivals.applicationEnabled applicationId = some true := by
    have hevaluated : ∀ t ∈ Db.standInRivals.tenants.rows, (t.consoleApplicationId.any fun id =>
        Db.standInRivals.applicationEnabled id == some true) = true := by decide +kernel
    intro t ht
    obtain ⟨applicationId, happ, henabled⟩ := (Option.any_eq_true _ _).mp (hevaluated t ht)
    exact ⟨applicationId, happ, by simpa using henabled⟩
  refine ⟨howned.memberships, howned.groupRoles, howned.roles, howned.rolePermissions,
    howned.adminGroup, fun t ht => ?_⟩
  obtain ⟨applicationId, happ, henabled⟩ := hconsoles t ht
  exact ⟨applicationId, happ, howned.console t ht applicationId happ, henabled⟩

def Operator.standIn : Operator := ⟨"usr_ana", "acme", "acme", ∅, false⟩

theorem agree_standInRivals :
    Agree Operator.standIn.tenantId Db.standInRivals Db.standInConsole := by
  constructor <;> decide +kernel

/-- Another tenant's group, and no group: the same answer. -/
theorem noninterference_rivals :
    Served.answer Env.standIn ⟨Db.standInRivals, .admin .standIn (.getGroup "rivals"),
        .numbered 0⟩ =
      Served.answer Env.standIn ⟨Db.standInConsole, .admin .standIn (.getGroup "rivals"),
        .numbered 0⟩ := by
  have hunique : Constraints Db.standInRivals.toDirectory := by constructor <;> decide +kernel
  have hunique' : Constraints Db.standInConsole.toDirectory := by constructor <;> decide +kernel
  exact (noninterference owned_standInRivals wellOwned_standInConsole.owned hunique hunique'
    agree_standInRivals rfl).1

end RbaIdp
