import RbaIdp.Relational.Coupling
import RbaIdp.Tenancy

/-!
# Calls that see one tenant only

What a call reads of a tenant is the same in two states with the same rows of the
tenant (`Twin`), whatever else they hold.

A call is followed through both runs at once.  `Blind` is what holds of the two
states all along, and `Under` adds what the call has found out so far, which is
the same in both because it is about the tenant's rows.
-/

namespace RbaIdp

open Relational Program

variable {tenantId : String} {db db' : Db}

/-! ## What answers show -/

theorem filterMap_perm {α β : Type} {xs ys : List α} {f f' : α → Option β} (hperm : xs.Perm ys)
    (hsame : ∀ x ∈ xs, f x = f' x) : (xs.filterMap f).Perm (ys.filterMap f') := by
  rw [List.filterMap_congr hsame]
  exact hperm.filterMap f'

/-- An application that is found under the tenant is the tenant's. -/
theorem isSome_filter_iff {dir : Directory} {applicationId : String} :
    ((dir.applications.get applicationId).filter fun a => a.tenantId == tenantId).isSome = true ↔
      dir.applicationTenant applicationId = some tenantId := by
  rw [Directory.applicationTenant, Option.map_eq_some_iff, Option.isSome_iff_exists]
  simp only [Option.filter_eq_some_iff, beq_iff_eq]

section Reading

variable (h : Twin tenantId db db')

include h

/-- A group of the tenant is the same row in both states. -/
theorem group_twin {groupId : String} (hown : db.groupTenant groupId = some tenantId) :
    db.groups.get groupId = db'.groups.get groupId := by
  obtain ⟨group, hgroup, htenant⟩ := Option.map_eq_some_iff.mp hown
  rw [hgroup, h.agree.groups.get_some hgroup htenant]

theorem user_twin {userId : String} (hown : db.userTenant userId = some tenantId) :
    db.users.get userId = db'.users.get userId := by
  obtain ⟨user, huser, htenant⟩ := Option.map_eq_some_iff.mp hown
  rw [huser, h.agree.users.get_some huser htenant]

theorem role_twin {roleId : String} (hown : db.roleTenant roleId = some tenantId) :
    db.roles.get roleId = db'.roles.get roleId := by
  obtain ⟨role, hrole, htenant⟩ := Option.map_eq_some_iff.mp hown
  rw [hrole, h.agree.roles.get_some hrole htenant]

/-- What a group's tenant is follows from the group's row. -/
theorem groupTenant_twin {groupId : String} (hown : db.groupTenant groupId = some tenantId) :
    db'.groupTenant groupId = some tenantId := by
  rw [Directory.groupTenant, ← group_twin h hown]
  exact hown

theorem userTenant_twin {userId : String} (hown : db.userTenant userId = some tenantId) :
    db'.userTenant userId = some tenantId := by
  rw [Directory.userTenant, ← user_twin h hown]
  exact hown

theorem roleTenant_twin {roleId : String} (hown : db.roleTenant roleId = some tenantId) :
    db'.roleTenant roleId = some tenantId := by
  rw [Directory.roleTenant, ← role_twin h hown]
  exact hown

omit h in
/-- The groups of a user are of the user's tenant. -/
theorem group_of_user {dir : Directory} (howned : Owned dir) {m : GroupMembership}
    (hm : m ∈ dir.groupMemberships) (huser : dir.userTenant m.userId = some tenantId) :
    dir.groupTenant m.groupId = some tenantId := by
  obtain ⟨owner, hgroup, howner⟩ := howned.memberships m hm
  rw [hgroup, ← huser, howner]

theorem groups_of_user {userId : String} (hown : db.userTenant userId = some tenantId) :
    sortOn (fun g : Group => [g.name])
        ((db.groupMemberships.select fun m => m.userId == userId).filterMap fun m =>
          db.groups.get m.groupId) =
      sortOn (fun g : Group => [g.name])
        ((db'.groupMemberships.select fun m => m.userId == userId).filterMap fun m =>
          db'.groups.get m.groupId) := by
  have hown' := userTenant_twin h hown
  have hgroup : ∀ m ∈ db.groupMemberships, (m.userId == userId) = true →
      db.groupTenant m.groupId = some tenantId := fun m hm hid =>
    group_of_user h.owned hm (by rw [beq_iff_eq.mp hid]; exact hown)
  have hperm := h.agree.groupMemberships.perm_select (p := fun m => m.userId == userId)
    (q := fun m => m.userId == userId) (fun m hm hid => ⟨hgroup m hm hid, hid⟩) fun m hm hid =>
      ⟨group_of_user h.owned' hm (by rw [beq_iff_eq.mp hid]; exact hown'), hid⟩
  refine sortOn_eq_of_perm (filterMap_perm hperm fun m hm => ?_) fun a ha b hb hname => ?_
  · obtain ⟨hm, hid⟩ := Table.mem_select.mp hm
    exact group_twin h (hgroup m hm hid)
  · -- the user's groups are of one tenant, where names are unique
    have hrow : ∀ g ∈ (db.groupMemberships.select fun m => m.userId == userId).filterMap fun m =>
        db.groups.get m.groupId, g ∈ db.groups ∧ g.tenantId = tenantId := by
      intro g hg
      obtain ⟨m, hm, hget⟩ := List.mem_filterMap.mp hg
      obtain ⟨hm, hid⟩ := Table.mem_select.mp hm
      have howner := hgroup m hm hid
      rw [Directory.groupTenant, hget] at howner
      exact ⟨Table.mem_of_get hget, Option.some.inj howner⟩
    obtain ⟨hga, htenant⟩ := hrow a ha
    obtain ⟨hgb, htenant'⟩ := hrow b hb
    refine h.constraints.groups a hga b hgb (Prod.ext (htenant.trans htenant'.symm) ?_)
    simpa using hname

theorem userPublicOf_twin {row : User} (hrow : row ∈ db.users) (htenant : row.tenantId = tenantId) :
    userPublicOf db row = userPublicOf db' row := by
  have hown : db.userTenant row.userId = some tenantId := by
    rw [Directory.userTenant, Table.get_of_mem hrow, Option.map_some, htenant]
  have hown' := userTenant_twin h hown
  have hpasskeys := (h.agree.webauthnCredentials.perm_select
    (p := fun c => c.userId == row.userId) (q := fun c => c.userId == row.userId)
    (fun c _ hid => ⟨by rw [beq_iff_eq.mp hid]; exact hown, hid⟩)
    fun c _ hid => ⟨by rw [beq_iff_eq.mp hid]; exact hown', hid⟩).length_eq
  simp only [userPublicOf, groups_of_user h hown, hpasskeys]

theorem tenantPublic_twin {row : Tenant} (htenant : row.tenantId = tenantId) :
    tenantPublic db row = tenantPublic db' row := by
  have hperm := h.agree.tenantDomains.perm_select (p := fun r => r.tenantId == row.tenantId)
    (q := fun r => r.tenantId == row.tenantId)
    (fun r _ hid => ⟨(beq_iff_eq.mp hid).trans htenant, hid⟩)
    fun r _ hid => ⟨(beq_iff_eq.mp hid).trans htenant, hid⟩
  have hdomains : sortOn (fun domain => [domain])
        ((db.tenantDomains.select fun r => r.tenantId == row.tenantId).map TenantDomain.domain) =
      sortOn (fun domain => [domain])
        ((db'.tenantDomains.select fun r => r.tenantId == row.tenantId).map TenantDomain.domain) :=
    sortOn_eq_of_perm (hperm.map TenantDomain.domain) fun a _ b _ hkey => by simpa using hkey
  simp only [tenantPublic, hdomains]

/-- The permissions of a role are on its application, which is its tenant's. -/
theorem permission_of_role {roleId : String} (hown : db.roleTenant roleId = some tenantId)
    {rp : RolePermission} (hrp : rp ∈ db.rolePermissions) (hid : rp.roleId = roleId) :
    ∃ p, db.permissions.get rp.permissionId = some p ∧ p ∈ db'.permissions ∧
      (db.roles.get roleId).map Role.applicationId = some p.applicationId := by
  obtain ⟨owner, applicationId, hrole, hpermission⟩ := h.owned.rolePermissions rp hrp
  obtain ⟨p, hp, happ⟩ := Option.map_eq_some_iff.mp hpermission
  rw [hid] at hrole
  obtain ⟨role, hget, howners⟩ := Option.map_eq_some_iff.mp hrole
  obtain ⟨hfst, hsnd⟩ := Prod.mk.inj howners
  refine ⟨p, hp, ?_, by rw [hget, Option.map_some, hsnd, happ]⟩
  refine h.agree.permissions.mem (Table.mem_of_get hp) ?_
  have hroleOwner := h.owned.roles role (Table.mem_of_get hget)
  rw [happ, ← hsnd, hroleOwner]
  rw [Directory.roleTenant, hget] at hown
  exact hown

theorem rolePermissions_perm {roleId : String} (hown : db.roleTenant roleId = some tenantId) :
    (db.rolePermissions.select fun rp => rp.roleId == roleId).Perm
      (db'.rolePermissions.select fun rp => rp.roleId == roleId) := by
  have hown' := roleTenant_twin h hown
  exact h.agree.rolePermissions.perm_select
    (fun rp _ hid => ⟨by rw [beq_iff_eq.mp hid]; exact hown, hid⟩)
    fun rp _ hid => ⟨by rw [beq_iff_eq.mp hid]; exact hown', hid⟩

theorem rolePermissionsOf_twin {roleId : String} (hown : db.roleTenant roleId = some tenantId) :
    rolePermissionsOf db roleId = rolePermissionsOf db' roleId := by
  refine sortOn_eq_of_perm (filterMap_perm (rolePermissions_perm h hown) fun rp hrp => ?_)
    fun a ha b hb hkey => ?_
  · obtain ⟨hrp, hid⟩ := Table.mem_select.mp hrp
    obtain ⟨p, hget, hp, -⟩ := permission_of_role h hown hrp (beq_iff_eq.mp hid)
    rw [hget, ← Table.key_of_get hget, Table.get_of_mem hp]
  · have hrow : ∀ p ∈ (db.rolePermissions.select fun rp => rp.roleId == roleId).filterMap fun rp =>
        db.permissions.get rp.permissionId, p ∈ db.permissions ∧
          (db.roles.get roleId).map Role.applicationId = some p.applicationId := by
      intro p hp
      obtain ⟨rp, hrp, hget⟩ := List.mem_filterMap.mp hp
      obtain ⟨hrp, hid⟩ := Table.mem_select.mp hrp
      obtain ⟨q, hget', -, happ⟩ := permission_of_role h hown hrp (beq_iff_eq.mp hid)
      rw [hget] at hget'
      rw [Option.some.inj hget']
      exact ⟨Table.mem_of_get (hget.trans hget'), happ⟩
    obtain ⟨hpa, happ⟩ := hrow a ha
    obtain ⟨hpb, happ'⟩ := hrow b hb
    obtain ⟨hresource, hoperation⟩ : a.resource = b.resource ∧ a.operation = b.operation := by
      simpa using hkey
    exact h.constraints.permissions a hpa b hpb
      (Prod.ext (Option.some.inj (happ.symm.trans happ')) (Prod.ext hresource hoperation))

theorem rolePublic_twin {row : Role} (hrow : row ∈ db.roles) (htenant : row.tenantId = tenantId) :
    rolePublic db row = rolePublic db' row := by
  have hown : db.roleTenant row.roleId = some tenantId := by
    rw [Directory.roleTenant, Table.get_of_mem hrow, Option.map_some, htenant]
  simp only [rolePublic, (rolePermissions_perm h hown).length_eq]

theorem roleDetail_twin {row : Role} (hrow : row ∈ db.roles) (htenant : row.tenantId = tenantId) :
    roleDetail db row = roleDetail db' row := by
  have hown : db.roleTenant row.roleId = some tenantId := by
    rw [Directory.roleTenant, Table.get_of_mem hrow, Option.map_some, htenant]
  simp only [roleDetail, rolePublic_twin h hrow htenant, rolePermissionsOf_twin h hown]

theorem members_perm {groupId : String} (hown : db.groupTenant groupId = some tenantId) :
    (db.groupMemberships.select fun m => m.groupId == groupId).Perm
      (db'.groupMemberships.select fun m => m.groupId == groupId) := by
  have hown' := groupTenant_twin h hown
  exact h.agree.groupMemberships.perm_select
    (fun m _ hid => ⟨by rw [beq_iff_eq.mp hid]; exact hown, hid⟩)
    fun m _ hid => ⟨by rw [beq_iff_eq.mp hid]; exact hown', hid⟩

theorem groupPublic_twin {row : Group} (hrow : row ∈ db.groups)
    (htenant : row.tenantId = tenantId) : groupPublic db row = groupPublic db' row := by
  have hown : db.groupTenant row.groupId = some tenantId := by
    rw [Directory.groupTenant, Table.get_of_mem hrow, Option.map_some, htenant]
  simp only [groupPublic, memberCount, (members_perm h hown).length_eq]

theorem members_of_group {groupId : String} (hown : db.groupTenant groupId = some tenantId) :
    (sortOn (fun m : GroupMembership => [m.userId])
        (db.groupMemberships.select fun m => m.groupId == groupId)).map (fun m =>
      (⟨m.userId, ((db.users.get m.userId).map User.email).getD m.userId⟩ : GroupMemberPublic)) =
    (sortOn (fun m : GroupMembership => [m.userId])
        (db'.groupMemberships.select fun m => m.groupId == groupId)).map fun m =>
      ⟨m.userId, ((db'.users.get m.userId).map User.email).getD m.userId⟩ := by
  rw [← sortOn_eq_of_perm (members_perm h hown)]
  · refine List.map_congr_left fun m hm => ?_
    -- the members of a group are users of its tenant
    obtain ⟨hm, hid⟩ := Table.mem_select.mp ((perm_sortOn _ _).subset hm)
    obtain ⟨owner, hgroup, huser⟩ := h.owned.memberships m hm
    rw [beq_iff_eq.mp hid, hown] at hgroup
    rw [← Option.some.inj hgroup] at huser
    rw [user_twin h huser]
  · intro a ha b hb hkey
    obtain ⟨hma, hida⟩ := Table.mem_select.mp ha
    obtain ⟨hmb, hidb⟩ := Table.mem_select.mp hb
    have huserId : a.userId = b.userId := by simpa using hkey
    exact Table.eq_of_key_eq hma hmb
      (Prod.ext ((beq_iff_eq.mp hida).trans (beq_iff_eq.mp hidb).symm) huserId)

theorem roles_of_group {groupId : String} (hown : db.groupTenant groupId = some tenantId) :
    sortOn (fun r : Role => [r.applicationId, r.name])
        ((db.groupRoles.select fun gr => gr.groupId == groupId).filterMap fun gr =>
          db.roles.get gr.roleId) =
      sortOn (fun r : Role => [r.applicationId, r.name])
        ((db'.groupRoles.select fun gr => gr.groupId == groupId).filterMap fun gr =>
          db'.roles.get gr.roleId) := by
  have hown' := groupTenant_twin h hown
  have hperm := h.agree.groupRoles.perm_select (p := fun gr => gr.groupId == groupId)
    (q := fun gr => gr.groupId == groupId)
    (fun gr _ hid => ⟨by rw [beq_iff_eq.mp hid]; exact hown, hid⟩)
    fun gr _ hid => ⟨by rw [beq_iff_eq.mp hid]; exact hown', hid⟩
  refine sortOn_eq_of_perm (filterMap_perm hperm fun gr hgr => ?_) fun a ha b hb hkey => ?_
  · obtain ⟨hgr, hid⟩ := Table.mem_select.mp hgr
    obtain ⟨owner, applicationId, hgroup, hrole⟩ := h.owned.groupRoles gr hgr
    rw [beq_iff_eq.mp hid, hown] at hgroup
    rw [← Option.some.inj hgroup] at hrole
    exact role_twin h (roleTenant_of_owners hrole)
  · have hrow : ∀ r ∈ (db.groupRoles.select fun gr => gr.groupId == groupId).filterMap fun gr =>
        db.roles.get gr.roleId, r ∈ db.roles := by
      intro r hr
      obtain ⟨gr, -, hget⟩ := List.mem_filterMap.mp hr
      exact Table.mem_of_get hget
    obtain ⟨happ, hname⟩ : a.applicationId = b.applicationId ∧ a.name = b.name := by
      simpa using hkey
    exact h.constraints.roles a (hrow a ha) b (hrow b hb) (Prod.ext happ hname)

theorem groupDetail_twin {row : Group} (hrow : row ∈ db.groups)
    (htenant : row.tenantId = tenantId) : groupDetail db row = groupDetail db' row := by
  have hown : db.groupTenant row.groupId = some tenantId := by
    rw [Directory.groupTenant, Table.get_of_mem hrow, Option.map_some, htenant]
  simp only [groupDetail, groupPublic_twin h hrow htenant, members_of_group h hown,
    roles_of_group h hown]

/-! Edges, and rows that would clash. -/

theorem membership_twin {groupId userId : String} (hown : db.groupTenant groupId = some tenantId) :
    db.groupMemberships.get (groupId, userId) = db'.groupMemberships.get (groupId, userId) := by
  have hgroup : ∀ {t : Table GroupMembership GroupMembership.key} {m : GroupMembership},
      t.get (groupId, userId) = some m → m.groupId = groupId :=
    fun hget => congrArg Prod.fst (Table.key_of_get hget)
  refine h.agree.groupMemberships.get_eq (fun m hm => ?_) fun m hm => ?_
  · rw [hgroup hm]
    exact hown
  · rw [hgroup hm]
    exact groupTenant_twin h hown

theorem groupRole_twin {groupId roleId : String} (hown : db.groupTenant groupId = some tenantId) :
    db.groupRoles.get (groupId, roleId) = db'.groupRoles.get (groupId, roleId) := by
  have hgroup : ∀ {t : Table GroupRole GroupRole.key} {gr : GroupRole},
      t.get (groupId, roleId) = some gr → gr.groupId = groupId :=
    fun hget => congrArg Prod.fst (Table.key_of_get hget)
  refine h.agree.groupRoles.get_eq (fun gr hgr => ?_) fun gr hgr => ?_
  · rw [hgroup hgr]
    exact hown
  · rw [hgroup hgr]
    exact groupTenant_twin h hown

/-- A group of the tenant with a name, other than a given one. -/
theorem groupClash_twin {name groupId : String} :
    db.groups.first? (fun g => g.tenantId == tenantId && g.name == name && g.groupId != groupId) =
      db'.groups.first? fun g =>
        g.tenantId == tenantId && g.name == name && g.groupId != groupId := by
  have hown : ∀ g : Group, (g.tenantId == tenantId && g.name == name && g.groupId != groupId) =
      true → g.tenantId = tenantId ∧ g.name = name := by
    intro g hg
    simp only [Bool.and_eq_true, beq_iff_eq] at hg
    exact hg.1
  have hone : ∀ {dir : Directory}, Constraints dir → ∀ g ∈ dir.groups, ∀ g' ∈ dir.groups,
      (g.tenantId == tenantId && g.name == name && g.groupId != groupId) = true →
      (g'.tenantId == tenantId && g'.name == name && g'.groupId != groupId) = true → g = g' := by
    intro dir hunique g hg g' hg' hp hp'
    exact hunique.groups g hg g' hg' (Prod.ext ((hown g hp).1.trans (hown g' hp').1.symm)
      ((hown g hp).2.trans (hown g' hp').2.symm))
  exact h.agree.groups.first?_eq (fun g _ hg => (hown g hg).1) (fun g _ hg => (hown g hg).1)
    (hone h.constraints) (hone h.constraints')

/-- A role with a name on an application of the tenant, other than a given one. -/
theorem roleClash_twin {applicationId name roleId : String}
    (hown : db.applicationTenant applicationId = some tenantId)
    (hown' : db'.applicationTenant applicationId = some tenantId) :
    db.roles.first? (fun r => r.applicationId == applicationId && r.name == name &&
        r.roleId != roleId) =
      db'.roles.first? fun r => r.applicationId == applicationId && r.name == name &&
        r.roleId != roleId := by
  have happ : ∀ r : Role, (r.applicationId == applicationId && r.name == name &&
      r.roleId != roleId) = true → r.applicationId = applicationId ∧ r.name = name := by
    intro r hr
    simp only [Bool.and_eq_true, beq_iff_eq] at hr
    exact hr.1
  have hone : ∀ {dir : Directory}, Constraints dir → ∀ r ∈ dir.roles, ∀ r' ∈ dir.roles,
      (r.applicationId == applicationId && r.name == name && r.roleId != roleId) = true →
      (r'.applicationId == applicationId && r'.name == name && r'.roleId != roleId) = true →
        r = r' := by
    intro dir hunique r hr r' hr' hp hp'
    exact hunique.roles r hr r' hr' (Prod.ext ((happ r hp).1.trans (happ r' hp').1.symm)
      ((happ r hp).2.trans (happ r' hp').2.symm))
  -- roles are of the tenant of their application
  have htenant : ∀ {dir : Directory}, Owned dir →
      dir.applicationTenant applicationId = some tenantId → ∀ r ∈ dir.roles,
      (r.applicationId == applicationId && r.name == name && r.roleId != roleId) = true →
        r.tenantId = tenantId := by
    intro dir howned hdir r hr hp
    have howner := howned.roles r hr
    rw [(happ r hp).1, hdir] at howner
    exact (Option.some.inj howner).symm
  exact h.agree.roles.first?_eq (htenant h.owned hown) (htenant h.owned' hown')
    (hone h.constraints) (hone h.constraints')

theorem ownPermission_twin {permissionId : String} :
    ownPermission db.toDirectory tenantId permissionId =
      ownPermission db'.toDirectory tenantId permissionId := by
  have hiff : ∀ {dir : Directory} {p : Permission}, ((dir.applications.get p.applicationId).filter
      fun a => a.tenantId == tenantId).isSome = true ↔
        dir.applicationTenant p.applicationId = some tenantId := isSome_filter_iff
  exact h.agree.permissions.get_filter (fun _ => hiff) fun _ => hiff

end Reading

/-! ## Both runs at once -/

/-- What holds of the states of both runs: they are twins, and nothing of another
tenant has changed since the start. -/
structure Blind (tenantId : String) (start : Db × Db) (db db' : Db) : Prop where
  twin : Twin tenantId db db'
  others : ∀ other, other ≠ tenantId → Agree other start.1 db
  others' : ∀ other, other ≠ tenantId → Agree other start.2 db'

/-- Besides, the call knows something of both. -/
def Under (tenantId : String) (start : Db × Db) (K : Directory → Prop) (db db' : Db) : Prop :=
  Blind tenantId start db db' ∧ K db.toDirectory ∧ K db'.toDirectory

/-- Blind, whatever else is known. -/
abbrev Unknowing (tenantId : String) (start : Db × Db) : Db → Db → Prop :=
  Under tenantId start fun _ => True

variable {env : Env} {d : Draws} {op : Operator} {start : Db × Db} {K J : Directory → Prop}
  {α β : Type}

theorem Under.mono (h : Under tenantId start K db db') (hK : ∀ dir, K dir → J dir) :
    Under tenantId start J db db' := ⟨h.1, hK _ h.2.1, hK _ h.2.2⟩

section Rules

/-- Forget, or conclude from, what is known. -/
theorem coupled_known {m : App α} {Q : α → Db → Db → Prop}
    (hK : ∀ dir, Owned dir → K dir → J dir) (h : Coupled (Under tenantId start J) m Q) :
    Coupled (Under tenantId start K) m Q := by
  refine h.mono ?_ fun _ _ _ hq => hq
  rintro db db' ⟨hblind, hk, hk'⟩
  exact ⟨hblind, hK _ hblind.twin.owned hk, hK _ hblind.twin.owned' hk'⟩

/-- A statement on the tenant's rows. -/
theorem coupled_mine {w : DirectoryWrite} (hmine : ∀ dir, K dir → Mine tenantId dir w)
    (hK : ∀ dir, Mine tenantId dir w → K dir → J (w.effect dir)) :
    Coupled (Under tenantId start K) (onDirectory w) fun _ => Under tenantId start J := by
  refine coupled_execute ?_
  rintro db db' ⟨hblind, hk, hk'⟩
  have hw := hmine _ hk
  have hw' := hmine _ hk'
  have hsame := violates_twin hblind.twin hw hw'
  refine ⟨hsame, fun haccepted => ⟨⟨twin_effect hblind.twin hw hw' haccepted, ?_, ?_⟩,
    hK _ hw hk, hK _ hw' hk'⟩⟩
  · intro other hother
    exact (hblind.others other hother).trans
      (others_effect hw haccepted hother hblind.twin.owned)
  · intro other hother
    exact (hblind.others' other hother).trans
      (others_effect hw' (hsame.symm.trans haccepted) hother hblind.twin.owned')

/-- A statement that leaves what is known as it is. -/
theorem coupled_mine_keeps {w : DirectoryWrite} (hmine : ∀ dir, K dir → Mine tenantId dir w)
    (hK : ∀ dir, Mine tenantId dir w → K dir → K (w.effect dir)) :
    Coupled (Under tenantId start K) (onDirectory w) fun _ => Under tenantId start K :=
  coupled_mine hmine hK

/-- Reading what twins have in common. -/
theorem coupled_look {f : Directory → α} (h : ∀ db db' : Db, Twin tenantId db db' →
      K db.toDirectory → K db'.toDirectory → f db.toDirectory = f db'.toDirectory) :
    Coupled (Under tenantId start K) (read fun db : Db => f db.toDirectory : App α)
      fun a => Under tenantId start fun dir => K dir ∧ f dir = a := by
  refine coupled_read ?_
  rintro db db' ⟨hblind, hk, hk'⟩
  have hsame := h db db' hblind.twin hk hk'
  exact ⟨hsame, hblind, ⟨hk, rfl⟩, hk', hsame.symm⟩

/-- An answer that is read off the tenant's rows. -/
theorem coupled_show {f : Db → α} (h : ∀ db db', Twin tenantId db db' →
      K db.toDirectory → K db'.toDirectory → f db = f db') :
    Coupled (Under tenantId start K) (read f : App α) fun _ => Unknowing tenantId start := by
  refine coupled_read ?_
  rintro db db' ⟨hblind, hk, hk'⟩
  exact ⟨h db db' hblind.twin hk hk', hblind, trivial, trivial⟩

theorem coupled_unless {c : Prop} [Decidable c] {e : HTTPException} :
    Coupled (Under tenantId start K) (raiseIf c e : App Unit) fun _ =>
      Under tenantId start fun dir => K dir ∧ ¬ c := by
  refine coupled_raiseIf fun hc db db' h => ?_
  exact h.mono fun dir hk => ⟨hk, hc⟩

/-- An update that is made when the request asks for it. -/
theorem coupled_ifSome_mine {o : Option β} {w : β → DirectoryWrite}
    (hmine : ∀ b, o = some b → ∀ dir, K dir → Mine tenantId dir (w b))
    (hK : ∀ b dir, Mine tenantId dir (w b) → K dir → K ((w b).effect dir)) :
    Coupled (Under tenantId start K) (ifSome o fun b => onDirectory (w b))
      fun _ => Under tenantId start K :=
  coupled_ifSome (fun b hb => coupled_mine_keeps (hmine b hb) (hK b)) fun _ _ h => h

theorem coupled_when_mine {c : Prop} [Decidable c] {w : DirectoryWrite}
    (hmine : c → ∀ dir, K dir → Mine tenantId dir w)
    (hK : ∀ dir, Mine tenantId dir w → K dir → K (w.effect dir)) :
    Coupled (Under tenantId start K) (when c (onDirectory w)) fun _ => Under tenantId start K :=
  coupled_when (fun hc => coupled_mine_keeps (hmine hc) hK) fun _ _ _ h => h

/-! Lookups: a row of another tenant is not found, like a row that is not there. -/

theorem coupled_find {ρ : Type} (find : Directory → Option ρ) {own : ρ → Bool}
    {e : HTTPException} (h : ∀ db db' : Db, Twin tenantId db db' →
      (find db.toDirectory).filter own = (find db'.toDirectory).filter own) :
    Coupled (Under tenantId start K)
      (do
        let row ← read fun db : Db => find db.toDirectory
        require (row.filter own) e : App ρ)
      fun row => Under tenantId start fun dir => K dir ∧ find dir = some row ∧ own row = true := by
  show Coupled _ (do
    let row ← read fun db : Db => (find db.toDirectory).filter own
    require row e : App ρ) _
  refine coupled_bind (coupled_look (f := fun dir => (find dir).filter own)
    fun db db' htwin _ _ => h db db' htwin) fun found =>
      coupled_require fun row hrow db db' hu => ?_
  refine hu.mono fun dir hk => ⟨hk.1, ?_⟩
  exact Option.filter_eq_some_iff.mp (hk.2.trans hrow)

theorem coupled_requireUser {userId : String} :
    Coupled (Under tenantId start K) (requireUser tenantId userId) fun row =>
      Under tenantId start fun dir => K dir ∧ dir.users.get userId = some row ∧
        (row.tenantId == tenantId) = true :=
  coupled_find (fun dir => dir.users.get userId) fun _ _ h =>
    h.agree.users.get_filter (fun _ => beq_iff_eq) fun _ => beq_iff_eq

theorem coupled_requireApplication {applicationId : String} :
    Coupled (Under tenantId start K) (requireApplication tenantId applicationId) fun row =>
      Under tenantId start fun dir => K dir ∧ dir.applications.get applicationId = some row ∧
        (row.tenantId == tenantId) = true :=
  coupled_find (fun dir => dir.applications.get applicationId) fun _ _ h =>
    h.agree.applications.get_filter (fun _ => beq_iff_eq) fun _ => beq_iff_eq

theorem coupled_requireGroup {groupId : String} :
    Coupled (Under tenantId start K) (requireGroup tenantId groupId) fun row =>
      Under tenantId start fun dir => K dir ∧ dir.groups.get groupId = some row ∧
        (row.tenantId == tenantId) = true :=
  coupled_find (fun dir => dir.groups.get groupId) fun _ _ h =>
    h.agree.groups.get_filter (fun _ => beq_iff_eq) fun _ => beq_iff_eq

theorem coupled_requireRole {roleId : String} :
    Coupled (Under tenantId start K) (requireRole tenantId roleId) fun row =>
      Under tenantId start fun dir => K dir ∧ dir.roles.get roleId = some row ∧
        (row.tenantId == tenantId) = true :=
  coupled_find (fun dir => dir.roles.get roleId) fun _ _ h =>
    h.agree.roles.get_filter (fun _ => beq_iff_eq) fun _ => beq_iff_eq

theorem coupled_requireTenant :
    Coupled (Under tenantId start K) (requireTenant tenantId) fun row =>
      Under tenantId start fun dir => K dir ∧ dir.tenants.get tenantId = some row := by
  refine coupled_bind (coupled_look (f := fun dir => dir.tenants.get tenantId)
    fun db db' h _ _ => ?_) fun found => coupled_require fun row hrow db db' hu => ?_
  · exact h.agree.tenants.get_eq (fun _ => Table.key_of_get) fun _ => Table.key_of_get
  · exact hu.mono fun dir hk => ⟨hk.1, hk.2.trans hrow⟩

/-! What a row that was found says of its id. -/

theorem userTenant_of_row {dir : Directory} {userId : String} {row : User}
    (h : dir.users.get userId = some row ∧ (row.tenantId == tenantId) = true) :
    dir.userTenant userId = some tenantId := by
  rw [Directory.userTenant, h.1, Option.map_some, beq_iff_eq.mp h.2]

theorem applicationTenant_of_row {dir : Directory} {applicationId : String} {row : Application}
    (h : dir.applications.get applicationId = some row ∧ (row.tenantId == tenantId) = true) :
    dir.applicationTenant applicationId = some tenantId := by
  rw [Directory.applicationTenant, h.1, Option.map_some, beq_iff_eq.mp h.2]

theorem groupTenant_of_row {dir : Directory} {groupId : String} {row : Group}
    (h : dir.groups.get groupId = some row ∧ (row.tenantId == tenantId) = true) :
    dir.groupTenant groupId = some tenantId := by
  rw [Directory.groupTenant, h.1, Option.map_some, beq_iff_eq.mp h.2]

theorem roleTenant_of_row {dir : Directory} {roleId : String} {row : Role}
    (h : dir.roles.get roleId = some row ∧ (row.tenantId == tenantId) = true) :
    dir.roleTenant roleId = some tenantId := by
  rw [Directory.roleTenant, h.1, Option.map_some, beq_iff_eq.mp h.2]

/-! The object as it stands, which most calls answer with. -/

theorem coupled_refreshUser {userId : String} :
    Coupled (Under op.tenantId start K) (refreshUser op userId) fun _ =>
      Unknowing op.tenantId start := by
  refine coupled_bind coupled_requireUser fun row => coupled_show fun db db' h hk _ => ?_
  exact userPublicOf_twin h (Table.mem_of_get hk.2.1) (beq_iff_eq.mp hk.2.2)

theorem coupled_refreshApplication {applicationId : String} :
    Coupled (Under op.tenantId start K) (refreshApplication op applicationId) fun _ =>
      Unknowing op.tenantId start := by
  refine coupled_bind coupled_requireApplication fun row => coupled_pure fun db db' h => ?_
  exact h.mono fun _ _ => trivial

theorem coupled_refreshGroup {groupId : String} :
    Coupled (Under op.tenantId start K) (refreshGroup op groupId) fun _ =>
      Unknowing op.tenantId start := by
  refine coupled_bind coupled_requireGroup fun row => coupled_show fun db db' h hk _ => ?_
  exact groupDetail_twin h (Table.mem_of_get hk.2.1) (beq_iff_eq.mp hk.2.2)

theorem coupled_refreshRole {roleId : String} :
    Coupled (Under op.tenantId start K) (refreshRole op roleId) fun _ =>
      Unknowing op.tenantId start := by
  refine coupled_bind coupled_requireRole fun row => coupled_show fun db db' h hk _ => ?_
  exact roleDetail_twin h (Table.mem_of_get hk.2.1) (beq_iff_eq.mp hk.2.2)

end Rules

end RbaIdp
