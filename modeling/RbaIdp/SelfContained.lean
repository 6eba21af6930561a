import RbaIdp.Effects.Serve

/-!
# A created tenant and its console

The creation of a tenant derives the ids of its console, roles, group and
permissions from the tenant's id, and takes whatever row it finds under one of
them.  Application, role and group ids are chosen freely by the operators of
every tenant, and the ids of permissions are derived from applications', so a
row of another tenant can be waiting there.

`selfContained_iff` says that this is the only thing that can go wrong: the new
tenant is self-contained exactly when the derived ids were free.
-/

namespace RbaIdp

open Relational Program

/-! ## What is asked of a created tenant -/

/-- A role carries exactly the given scopes of an application. -/
structure RoleCarries (db : Directory) (roleId applicationId : String) (scopes : List Scope) :
    Prop where
  only : ∀ rp ∈ db.rolePermissions, rp.roleId = roleId →
    ∃ p, db.permissions.get rp.permissionId = some p ∧ p.applicationId = applicationId ∧
      (p.resource, p.operation) ∈ scopes
  all : ∀ s ∈ scopes, ∃ p ∈ db.permissions, p.applicationId = applicationId ∧
    (p.resource, p.operation) = s ∧ ⟨roleId, p.permissionId⟩ ∈ db.rolePermissions

/-- The rows of other tenants are the rows they were.  An edge is another
tenant's when one of its ends is. -/
structure Untouched (before after : Directory) (tenantId : String) : Prop where
  applications : ∀ a, a.tenantId ≠ tenantId → (a ∈ after.applications ↔ a ∈ before.applications)
  roles : ∀ r, r.tenantId ≠ tenantId → (r ∈ after.roles ↔ r ∈ before.roles)
  groups : ∀ g, g.tenantId ≠ tenantId → (g ∈ after.groups ↔ g ∈ before.groups)
  memberships : ∀ m, after.groupTenant m.groupId ≠ some tenantId →
    (m ∈ after.groupMemberships ↔ m ∈ before.groupMemberships)
  groupRoles : ∀ gr, (after.groupTenant gr.groupId ≠ some tenantId ∨
      ∀ applicationId, after.roleOwners gr.roleId ≠ some (tenantId, applicationId)) →
    (gr ∈ after.groupRoles ↔ gr ∈ before.groupRoles)
  rolePermissions : ∀ rp,
    (∀ applicationId, after.roleOwners rp.roleId ≠ some (tenantId, applicationId)) →
    (rp ∈ after.rolePermissions ↔ rp ∈ before.rolePermissions)

/-- A tenant's console and its admin group are its own. -/
structure OwnConsole (db : Directory) (tenantId consoleId groupId : String) : Prop where
  anchors : db.anchors tenantId = some (some consoleId, some groupId)
  console : db.applicationTenant consoleId = some tenantId
  adminGroup : db.groupTenant groupId = some tenantId
  members : ∀ m ∈ db.groupMemberships, m.groupId ≠ groupId
  holds : ∀ roleId, ⟨groupId, roleId⟩ ∈ db.groupRoles ↔ roleId = adminRoleId tenantId
  adminRole : db.roleOwners (adminRoleId tenantId) = some (tenantId, consoleId)
  adminScopes : RoleCarries db (adminRoleId tenantId) consoleId TENANT_ADMIN_SCOPES
  supportRole : db.roleOwners (supportRoleId tenantId) = some (tenantId, consoleId)
  supportScopes : RoleCarries db (supportRoleId tenantId) consoleId SUPPORT_SCOPES

/-- A tenant created between two states is self-contained: its console is its
own, and nothing of another tenant's was added, changed or reused. -/
structure SelfContained (before after : Directory) (tenantId : String) : Prop where
  own : ∃ consoleId groupId, OwnConsole after tenantId consoleId groupId
  others : Untouched before after tenantId

/-- The ids a console is made under are free. -/
structure FreeIds (db : Directory) (tenantId : String) : Prop where
  console : db.applications.get (consoleApplicationId tenantId) = none
  permissions : ∀ s ∈ TENANT_ADMIN_SCOPES,
    db.permissions.get (permissionId (consoleApplicationId tenantId) s) = none
  adminRole : db.roles.get (adminRoleId tenantId) = none
  supportRole : db.roles.get (supportRoleId tenantId) = none
  adminGroup : db.groups.get (adminGroupId tenantId) = none

instance (db : Directory) (tenantId : String) : Decidable (FreeIds db tenantId) :=
  decidable_of_iff
    (db.applications.get (consoleApplicationId tenantId) = none ∧
      (∀ s ∈ TENANT_ADMIN_SCOPES,
        db.permissions.get (permissionId (consoleApplicationId tenantId) s) = none) ∧
      db.roles.get (adminRoleId tenantId) = none ∧ db.roles.get (supportRoleId tenantId) = none ∧
      db.groups.get (adminGroupId tenantId) = none)
    ⟨fun ⟨hconsole, hpermissions, hadmin, hsupport, hgroup⟩ =>
      ⟨hconsole, hpermissions, hadmin, hsupport, hgroup⟩,
      fun h => ⟨h.console, h.permissions, h.adminRole, h.supportRole, h.adminGroup⟩⟩

variable {env : Env} {d : Draws} {body : CreateTenantRequest} {before db : Directory}
  {w : DirectoryWrite} {tenantId : String}

/-! ## Derived ids -/

theorem adminRoleId_ne_supportRoleId : adminRoleId tenantId ≠ supportRoleId tenantId := by
  rw [adminRoleId, supportRoleId, ne_eq, hyphensToUnderscores_append_inj]
  decide

/-- On one application, different scopes have permissions with different ids. -/
theorem permissionId_inj {applicationId : String} {s s' : Scope} (hs : s ∈ TENANT_ADMIN_SCOPES)
    (hs' : s' ∈ TENANT_ADMIN_SCOPES)
    (h : permissionId applicationId s = permissionId applicationId s') :
    s = s' := by
  have hends : ∀ s ∈ TENANT_ADMIN_SCOPES, ∀ s' ∈ TENANT_ADMIN_SCOPES,
      hyphensToUnderscores (s.1 ++ "_" ++ s.2) = hyphensToUnderscores (s'.1 ++ "_" ++ s'.2) →
      s = s' := by decide
  refine hends s hs s' hs' ?_
  -- the ids share everything but their ends
  simpa only [permissionId, String.append_assoc, hyphensToUnderscores_append_inj] using h

/-! ## While the tenant is created -/

/-- What the creation has written of a console stands under the derived ids and
is the new tenant's. -/
structure Growing (tenantId : String) (db : Directory) : Prop where
  applications : ∀ a ∈ db.applications, a.applicationId = consoleApplicationId tenantId →
    a.tenantId = tenantId
  permissions : ∀ p ∈ db.permissions, ∀ s ∈ TENANT_ADMIN_SCOPES,
    p.permissionId = permissionId (consoleApplicationId tenantId) s →
    p.applicationId = consoleApplicationId tenantId ∧ (p.resource, p.operation) = s
  roles : ∀ r ∈ db.roles, r.roleId = adminRoleId tenantId ∨ r.roleId = supportRoleId tenantId →
    r.tenantId = tenantId ∧ r.applicationId = consoleApplicationId tenantId
  adminScopes : ∀ rp ∈ db.rolePermissions, rp.roleId = adminRoleId tenantId →
    ∃ s ∈ TENANT_ADMIN_SCOPES, rp.permissionId = permissionId (consoleApplicationId tenantId) s
  supportScopes : ∀ rp ∈ db.rolePermissions, rp.roleId = supportRoleId tenantId →
    ∃ s ∈ SUPPORT_SCOPES, rp.permissionId = permissionId (consoleApplicationId tenantId) s
  groups : ∀ g ∈ db.groups, g.groupId = adminGroupId tenantId → g.tenantId = tenantId
  groupRoles : ∀ gr ∈ db.groupRoles, gr.groupId = adminGroupId tenantId →
    gr.roleId = adminRoleId tenantId

/-- Before the creation, nothing stands under the derived ids. -/
theorem growing_of_freeIds (hintegrity : Integrity db) (h : FreeIds db tenantId) :
    Growing tenantId db where
  applications a ha hid := absurd hid (Table.get_eq_none.mp h.console a ha)
  permissions p hp s hs hid := absurd hid (Table.get_eq_none.mp (h.permissions s hs) p hp)
  roles r hr hid := by
    rcases hid with hid | hid
    · exact absurd hid (Table.get_eq_none.mp h.adminRole r hr)
    · exact absurd hid (Table.get_eq_none.mp h.supportRole r hr)
  adminScopes rp hrp hid := by
    have hrole := hintegrity.rolePermissions rp hrp
    simp [hid, h.adminRole] at hrole
  supportScopes rp hrp hid := by
    have hrole := hintegrity.rolePermissions rp hrp
    simp [hid, h.supportRole] at hrole
  groups g hg hid := absurd hid (Table.get_eq_none.mp h.adminGroup g hg)
  groupRoles gr hgr hid := by
    have hgroup := (hintegrity.groupRoles gr hgr).1
    simp [hid, h.adminGroup] at hgroup

theorem growing_effect (hw : Founds env d body w) (h : Growing body.tenantId db) :
    Growing body.tenantId (w.effect db) := by
  constructor
  case applications =>
    intro a ha hid
    rcases mem_applications_effect ha with ⟨old, hold, hkey, htenant⟩ | rfl
    · rw [← htenant]
      exact h.applications old hold (hkey.trans hid)
    · exact hw.2
  case permissions =>
    intro p hp s hs hid
    rcases mem_permissions_effect hp with hold | rfl
    · exact h.permissions p hold s hs hid
    · obtain ⟨happ, s', hs', hscope, hid'⟩ := hw
      rw [permissionId_inj hs hs' (hid.symm.trans hid')]
      exact ⟨happ, hscope⟩
  case roles =>
    intro r hr hid
    rcases mem_roles_effect hr with hold | rfl
    · -- an edit may rename a role, so the old row has its owners and not more
      obtain ⟨old, hget, howners⟩ := Option.map_eq_some_iff.mp hold
      rw [Prod.mk.injEq] at howners
      rw [← howners.1, ← howners.2]
      exact h.roles old (Table.mem_of_get hget) (by rwa [Table.key_of_get hget])
    · exact hw.2
  case adminScopes =>
    intro rp hrp hid
    rcases mem_rolePermissions_effect hrp with hold | rfl
    · exact h.adminScopes rp hold hid
    · rcases hw with ⟨-, hscope⟩ | ⟨hsupport, -⟩
      · exact hscope
      · exact absurd (hid.symm.trans hsupport) adminRoleId_ne_supportRoleId
  case supportScopes =>
    intro rp hrp hid
    rcases mem_rolePermissions_effect hrp with hold | rfl
    · exact h.supportScopes rp hold hid
    · rcases hw with ⟨hadmin, -⟩ | ⟨-, hscope⟩
      · exact absurd (hadmin.symm.trans hid) adminRoleId_ne_supportRoleId
      · exact hscope
  case groups =>
    intro g hg hid
    rcases mem_groups_effect hg with ⟨old, hold, hkey, htenant⟩ | rfl
    · rw [← htenant]
      exact h.groups old hold (hkey.trans hid)
    · exact hw.2
  case groupRoles =>
    intro gr hgr hid
    rcases mem_groupRoles_effect hgr with hold | rfl
    · exact h.groupRoles gr hold hid
    · rw [hw]

/-- What the creation leaves alone. -/
structure Beside (tenantId : String) (before db : Directory) : Prop where
  applications : ∀ a, a.tenantId ≠ tenantId → (a ∈ db.applications ↔ a ∈ before.applications)
  roles : ∀ r, r.tenantId ≠ tenantId → (r ∈ db.roles ↔ r ∈ before.roles)
  groups : ∀ g, g.tenantId ≠ tenantId → (g ∈ db.groups ↔ g ∈ before.groups)
  memberships : ∀ m, m ∈ db.groupMemberships ↔ m ∈ before.groupMemberships
  groupRoles : ∀ gr, gr ≠ ⟨adminGroupId tenantId, adminRoleId tenantId⟩ →
    (gr ∈ db.groupRoles ↔ gr ∈ before.groupRoles)
  rolePermissions : ∀ rp, rp.roleId ≠ adminRoleId tenantId → rp.roleId ≠ supportRoleId tenantId →
    (rp ∈ db.rolePermissions ↔ rp ∈ before.rolePermissions)

theorem beside_refl : Beside tenantId db db := by
  constructor <;> intros <;> rfl

theorem beside_effect (hw : Founds env d body w) (hgrowing : Growing body.tenantId db)
    (h : Beside body.tenantId before db) : Beside body.tenantId before (w.effect db) := by
  constructor
  case applications =>
    intro a ha
    rw [← h.applications a ha]
    cases w with
    | insertApplication row => exact Table.mem_insert_of_ne fun heq => ha (heq ▸ hw.2)
    | setApplicationClientId applicationId clientId =>
        -- the console is the only application that gets a client id, and it is the tenant's
        simp only [DirectoryWrite.effect, Directory.updateApplication]
        refine Table.mem_modify_of_ne fun s hs hid => ?_
        have hown := hgrowing.applications s hs ((beq_iff_eq.mp hid).trans hw)
        exact ⟨fun heq => ha (heq ▸ hown), fun heq => ha (by rw [← heq]; exact hown)⟩
    | _ => first | exact hw.elim | rfl
  case roles =>
    intro r hr
    rw [← h.roles r hr]
    cases w with
    | insertRole row => exact Table.mem_insert_of_ne fun heq => hr (heq ▸ hw.2.1)
    | _ => first | exact hw.elim | rfl
  case groups =>
    intro g hg
    rw [← h.groups g hg]
    cases w with
    | insertGroup row => exact Table.mem_insert_of_ne fun heq => hg (heq ▸ hw.2)
    | _ => first | exact hw.elim | rfl
  case memberships =>
    intro m
    rw [← h.memberships m]
    cases w with
    | _ => first | exact hw.elim | rfl
  case groupRoles =>
    intro gr hgr
    rw [← h.groupRoles gr hgr]
    cases w with
    | insertGroupRole row => exact Table.mem_insert_of_ne fun heq => hgr (heq.trans hw)
    | _ => first | exact hw.elim | rfl
  case rolePermissions =>
    intro rp hadmin hsupport
    rw [← h.rolePermissions rp hadmin hsupport]
    cases w with
    | insertRolePermission row =>
        refine Table.mem_insert_of_ne fun heq => ?_
        rcases hw with ⟨hid, -⟩ | ⟨hid, -⟩
        · exact hadmin (heq ▸ hid)
        · exact hsupport (heq ▸ hid)
    | _ => first | exact hw.elim | rfl

/-! ## When the ids were free -/

theorem adminPermission_mem_consoleRows {s : Scope} (hs : s ∈ TENANT_ADMIN_SCOPES) :
    .rolePermission ⟨adminRoleId tenantId, permissionId (consoleApplicationId tenantId) s⟩ ∈
      consoleRows tenantId := by
  simp only [consoleRows, roleRows, List.mem_append, List.mem_map]
  exact Or.inl (Or.inl (Or.inr (Or.inl ⟨s, hs, rfl⟩)))

/-- A permission of the console, where everything is there. -/
theorem permission_of_growing (hgrowing : Growing tenantId db) (h : Established tenantId db)
    {s : Scope} (hs : s ∈ TENANT_ADMIN_SCOPES) :
    ∃ p, db.permissions.get (permissionId (consoleApplicationId tenantId) s) = some p ∧
      p.applicationId = consoleApplicationId tenantId ∧ (p.resource, p.operation) = s := by
  have hpresent :
      Row.Present db (.permission (permissionId (consoleApplicationId tenantId) s)) := by
    refine h.rows _ ?_
    simp only [consoleRows, List.mem_append, List.mem_map]
    exact Or.inl (Or.inr ⟨s, hs, rfl⟩)
  obtain ⟨p, hp⟩ := Option.isSome_iff_exists.mp hpresent
  exact ⟨p, hp, hgrowing.permissions p (Table.mem_of_get hp) s hs (Table.key_of_get hp)⟩

theorem roleOwners_of_growing (hgrowing : Growing tenantId db) {roleId : String}
    (hrole : roleId = adminRoleId tenantId ∨ roleId = supportRoleId tenantId)
    (hpresent : Row.Present db (.role roleId)) :
    db.roleOwners roleId = some (tenantId, consoleApplicationId tenantId) := by
  obtain ⟨r, hr⟩ := Option.isSome_iff_exists.mp hpresent
  have hkey : r.roleId = roleId := Table.key_of_get hr
  obtain ⟨htenant, happ⟩ := hgrowing.roles r (Table.mem_of_get hr) (by rwa [hkey])
  simp [Directory.roleOwners, hr, htenant, happ]

theorem roleCarries_of_growing (hgrowing : Growing tenantId db) (h : Established tenantId db)
    {roleId : String} {scopes : List Scope} (hsub : scopes ⊆ TENANT_ADMIN_SCOPES)
    (honly : ∀ rp ∈ db.rolePermissions, rp.roleId = roleId →
      ∃ s ∈ scopes, rp.permissionId = permissionId (consoleApplicationId tenantId) s)
    (hall : ∀ s ∈ scopes, Row.Present db
      (.rolePermission ⟨roleId, permissionId (consoleApplicationId tenantId) s⟩)) :
    RoleCarries db roleId (consoleApplicationId tenantId) scopes where
  only rp hrp hid := by
    obtain ⟨s, hs, hpermission⟩ := honly rp hrp hid
    obtain ⟨p, hp, happ, hscope⟩ := permission_of_growing hgrowing h (hsub hs)
    exact ⟨p, by rwa [hpermission], happ, by rwa [hscope]⟩
  all s hs := by
    obtain ⟨p, hp, happ, hscope⟩ := permission_of_growing hgrowing h (hsub hs)
    have hkey : p.permissionId = permissionId (consoleApplicationId tenantId) s :=
      Table.key_of_get hp
    exact ⟨p, Table.mem_of_get hp, happ, hscope, by rw [hkey]; exact hall s hs⟩

/-- What the creation established is the new tenant's own, if what stands under
the derived ids is. -/
theorem ownConsole_of_growing (hgrowing : Growing tenantId db) (h : Established tenantId db)
    (hmembers : ∀ m ∈ db.groupMemberships, m.groupId ≠ adminGroupId tenantId) :
    OwnConsole db tenantId (consoleApplicationId tenantId) (adminGroupId tenantId) where
  anchors := h.anchors
  console := by
    obtain ⟨a, ha⟩ := Option.isSome_iff_exists.mp
      (h.rows (.application (consoleApplicationId tenantId)) (by simp [consoleRows]))
    have hown := hgrowing.applications a (Table.mem_of_get ha) (Table.key_of_get ha)
    simp [Directory.applicationTenant, ha, hown]
  adminGroup := by
    obtain ⟨g, hg⟩ := Option.isSome_iff_exists.mp
      (h.rows (.group (adminGroupId tenantId)) (by simp [consoleRows]))
    have hown := hgrowing.groups g (Table.mem_of_get hg) (Table.key_of_get hg)
    simp [Directory.groupTenant, hg, hown]
  members := hmembers
  holds roleId := by
    constructor
    · intro hmem
      exact hgrowing.groupRoles _ hmem rfl
    · rintro rfl
      exact h.rows (.groupRole ⟨adminGroupId tenantId, adminRoleId tenantId⟩)
        (by simp [consoleRows])
  adminRole :=
    roleOwners_of_growing hgrowing (Or.inl rfl) (h.rows _ (by simp [consoleRows, roleRows]))
  adminScopes := roleCarries_of_growing hgrowing h (fun _ hs => hs) hgrowing.adminScopes
    fun _ hs => h.rows _ (adminPermission_mem_consoleRows hs)
  supportRole := roleOwners_of_growing hgrowing (Or.inr rfl)
    (h.rows _ (by simp [consoleRows, roleRows]))
  supportScopes := roleCarries_of_growing hgrowing h (by decide) hgrowing.supportScopes
    fun s hs => h.rows _ (by
      simp only [consoleRows, roleRows, List.mem_append, List.mem_map]
      exact Or.inl (Or.inl (Or.inl (Or.inr (Or.inl ⟨s, hs, rfl⟩)))))

/-- An edge that the creation may have added is the new tenant's at both ends. -/
theorem untouched_of_beside (h : Beside tenantId before db)
    (hown : OwnConsole db tenantId (consoleApplicationId tenantId) (adminGroupId tenantId)) :
    Untouched before db tenantId where
  applications := h.applications
  roles := h.roles
  groups := h.groups
  memberships m _ := h.memberships m
  groupRoles gr hother := by
    refine h.groupRoles gr ?_
    rintro rfl
    rcases hother with hgroup | hrole
    · exact hgroup hown.adminGroup
    · exact hrole _ hown.adminRole
  rolePermissions rp hother := by
    refine h.rolePermissions rp (fun hid => ?_) fun hid => ?_
    · exact hother _ (by rw [hid]; exact hown.adminRole)
    · exact hother _ (by rw [hid]; exact hown.supportRole)

theorem selfContained_of_freeIds {before after : Db} {ws : List Write}
    (hintegrity : Integrity before.toDirectory)
    (path : Path (Founding env d body) before ws after)
    (hestablished : Established body.tenantId after.toDirectory)
    (hfree : FreeIds before.toDirectory body.tenantId) :
    SelfContained before.toDirectory after.toDirectory body.tenantId := by
  have hpath : Growing body.tenantId after.toDirectory ∧
      Beside body.tenantId before.toDirectory after.toDirectory := by
    refine path.invariant (I := fun db => Growing body.tenantId db.toDirectory ∧
      Beside body.tenantId before.toDirectory db.toDirectory) (fun db w hdb hallowed _ => ?_)
      ⟨growing_of_freeIds hintegrity hfree, beside_refl⟩
    obtain ⟨edit, rfl, hw⟩ := hallowed
    exact ⟨growing_effect hw hdb.1, beside_effect hw hdb.1 hdb.2⟩
  obtain ⟨hgrowing, hbeside⟩ := hpath
  have hown := ownConsole_of_growing hgrowing hestablished fun m hm hid => by
    have hgroup := hintegrity.memberships m ((hbeside.memberships m).mp hm)
    simp [hid, hfree.adminGroup] at hgroup
  exact ⟨⟨_, _, hown⟩, untouched_of_beside hbeside hown⟩

/-! ## When one was taken -/

/-- A row of an application that was there before the tenant is another
tenant's, and stays it. -/
theorem application_of_other {before after : Db} {ws : List Write}
    (hintegrity : Integrity before.toDirectory) (hnew : before.tenants.get body.tenantId = none)
    (path : Path (Founding env d body) before ws after) {a : Application}
    (ha : a ∈ before.applications) :
    after.applicationTenant a.applicationId ≠ some body.tenantId := by
  have hkept : after.applicationTenant a.applicationId = some a.tenantId := by
    refine path.invariant (I := fun db => db.applicationTenant a.applicationId = some a.tenantId)
      (fun db w hdb hallowed _ => ?_) (by simp [Directory.applicationTenant, Table.get_of_mem ha])
    obtain ⟨edit, rfl, -⟩ := hallowed
    exact applicationTenant_effect hdb
  intro hown
  have htenant := hintegrity.applications a ha
  rw [Option.some.inj (hkept.symm.trans hown), hnew] at htenant
  simp at htenant

theorem group_of_other {before after : Db} {ws : List Write}
    (hintegrity : Integrity before.toDirectory) (hnew : before.tenants.get body.tenantId = none)
    (path : Path (Founding env d body) before ws after) {g : Group} (hg : g ∈ before.groups) :
    after.groupTenant g.groupId ≠ some body.tenantId := by
  have hkept : after.groupTenant g.groupId = some g.tenantId := by
    refine path.invariant (I := fun db => db.groupTenant g.groupId = some g.tenantId)
      (fun db w hdb hallowed _ => ?_) (by simp [Directory.groupTenant, Table.get_of_mem hg])
    obtain ⟨edit, rfl, hw⟩ := hallowed
    exact groupTenant_effect (by rintro rfl; exact hw) hdb
  intro hown
  have htenant := hintegrity.groups g hg
  rw [Option.some.inj (hkept.symm.trans hown), hnew] at htenant
  simp at htenant

theorem role_of_other {before after : Db} {ws : List Write}
    (hintegrity : Integrity before.toDirectory) (hnew : before.tenants.get body.tenantId = none)
    (path : Path (Founding env d body) before ws after) {r : Role} (hr : r ∈ before.roles)
    (applicationId : String) : after.roleOwners r.roleId ≠ some (body.tenantId, applicationId) := by
  have hkept : after.roleOwners r.roleId = some (r.tenantId, r.applicationId) := by
    refine path.invariant (I := fun db =>
      db.roleOwners r.roleId = some (r.tenantId, r.applicationId)) (fun db w hdb hallowed _ => ?_)
      (by simp [Directory.roleOwners, Table.get_of_mem hr])
    obtain ⟨edit, rfl, hw⟩ := hallowed
    exact roleOwners_effect (by rintro rfl; exact hw) hdb
  intro hown
  have howners := Option.some.inj (hkept.symm.trans hown)
  rw [Prod.mk.injEq] at howners
  have htenant := hintegrity.roles r hr
  rw [howners.1, hnew] at htenant
  simp at htenant

/-- A permission that was there before stays on its application. -/
theorem permission_kept {before after : Db} {ws : List Write}
    (path : Path (Founding env d body) before ws after) {p : Permission}
    (hp : p ∈ before.permissions) :
    after.permissionApplication p.permissionId = some p.applicationId := by
  refine path.invariant (I := fun db =>
    db.permissionApplication p.permissionId = some p.applicationId) (fun db w hdb hallowed _ => ?_)
    (by simp [Directory.permissionApplication, Table.get_of_mem hp])
  obtain ⟨edit, rfl, -⟩ := hallowed
  exact permissionApplication_effect hdb

theorem freeIds_of_selfContained {before after : Db} {ws : List Write}
    (hintegrity : Integrity before.toDirectory) (hnew : before.tenants.get body.tenantId = none)
    (path : Path (Founding env d body) before ws after)
    (hestablished : Established body.tenantId after.toDirectory)
    (h : SelfContained before.toDirectory after.toDirectory body.tenantId) :
    FreeIds before.toDirectory body.tenantId := by
  obtain ⟨consoleId, groupId, hown⟩ := h.own
  have hanchors := Option.some.inj (hown.anchors.symm.trans hestablished.anchors)
  simp only [Prod.mk.injEq, Option.some.injEq] at hanchors
  obtain ⟨rfl, rfl⟩ := hanchors
  -- a row that stood under a derived id is still its tenant's, and that is not the new one
  have hconsole : before.applications.get (consoleApplicationId body.tenantId) = none := by
    refine Table.get_eq_none.mpr fun a ha hid => ?_
    exact application_of_other hintegrity hnew path ha (by rw [hid]; exact hown.console)
  refine ⟨hconsole, fun s hs => ?_, ?_, ?_, ?_⟩
  · refine Table.get_eq_none.mpr fun p hp hid => ?_
    -- the admin role carries this permission, and it is on an application of before
    have hcarried : Row.Present after.toDirectory (.rolePermission ⟨adminRoleId body.tenantId,
        permissionId (consoleApplicationId body.tenantId) s⟩) :=
      hestablished.rows _ (adminPermission_mem_consoleRows hs)
    obtain ⟨q, hq, happ, -⟩ := hown.adminScopes.only _ hcarried rfl
    have hkept := permission_kept path hp
    rw [hid, Directory.permissionApplication, hq, Option.map_some, happ] at hkept
    have hstood := hintegrity.permissions p hp
    rw [← Option.some.inj hkept, hconsole] at hstood
    simp at hstood
  · refine Table.get_eq_none.mpr fun r hr hid => ?_
    exact role_of_other hintegrity hnew path hr _ (by rw [hid]; exact hown.adminRole)
  · refine Table.get_eq_none.mpr fun r hr hid => ?_
    exact role_of_other hintegrity hnew path hr _ (by rw [hid]; exact hown.supportRole)
  · refine Table.get_eq_none.mpr fun g hg hid => ?_
    exact group_of_other hintegrity hnew path hg (by rw [hid]; exact hown.adminGroup)

/-! ## Any run -/

/-- The state the seed leaves in an empty database. -/
def seeded (env : Env) (d : Draws) : Db := ((seedIdentity env d).run ⟨Db.empty, [], []⟩).2.db

theorem integrity_seeded (env : Env) (d : Draws) : Integrity (seeded env d).toDirectory := by
  unfold seeded
  exact run_invariant (I := fun db => Integrity db.toDirectory) integrity_invariant
    (seedIdentity env d) (t := ⟨Db.empty, [], []⟩) integrity_empty

theorem integrity_run {seed : Draws} {hist : List Served} {db : Db}
    (run : Run env (seeded env seed) hist db) : Integrity db.toDirectory :=
  run.invariant_of_writes (I := fun db => Integrity db.toDirectory) integrity_invariant
    (integrity_seeded env seed)

/-- **When a created tenant is self-contained.**  After any requests from the
seed on, a tenant whose creation succeeds is self-contained if and only if no
row stood under the ids its console is made under. -/
theorem selfContained_iff {seed : Draws} {hist : List Served} {db : Db}
    (run : Run env (seeded env seed) hist db) {op : Operator} {a : Answer}
    (hanswer : Served.answer env ⟨db, .admin op (.createTenant body), d⟩ = .ok a) :
    SelfContained db.toDirectory
        (Served.after env ⟨db, .admin op (.createTenant body), d⟩).toDirectory body.tenantId ↔
      FreeIds db.toDirectory body.tenantId := by
  have hintegrity := integrity_run run
  have hcreates : Creates env d body ⟨db, [], []⟩ (Served.outcome env
      ⟨db, .admin op (.createTenant body), d⟩).2 :=
    wp_of_ok (Q := fun _ => Creates env d body ⟨db, [], []⟩) (wp_answer wp_createTenant)
      (Prod.ext hanswer rfl)
  obtain ⟨ws, -, path⟩ := hcreates.founding
  exact ⟨freeIds_of_selfContained hintegrity hcreates.free path hcreates.established,
    selfContained_of_freeIds hintegrity path hcreates.established⟩

/-! ## A group that was waiting -/

/-- The state of a fresh installation. -/
def fresh : Db := seeded .standIn (.numbered 0)

/-- A tenant is created in a state by an operator of the platform. -/
def newcoCreated (db : Db) : Served :=
  ⟨db, .admin ⟨"usr_rs_juan", "rokusec", "rokusec", ∅, true⟩
    (.createTenant ⟨"newco", "Newco", [], none⟩), .numbered 2⟩

/-- Before it, an operator of a bank creates a group under the id of its future
admin group. -/
def groupWaiting : Served :=
  ⟨fresh, .admin ⟨"usr_rb_diego", "roku-bank", "roku-bank", ∅, false⟩
    (.createGroup ⟨some "grp_newco_admins", "Clientes nuevos", ""⟩), .numbered 1⟩

theorem newco_evaluated :
    FreeIds fresh.toDirectory "newco" ∧ ((newcoCreated fresh).answer .standIn).isOk ∧
      ((newcoCreated (groupWaiting.after .standIn)).answer .standIn).isOk ∧
      ((newcoCreated (groupWaiting.after .standIn)).after .standIn).anchors "newco" =
        some (some "newco-console", some "grp_newco_admins") ∧
      ((newcoCreated (groupWaiting.after .standIn)).after .standIn).groupTenant
        "grp_newco_admins" = some "roku-bank" := by
  decide +kernel

/-- In a fresh installation the ids are free. -/
theorem selfContained_newco :
    SelfContained fresh.toDirectory ((newcoCreated fresh).after .standIn).toDirectory "newco" := by
  obtain ⟨hfree, hok, -⟩ := newco_evaluated
  obtain ⟨a, hanswer⟩ := Served.answer_of_isOk .standIn hok
  exact (selfContained_iff .nil hanswer).mpr hfree

/-- With the group waiting, the tenant is created all the same, and its admin
group is the bank's. -/
theorem not_selfContained_newco :
    ∃ hist db op body d a, Run .standIn fresh hist db ∧
      Served.answer .standIn ⟨db, .admin op (.createTenant body), d⟩ = .ok a ∧
      ¬ SelfContained db.toDirectory
        (Served.after .standIn ⟨db, .admin op (.createTenant body), d⟩).toDirectory
        body.tenantId := by
  obtain ⟨-, -, hok, hanchors, hgroup⟩ := newco_evaluated
  obtain ⟨a, hanswer⟩ := Served.answer_of_isOk .standIn hok
  refine ⟨[groupWaiting], _, _, _, _, a, .cons .nil _ _, hanswer, fun h => ?_⟩
  obtain ⟨consoleId, groupId, hown⟩ := h.own
  have hsame := Option.some.inj (hown.anchors.symm.trans hanchors)
  simp only [Prod.mk.injEq, Option.some.injEq] at hsame
  have howner := hown.adminGroup
  rw [hsame.2] at howner
  have hnewco : "newco" = "roku-bank" := Option.some.inj (howner.symm.trans hgroup)
  exact absurd hnewco (by decide)

end RbaIdp
