import RbaIdp.Effects.Admin
import RbaIdp.Relational.Provision

/-!
# What the seed provides

`seed.py` as a provisioning: the entries of `seedRows`, in the order in which
`seed_identity` goes through them, with the statement that writes each.  An
address that is taken by another user is an entry that is there, and so are that
user's memberships: the seed leaves someone else's row alone.
-/

namespace RbaIdp

open Relational Program

/-- What the seed sees to, with what it is written under. -/
inductive SeedRow where
  | tenant (tenantId : String)
  | logo (tenantId : String)
  | domain (name tenantId : String)
  | application (applicationId tenantId : String)
  | redirect (applicationId : String)
  | permission (applicationId : String) (s : Scope)
  | role (roleId tenantId applicationId name : String)
  | rolePermission (roleId tenantId applicationId : String) (s : Scope)
  | group (groupId tenantId name : String)
  | groupRole (groupId roleId tenantId : String)
  | anchors (tenantId : String)
  | user (tenantId userId email : String) (isAdmin : Bool)
  | membership (tenantId userId email groupId : String)
deriving DecidableEq

/-! ## The entries -/

namespace SeedRow

def ofApplication (applicationId tenantId : String) : List SeedRow :=
  [application applicationId tenantId, redirect applicationId]

def ofRole (tenantId roleId applicationId name : String) (scopes : List Scope) : List SeedRow :=
  role roleId tenantId applicationId name ::
    scopes.map (rolePermission roleId tenantId applicationId)

def ofGroup (tenantId groupId name : String) (roleIds : List String) : List SeedRow :=
  group groupId tenantId name :: roleIds.map fun roleId => groupRole groupId roleId tenantId

def ofUser (tenantId userId email : String) (groupIds : List String) (isAdmin : Bool) :
    List SeedRow :=
  user tenantId userId email isAdmin :: groupIds.map (membership tenantId userId email)

/-- The entries of `bootstrapConsole`. -/
def ofConsole (tenantId : String) : List SeedRow :=
  ofApplication (consoleApplicationId tenantId) tenantId ++
    (CONSOLE_PERMISSIONS.map fun spec =>
      permission (consoleApplicationId tenantId) spec.scope) ++
    ofRole tenantId (adminRoleId tenantId) (consoleApplicationId tenantId) "tenant-admin"
      TENANT_ADMIN_SCOPES ++
    ofRole tenantId (supportRoleId tenantId) (consoleApplicationId tenantId) "support"
      SUPPORT_SCOPES ++
    ofGroup tenantId (adminGroupId tenantId) "Administradores" [adminRoleId tenantId] ++
    [anchors tenantId]

/-- The entries of `seedTenant`. -/
def ofTenant (spec : SeedTenant) : List SeedRow :=
  tenant spec.tenantId :: (spec.logo.toList.map fun _ => logo spec.tenantId) ++
    spec.domains.map (domain · spec.tenantId) ++
    ofConsole spec.tenantId ++
    (spec.apps.flatMap fun app => ofApplication app.applicationId spec.tenantId) ++
    (spec.permissions.flatMap fun rows => rows.2.map fun row => permission rows.1 row.scope) ++
    (spec.roles.flatMap fun role =>
      ofRole spec.tenantId role.roleId role.applicationId role.name role.scopes) ++
    (spec.groups.flatMap fun group =>
      ofGroup spec.tenantId group.groupId group.name group.roleIds) ++
    spec.users.flatMap fun user =>
      ofUser spec.tenantId user.userId user.email user.groups user.isAdmin

end SeedRow

def seedRows : List SeedRow := SEED_TENANTS.flatMap SeedRow.ofTenant

/-! ## When they are there, and what writes them -/

section Provision

variable (env : Env)

/-- The redirect the settings give an application of the seed. -/
def seedRedirect (applicationId : String) : Option String :=
  ((SEED_TENANTS.flatMap SeedTenant.apps).find? fun app => app.applicationId == applicationId).bind
    fun app => (app.redirectUri.map fun setting => setting env.settings).filter fun uri => uri != ""

/-- The row under a user's address in a tenant. -/
def addressee (db : Directory) (tenantId email : String) : Option User :=
  db.users.first? fun u => u.tenantId == tenantId && u.email == env.lib.lower (strip email)

def SeedRow.Met (db : Directory) : SeedRow → Prop
  | tenant tenantId => (db.tenants.get tenantId).isSome
  | logo tenantId => ∃ t, db.tenants.get tenantId = some t ∧ t.logoUrl ≠ none
  | domain name _ => (db.tenantDomains.get name).isSome
  | application applicationId _ => (db.applications.get applicationId).isSome
  | redirect applicationId => ∀ uri, seedRedirect env applicationId = some uri →
      ∃ app, db.applications.get applicationId = some app ∧ app.redirectUri = some uri
  | permission applicationId s => (db.permissions.get (permissionId applicationId s)).isSome
  | role roleId _ _ _ => (db.roles.get roleId).isSome
  | rolePermission roleId _ applicationId s =>
      ⟨roleId, permissionId applicationId s⟩ ∈ db.rolePermissions
  | group groupId _ _ => (db.groups.get groupId).isSome
  | groupRole groupId roleId _ => ⟨groupId, roleId⟩ ∈ db.groupRoles
  | anchors tenantId => db.anchors tenantId =
      some (some (consoleApplicationId tenantId), some (adminGroupId tenantId))
  | user tenantId _ email _ => (addressee env db tenantId email).isSome
  | membership tenantId userId email groupId => ∃ row, addressee env db tenantId email = some row ∧
      (row.userId = userId → ⟨groupId, userId⟩ ∈ db.groupMemberships)

/-- The statements of the seed, each with the entry it is for. -/
inductive SeedRow.Writes (db : Directory) : SeedRow → DirectoryWrite → Prop
  | tenant {row : Tenant} (hanchor : row.adminGroupId = none) :
      Writes db (.tenant row.tenantId) (.insertTenant row)
  | logo {tenantId url : String} : Writes db (.logo tenantId) (.setTenantLogo tenantId url)
  | domain {name tenantId : String} :
      Writes db (.domain name tenantId) (.insertTenantDomain ⟨name, tenantId⟩)
  | application (row : Application) (hclient : row.clientId ≠ none) :
      Writes db (.application row.applicationId row.tenantId) (.insertApplication row)
  | redirect {applicationId : String} : Writes db (.redirect applicationId)
      (.setApplicationRedirectUri applicationId (seedRedirect env applicationId))
  | permission (row : Permission)
      (hid : row.permissionId = permissionId row.applicationId (row.resource, row.operation)) :
      Writes db (.permission row.applicationId (row.resource, row.operation))
        (.insertPermission row)
  | role (row : Role) :
      Writes db (.role row.roleId row.tenantId row.applicationId row.name) (.insertRole row)
  | rolePermission {roleId tenantId applicationId : String} {s : Scope} :
      Writes db (.rolePermission roleId tenantId applicationId s)
        (.insertRolePermission ⟨roleId, permissionId applicationId s⟩)
  | group (row : Group) : Writes db (.group row.groupId row.tenantId row.name) (.insertGroup row)
  | groupRole {groupId roleId tenantId : String} :
      Writes db (.groupRole groupId roleId tenantId) (.insertGroupRole ⟨groupId, roleId⟩)
  | anchors {tenantId : String} : Writes db (.anchors tenantId)
      (.setTenantAnchors tenantId (consoleApplicationId tenantId) (adminGroupId tenantId))
  | user (row : User) {email : String} (hemail : row.email = env.lib.lower (strip email)) :
      Writes db (.user row.tenantId row.userId email row.isAdmin) (.insertUser row)
  | membership {tenantId userId email groupId : String} {row : User}
      (hrow : addressee env db tenantId email = some row) (hid : row.userId = userId) :
      Writes db (.membership tenantId userId email groupId)
        (.insertGroupMembership ⟨groupId, userId⟩)

end Provision

/-! ## Nothing that is there is taken away -/

variable {env : Env} {d : Draws} {db : Directory} {w : DirectoryWrite} {n n' : SeedRow}

theorem addressee_effect (hw : n.Writes env db w) {tenantId email : String} {row : User}
    (h : addressee env db tenantId email = some row) :
    addressee env (w.effect db) tenantId email = some row := by
  cases hw with
  | user => exact Table.first?_insert_of_some h
  | _ => exact h

theorem groupMemberships_seed (hw : n.Writes env db w) {m : GroupMembership}
    (h : m ∈ db.groupMemberships) : m ∈ (w.effect db).groupMemberships := by
  cases hw with
  | membership => exact Table.mem_insert_of_mem h
  | _ => exact h

/-- A tenant keeps its logo, and the anchors the seed gives it. -/
theorem tenant_seed (hw : n.Writes env db w) {tenantId : String} {t : Tenant}
    (h : db.tenants.get tenantId = some t) : ∃ t', (w.effect db).tenants.get tenantId = some t' ∧
      (t.logoUrl ≠ none → t'.logoUrl ≠ none) ∧ t'.name = t.name ∧
      ((t'.consoleApplicationId = t.consoleApplicationId ∧ t'.adminGroupId = t.adminGroupId) ∨
        t'.consoleApplicationId = some (consoleApplicationId tenantId) ∧
          t'.adminGroupId = some (adminGroupId tenantId)) := by
  have hkey : t.tenantId = tenantId := Table.key_of_get h
  cases hw with
  | tenant => exact ⟨t, by simp [DirectoryWrite.effect, h], fun hl => hl, rfl, Or.inl ⟨rfl, rfl⟩⟩
  | @logo other url =>
      rcases eq_or_ne t.tenantId other with hsame | hne
      · refine ⟨{ t with logoUrl := some url }, ?_, by simp, rfl, Or.inl ⟨rfl, rfl⟩⟩
        simp [DirectoryWrite.effect, h, hsame]
      · refine ⟨t, ?_, fun hl => hl, rfl, Or.inl ⟨rfl, rfl⟩⟩
        simp [DirectoryWrite.effect, h, hne]
  | @anchors other =>
      rcases eq_or_ne t.tenantId other with hsame | hne
      · refine ⟨{ t with
          consoleApplicationId := some (consoleApplicationId other)
          adminGroupId := some (adminGroupId other) }, ?_, fun hl => hl, rfl, Or.inr ?_⟩
        · simp [DirectoryWrite.effect, h, hsame]
        · rw [← hkey, hsame]
          exact ⟨rfl, rfl⟩
      · refine ⟨t, ?_, fun hl => hl, rfl, Or.inl ⟨rfl, rfl⟩⟩
        simp [DirectoryWrite.effect, h, hne]
  | _ => exact ⟨t, h, fun hl => hl, rfl, Or.inl ⟨rfl, rfl⟩⟩

theorem redirect_seed (hw : n.Writes env db w) {applicationId uri : String} {app : Application}
    (huri : seedRedirect env applicationId = some uri)
    (h : db.applications.get applicationId = some app) (hset : app.redirectUri = some uri) :
    ∃ app', (w.effect db).applications.get applicationId = some app' ∧
      app'.redirectUri = some uri := by
  have hkey : app.applicationId = applicationId := Table.key_of_get h
  cases hw with
  | application => exact ⟨app, by simp [DirectoryWrite.effect, h], hset⟩
  | @redirect other =>
      rcases eq_or_ne app.applicationId other with hsame | hne
      · refine ⟨{ app with redirectUri := seedRedirect env other }, ?_, ?_⟩
        · simp [DirectoryWrite.effect, h, hsame]
        · rw [← hsame, hkey]
          exact huri
      · exact ⟨app, by simp [DirectoryWrite.effect, h, hne], hset⟩
  | _ => exact ⟨app, h, hset⟩

theorem met_effect (hmet : n.Met env db) (hw : n'.Writes env db w) : n.Met env (w.effect db) := by
  cases n with
  | tenant => exact tenants_effect hmet
  | logo =>
      obtain ⟨t, ht, hlogo⟩ := hmet
      obtain ⟨t', ht', hkept, -⟩ := tenant_seed hw ht
      exact ⟨t', ht', hkept hlogo⟩
  | domain name tenantId =>
      cases hw with
      | domain =>
          simp only [SeedRow.Met, DirectoryWrite.effect, Table.get_insert] at hmet ⊢
          simp [hmet]
      | _ => exact hmet
  | application => exact applications_effect hmet
  | redirect applicationId =>
      intro uri huri
      obtain ⟨app, happ, hset⟩ := hmet uri huri
      exact redirect_seed hw huri happ hset
  | permission => exact permissions_effect hmet
  | role => exact roles_effect (by rintro rfl; cases hw) hmet
  | rolePermission =>
      cases hw with
      | rolePermission => exact Table.mem_insert_of_mem hmet
      | _ => exact hmet
  | group => exact groups_effect (by rintro rfl; cases hw) hmet
  | groupRole =>
      cases hw with
      | groupRole => exact Table.mem_insert_of_mem hmet
      | _ => exact hmet
  | anchors tenantId =>
      obtain ⟨t, ht, hanchors⟩ := Option.map_eq_some_iff.mp hmet
      obtain ⟨hconsole, hgroup⟩ := Prod.mk.inj hanchors
      obtain ⟨t', ht', -, -, ⟨hconsole', hgroup'⟩ | ⟨hconsole', hgroup'⟩⟩ := tenant_seed hw ht
      · simp [SeedRow.Met, Directory.anchors, ht', hconsole', hgroup', hconsole, hgroup]
      · simp [SeedRow.Met, Directory.anchors, ht', hconsole', hgroup']
  | user =>
      obtain ⟨row, hrow⟩ := Option.isSome_iff_exists.mp hmet
      simp [SeedRow.Met, addressee_effect hw hrow]
  | membership =>
      obtain ⟨row, hrow, hmember⟩ := hmet
      exact ⟨row, addressee_effect hw hrow, fun hid => groupMemberships_seed hw (hmember hid)⟩

/-- The seed as a provisioning of the database. -/
def seedProvision (env : Env) : Provision SeedRow Db Write where
  Met n db := n.Met env db.toDirectory
  Writes n db w := ∃ edit, w = .directory edit ∧ n.Writes env db.toDirectory edit
  lasting := by
    rintro n n' _ db hmet ⟨edit, rfl, hedit⟩ -
    exact met_effect hmet hedit

/-! ## The program -/

/-- Every application has a client id. -/
def Named (db : Directory) : Prop := ∀ app ∈ db.applications, app.clientId ≠ none

theorem named_effect (hw : ∀ row, w = .insertApplication row → row.clientId ≠ none)
    (h : Named db) : Named (w.effect db) := by
  intro app happ
  cases w with
  | insertApplication row =>
      rcases Table.mem_or_eq_of_mem_insert happ with hold | rfl
      · exact h app hold
      · exact hw app rfl
  | setApplicationClientId | setApplicationName | setApplicationEnabled
  | setApplicationRedirectUri | setApplicationAlwaysPasskey =>
      simp only [DirectoryWrite.effect, Directory.updateApplication, Table.mem_modify] at happ
      obtain ⟨old, hold, rfl⟩ := happ
      have hclient := h old hold
      split
      · simp [hclient]
      · exact hclient
  | _ => exact h app happ

theorem named_seed (hw : n.Writes env db w) (h : Named db) : Named (w.effect db) := by
  refine named_effect ?_ h
  rintro row rfl
  cases hw with
  | application _ hclient => exact hclient

/-- What the seed finds and leaves, whatever it provides. -/
abbrev Prepared (db : Db) : Prop := Named db.toDirectory

section Rules

open Provision

variable {ρ : Type} [DecidableEq ρ]

theorem provides_row {existing : Option ρ} (find : Directory → Option ρ)
    (hw : ∀ db, n.Writes env db w)
    (hmet : ∀ db, n.Met env db ↔ find db ≠ none)
    (hmade : ∀ db, find db = none → find (w.effect db) ≠ none) :
    (seedProvision env).Provides (fun db => Prepared db ∧ find db.toDirectory = existing)
      (when (existing = none) (onDirectory w) : App Unit) [n] fun _ => Prepared :=
  provides_missing (p := seedProvision env) (P := Prepared) (fun db => find db.toDirectory)
    (fun _ _ _ => ⟨w, rfl, hw _⟩)
    (fun _ _ => hmet _) fun _ hnamed hfree _ =>
      ⟨(hmet _).mpr (hmade _ hfree), named_seed (hw _) hnamed⟩

/-- A row that is written when it is not found, and nothing else. -/
theorem provides_ensure (find : Directory → Option ρ)
    (hw : ∀ db, n.Writes env db w)
    (hmet : ∀ db, n.Met env db ↔ find db ≠ none)
    (hmade : ∀ db, find db = none → find (w.effect db) ≠ none) :
    (seedProvision env).Provides Prepared
      (read (fun db : Db => find db.toDirectory) >>= fun existing =>
        when (existing = none) (onDirectory w) : App Unit) [n] fun _ => Prepared :=
  provides_bind provides_read fun _ => provides_row find hw hmet hmade

/-- The same, and then what goes with the row. -/
theorem provides_ensure_with {k : App Unit} {ns : List SeedRow} (find : Directory → Option ρ)
    (hw : ∀ db, n.Writes env db w) (hmet : ∀ db, n.Met env db ↔ find db ≠ none)
    (hmade : ∀ db, find db = none → find (w.effect db) ≠ none)
    (hk : (seedProvision env).Provides Prepared k ns fun _ => Prepared) :
    (seedProvision env).Provides Prepared
      (read (fun db : Db => find db.toDirectory) >>= fun existing => do
        when (existing = none) (onDirectory w)
        k : App Unit) (n :: ns) fun _ => Prepared :=
  provides_bind provides_read fun _ => provides_bind (provides_row find hw hmet hmade) fun _ => hk

theorem provides_ensureDomain {tenantId domain : String} :
    (seedProvision env).Provides Prepared (ensureDomain tenantId domain) [.domain domain tenantId]
      fun _ => Prepared := by
  refine provides_ensure (fun db => db.tenantDomains.get domain) (fun _ => .domain) (fun db => ?_)
    fun db hfree => ?_
  · exact Option.isSome_iff_ne_none
  · simp [DirectoryWrite.effect, hfree]

theorem provides_ensurePermission {applicationId : String} {spec : PermissionSpec} :
    (seedProvision env).Provides Prepared (ensurePermission applicationId spec)
      [.permission applicationId spec.scope] fun _ => Prepared := by
  refine provides_ensure (fun db => db.permissions.get (permissionId applicationId spec.scope))
    (fun _ => .permission ⟨_, applicationId, spec.resource, spec.operation, _⟩ rfl) (fun db => ?_)
    fun db hfree => ?_
  · exact Option.isSome_iff_ne_none
  · simp [DirectoryWrite.effect, hfree]

theorem provides_ensurePermissions {applicationId : String} {rows : List PermissionSpec} :
    (seedProvision env).Provides Prepared (ensurePermissions applicationId rows)
      (rows.map fun row => .permission applicationId row.scope) fun _ => Prepared :=
  provides_forEach_map fun _ _ => provides_ensurePermission

theorem provides_ensureRolePermission {roleId tenantId applicationId : String} {s : Scope} :
    (seedProvision env).Provides Prepared (ensureRolePermission roleId applicationId s)
      [.rolePermission roleId tenantId applicationId s] fun _ => Prepared := by
  refine provides_ensure (fun db =>
    db.rolePermissions.get (RolePermission.key ⟨roleId, permissionId applicationId s⟩))
    (fun _ => .rolePermission) (fun db => ?_) fun db hfree => ?_
  · exact Table.mem_iff_get_ne_none RolePermission.key_injective
  · simp [DirectoryWrite.effect, hfree]

theorem provides_ensureRole {tenantId roleId applicationId name description : String}
    {scopes : List Scope} :
    (seedProvision env).Provides Prepared
      (ensureRole d tenantId roleId applicationId name description scopes)
      (SeedRow.ofRole tenantId roleId applicationId name scopes) fun _ => Prepared := by
  refine provides_ensure_with (fun db => db.roles.get roleId)
    (fun _ => .role ⟨roleId, tenantId, applicationId, name, description, d.now⟩) (fun db => ?_)
    (fun db hfree => ?_) (provides_forEach_map fun s _ => provides_ensureRolePermission)
  · exact Option.isSome_iff_ne_none
  · simp [DirectoryWrite.effect, hfree]

theorem provides_ensureGroupRole {groupId roleId tenantId : String} :
    (seedProvision env).Provides Prepared (ensureGroupRole groupId roleId)
      [.groupRole groupId roleId tenantId] fun _ => Prepared := by
  refine provides_ensure (fun db => db.groupRoles.get (GroupRole.key ⟨groupId, roleId⟩))
    (fun _ => .groupRole) (fun db => ?_) fun db hfree => ?_
  · exact Table.mem_iff_get_ne_none GroupRole.key_injective
  · simp [DirectoryWrite.effect, hfree]

theorem provides_ensureGroup {tenantId groupId name description : String}
    {roleIds : List String} :
    (seedProvision env).Provides Prepared
      (ensureGroup d tenantId groupId name description roleIds)
      (SeedRow.ofGroup tenantId groupId name roleIds) fun _ => Prepared := by
  refine provides_ensure_with (fun db => db.groups.get groupId)
    (fun _ => .group ⟨groupId, tenantId, name, description, d.now⟩) (fun db => ?_)
    (fun db hfree => ?_) (provides_forEach_map fun s _ => provides_ensureGroupRole)
  · exact Option.isSome_iff_ne_none
  · simp [DirectoryWrite.effect, hfree]

/-- The redirect of the settings is set, whatever an operator had put there. -/
theorem provides_redirect {applicationId : String} {row : Application} :
    (seedProvision env).Provides
      (fun db => Prepared db ∧ db.applications.get applicationId = some row)
      (when ((seedRedirect env applicationId).isSome = true) (onDirectory
        (.setApplicationRedirectUri applicationId (seedRedirect env applicationId))) : App Unit)
      [.redirect applicationId] fun _ => Prepared := by
  refine provides_when (fun hsome => ?_) fun hnone db hpre => ⟨?_, hpre.1⟩
  · obtain ⟨uri, huri⟩ := Option.isSome_iff_exists.mp hsome
    refine provides_execute (p := seedProvision env) (fun _ _ => ⟨_, rfl, .redirect⟩)
      (fun db hpre hmet => ⟨?_, ?_⟩) fun db hpre _ => ⟨?_, ?_⟩
    · simp [DirectoryWrite.violates, hpre.2]
    · -- an application that has the redirect already
      obtain ⟨app, happ, hset⟩ := hmet uri huri
      have hsame : (DirectoryWrite.setApplicationRedirectUri applicationId
          (seedRedirect env applicationId)).effect db.toDirectory = db.toDirectory := by
        simp only [DirectoryWrite.effect, Directory.updateApplication]
        rw [Table.modify_eq_self]
        intro r hr hid
        rw [← beq_iff_eq.mp hid, Table.get_of_mem hr] at happ
        rw [huri, ← hset, ← Option.some.inj happ]
      rw [effect_directory, hsame]
    · intro other hother
      exact ⟨{ row with redirectUri := some other },
        by simp [DirectoryWrite.effect, hpre.2, hother, Table.key_of_get hpre.2], rfl⟩
    · have hwrites : SeedRow.Writes env db.toDirectory (.redirect applicationId) _ := .redirect
      exact named_seed hwrites hpre.1
  · intro n hn
    rw [List.mem_singleton.mp hn]
    intro uri huri
    simp [huri] at hnone

theorem provides_ensureApplication {tenantId applicationId name : String}
    {redirectUri : Option String} (hredirect : redirectUri = seedRedirect env applicationId) :
    (seedProvision env).Provides Prepared
      (ensureApplication d tenantId applicationId name redirectUri)
      (SeedRow.ofApplication applicationId tenantId) fun _ => Prepared := by
  subst hredirect
  refine provides_look fun existing => ?_
  cases existing with
  | none =>
      -- the row is inserted with the redirect
      have hwrites : ∀ db, SeedRow.Writes env db (.application applicationId tenantId)
          (.insertApplication ⟨applicationId, some (clientIdFor d applicationId), tenantId, name,
            true, seedRedirect env applicationId, none, d.now⟩) :=
        fun _ => .application ⟨applicationId, some _, tenantId, _, _, _, _, _⟩ (by simp)
      refine Provides.also (provides_execute
        (p := seedProvision env) (fun _ _ => ⟨_, rfl, hwrites _⟩)
        (fun db hpre hmet => ?_) fun db hpre _ => ⟨?_, ?_, ?_⟩)
      · simp [seedProvision, SeedRow.Met, hpre.2] at hmet
      · simp [seedProvision, SeedRow.Met, DirectoryWrite.effect, hpre.2]
      · intro n hn
        rw [List.mem_singleton.mp hn]
        intro uri huri
        simp [DirectoryWrite.effect, hpre.2, huri]
      · exact named_seed (hwrites _) hpre.1
  | some row =>
      refine provides_cons
        (I := fun _ db => Prepared db ∧ db.applications.get applicationId = some row) ?_
        fun _ => provides_redirect
      refine provides_when (fun hunnamed t₀ t S E ht hpre => ?_) fun _ db hpre => ⟨?_, hpre⟩
      · exact absurd hunnamed (hpre.1 row (Table.mem_of_get hpre.2))
      · intro n hn
        rw [List.mem_singleton.mp hn]
        exact Option.isSome_iff_exists.mpr ⟨row, hpre.2⟩

/-- A membership of the user who has the address. -/
theorem provides_ensureMembership {tenantId userId email groupId : String} {row : User}
    (hid : row.userId = userId) :
    (seedProvision env).Provides
      (fun db => Prepared db ∧ addressee env db.toDirectory tenantId email = some row)
      (ensureMembership userId groupId) [.membership tenantId userId email groupId]
      fun _ db => Prepared db ∧ addressee env db.toDirectory tenantId email = some row := by
  refine provides_look fun existing => provides_missing (p := seedProvision env)
    (fun db => db.groupMemberships.get (GroupMembership.key ⟨groupId, userId⟩))
    (fun db hpre _ => ⟨_, rfl, .membership hpre.2 hid⟩) (fun db hpre => ?_)
    fun db hpre hfree _ => ⟨?_, ?_, ?_⟩
  · rw [← Table.mem_iff_get_ne_none GroupMembership.key_injective]
    refine ⟨fun ⟨other, hother, hmember⟩ => hmember ?_,
      fun hmember => ⟨row, hpre.2, fun _ => hmember⟩⟩
    rw [hpre.2, Option.some.injEq] at hother
    rw [← hother]
    exact hid
  · refine ⟨row, hpre.2, fun _ => ?_⟩
    exact (Table.mem_insert_of_injective GroupMembership.key_injective).mpr (Or.inr rfl)
  · exact hpre.1
  · exact hpre.2

theorem provides_memberships {tenantId userId email : String} {groupIds : List String}
    {row : User} (hid : row.userId = userId) :
    (seedProvision env).Provides
      (fun db => Prepared db ∧ addressee env db.toDirectory tenantId email = some row)
      (forEach groupIds (ensureMembership userId))
      (groupIds.map (.membership tenantId userId email)) fun _ => Prepared :=
  (provides_forEach_map fun _ _ => provides_ensureMembership hid).mono (fun _ h => h)
    fun _ _ h => h.1

theorem provides_ensureUser {tenantId userId email password : String} {groupIds : List String}
    {isAdmin : Bool} :
    (seedProvision env).Provides Prepared
      (ensureUser env d tenantId userId email password groupIds isAdmin)
      (SeedRow.ofUser tenantId userId email groupIds isAdmin) fun _ => Prepared := by
  refine provides_look fun existing => ?_
  cases existing with
  | none =>
      let row : User := ⟨userId, tenantId, env.lib.lower (strip email), d.hashPassword password,
        true, isAdmin, none, d.now, none⟩
      have hwrites : ∀ db, SeedRow.Writes env db (.user tenantId userId email isAdmin)
          (.insertUser row) := fun _ => .user row rfl
      refine provides_cons
        (I := fun _ db => Prepared db ∧ addressee env db.toDirectory tenantId email = some row) ?_
        fun _ => provides_memberships rfl
      refine provides_execute (p := seedProvision env) (fun _ _ => ⟨_, rfl, hwrites _⟩)
        (fun db hpre hmet => ?_)
        fun db hpre haccepted => ?_
      · have hnone : addressee env db.toDirectory tenantId email = none := hpre.2
        simp [seedProvision, SeedRow.Met, hnone] at hmet
      · simp only [violates_directory, DirectoryWrite.violates, Bool.or_eq_false_iff,
          Option.isSome_eq_false_iff, Option.isNone_iff_eq_none] at haccepted
        have hrow : addressee env ((DirectoryWrite.insertUser row).effect db.toDirectory) tenantId
            email = some row :=
          Table.first?_insert_of_none haccepted.1.1 hpre.2 (by simp [row])
        exact ⟨Option.isSome_iff_exists.mpr ⟨row, hrow⟩, named_seed (hwrites _) hpre.1, hrow⟩
  | some row =>
      -- the address is there, and the memberships if it is another user's
      have hthere : (seedProvision env).Provides
          (fun db => Prepared db ∧ addressee env db.toDirectory tenantId email = some row)
          (pure () : App Unit) [.user tenantId userId email isAdmin] fun _ db =>
            Prepared db ∧ addressee env db.toDirectory tenantId email = some row := by
        refine provides_there fun db hpre => ⟨fun n hn => ?_, hpre⟩
        rw [List.mem_singleton.mp hn]
        exact Option.isSome_iff_exists.mpr ⟨row, hpre.2⟩
      refine provides_bind hthere fun _ => provides_when (fun hid => provides_memberships hid)
        fun hother db hpre => ⟨fun n hn => ?_, hpre.1⟩
      obtain ⟨groupId, -, rfl⟩ := List.mem_map.mp hn
      exact ⟨row, hpre.2, fun hid => absurd hid hother⟩

/-! The whole of it. -/

theorem provides_anchors {tenantId : String} :
    (seedProvision env).Provides Prepared
      (onDirectory (.setTenantAnchors tenantId (consoleApplicationId tenantId)
        (adminGroupId tenantId)) : App Unit)
      [.anchors tenantId] fun _ => Prepared := by
  refine provides_execute (p := seedProvision env) (fun _ _ => ⟨_, rfl, .anchors⟩)
    (fun db hpre hmet => ?_) fun db hpre haccepted => ⟨?_, hpre⟩
  · obtain ⟨t, ht, hanchors⟩ := Option.map_eq_some_iff.mp hmet
    obtain ⟨hconsole, hgroup⟩ := Prod.mk.inj hanchors
    refine ⟨by simp [DirectoryWrite.violates, ht], ?_⟩
    have hsame : (DirectoryWrite.setTenantAnchors tenantId (consoleApplicationId tenantId)
        (adminGroupId tenantId)).effect db.toDirectory = db.toDirectory := by
      simp only [DirectoryWrite.effect, Directory.updateTenant]
      rw [Table.modify_eq_self]
      intro r hr hid
      rw [← beq_iff_eq.mp hid, Table.get_of_mem hr, Option.some.injEq] at ht
      rw [← hconsole, ← hgroup, ← ht]
    rw [effect_directory, hsame]
  · have hthere : (db.tenants.get tenantId).isNone = false := haccepted
    obtain ⟨t, ht⟩ := Option.isSome_iff_exists.mp (Option.isNone_eq_false_iff.mp hthere)
    simp [seedProvision, SeedRow.Met, Directory.anchors, DirectoryWrite.effect, ht,
      Table.key_of_get ht]

theorem provides_bootstrapConsole {tenant : Tenant}
    (hredirect : seedRedirect env (consoleApplicationId tenant.tenantId) = none) :
    (seedProvision env).Provides Prepared (bootstrapConsole d tenant)
      (SeedRow.ofConsole tenant.tenantId) fun _ => Prepared := by
  simp only [SeedRow.ofConsole, List.append_assoc]
  exact provides_bind (provides_ensureApplication hredirect.symm) fun _ =>
    provides_bind provides_ensurePermissions fun _ =>
    provides_bind provides_ensureRole fun _ =>
    provides_bind provides_ensureRole fun _ =>
    provides_bind provides_ensureGroup fun _ => provides_anchors

theorem provides_ensureTenant {row : Tenant} (hanchor : row.adminGroupId = none) :
    (seedProvision env).Provides Prepared (ensureTenant row) [.tenant row.tenantId]
      fun tenant db => (Prepared db ∧ db.tenants.get row.tenantId = some tenant) ∧
        tenant.tenantId = row.tenantId := by
  refine provides_look fun existing => ?_
  cases existing with
  | none =>
      refine provides_cons (I := fun _ db =>
        Prepared db ∧ db.tenants.get row.tenantId = some row) ?_ fun _ =>
        provides_pure fun db hpre => ⟨hpre, rfl⟩
      refine provides_execute (p := seedProvision env) (fun _ _ => ⟨_, rfl, .tenant hanchor⟩)
        (fun db hpre hmet => ?_) fun db hpre _ => ?_
      · simp [seedProvision, SeedRow.Met, hpre.2] at hmet
      · have hthere : ((DirectoryWrite.insertTenant row).effect db.toDirectory).tenants.get
            row.tenantId = some row := by simp [DirectoryWrite.effect, hpre.2]
        exact ⟨Option.isSome_iff_exists.mpr ⟨row, hthere⟩, hpre.1, hthere⟩
  | some tenant =>
      refine provides_there fun db hpre => ⟨fun n hn => ?_, hpre, Table.key_of_get hpre.2⟩
      rw [List.mem_singleton.mp hn]
      exact Option.isSome_iff_exists.mpr ⟨tenant, hpre.2⟩

/-- A logo is given to a tenant that has none. -/
theorem provides_logo {tenantId : String} {tenant : Tenant}
    {logo : Option ((Settings → String) × String)} {url : (Settings → String) × String → String} :
    (seedProvision env).Provides
      (fun db => Prepared db ∧ db.tenants.get tenantId = some tenant)
      (when (tenant.logoUrl = none) (ifSome logo fun logo =>
        onDirectory (.setTenantLogo tenantId (url logo))) : App Unit)
      (logo.toList.map fun _ => .logo tenantId) fun _ => Prepared := by
  rw [List.map_eq_flatMap]
  refine provides_when (fun hnone => provides_ifSome (fun a _ => ?_) fun _ hpre => hpre.1)
    fun hlogo db hpre => ⟨fun n hn => ?_, hpre.1⟩
  · refine provides_execute (p := seedProvision env) (fun _ _ => ⟨_, rfl, .logo⟩)
      (fun db hpre hmet => ?_) fun db hpre _ => ⟨?_, hpre.1⟩
    · obtain ⟨t, ht, hlogo⟩ := hmet
      rw [hpre.2, Option.some.injEq] at ht
      rw [← ht] at hlogo
      exact absurd hnone hlogo
    · exact ⟨{ tenant with logoUrl := some (url a) },
        by simp [DirectoryWrite.effect, hpre.2, Table.key_of_get hpre.2], by simp⟩
  · obtain ⟨a, -, hn⟩ := List.mem_flatMap.mp hn
    rw [List.mem_singleton.mp hn]
    exact ⟨tenant, hpre.2, hlogo⟩

/-- What the seed of a tenant takes for granted of its specification. -/
structure SeedTenant.Wellformed (env : Env) (spec : SeedTenant) : Prop where
  console : seedRedirect env (consoleApplicationId spec.tenantId) = none
  apps : ∀ app ∈ spec.apps,
    ((app.redirectUri.map fun setting => setting env.settings).filter fun uri => uri != "") =
      seedRedirect env app.applicationId

theorem provides_seedTenant {spec : SeedTenant} (hspec : spec.Wellformed env) :
    (seedProvision env).Provides Prepared (seedTenant env d spec) (SeedRow.ofTenant spec)
      fun _ => Prepared := by
  simp only [SeedRow.ofTenant, List.append_assoc, List.cons_append]
  refine provides_cons (provides_ensureTenant rfl) fun tenant =>
    provides_of_fact fun htenant => ?_
  refine provides_bind provides_logo fun _ => ?_
  refine provides_bind (provides_forEach_map fun _ _ => provides_ensureDomain) fun _ => ?_
  have hid : tenant.tenantId = spec.tenantId := htenant
  have hconsole : (seedProvision env).Provides Prepared (bootstrapConsole d tenant)
      (SeedRow.ofConsole spec.tenantId) fun _ => Prepared := by
    rw [← hid]
    exact provides_bootstrapConsole (by rw [hid]; exact hspec.console)
  refine provides_bind hconsole fun _ => ?_
  refine provides_bind (provides_forEach fun app happ =>
    provides_ensureApplication (hspec.apps app happ)) fun _ => ?_
  refine provides_bind (provides_forEach fun _ _ => provides_ensurePermissions) fun _ => ?_
  refine provides_bind (provides_forEach fun _ _ => provides_ensureRole) fun _ => ?_
  refine provides_bind (provides_forEach fun _ _ => provides_ensureGroup) fun _ => ?_
  exact provides_forEach fun _ _ => provides_ensureUser

theorem wellformed_seed {spec : SeedTenant} (hspec : spec ∈ SEED_TENANTS) :
    spec.Wellformed env := by
  simp only [SEED_TENANTS, List.mem_cons, List.not_mem_nil, or_false] at hspec
  rcases hspec with rfl | rfl | rfl
  all_goals constructor
  all_goals simp [seedRedirect, SEED_TENANTS, seedRokusec, seedRokuBank, seedKazeLabs,
    consoleApplicationId, PLATFORM_TENANT_ID]

/-- The program inside the transaction of `seedIdentity`. -/
def seedBody (env : Env) (d : Draws) : App Unit := do
  forEach SEED_TENANTS (seedTenant env d)
  let unnamed ← read fun db => db.applications.select fun app => app.clientId.isNone
  forEach unnamed fun app =>
    onDirectory (.setApplicationClientId app.applicationId (clientIdFor d app.applicationId))

theorem provides_seedBody :
    (seedProvision env).Provides Prepared (seedBody env d) seedRows fun _ => Prepared := by
  have hrows : seedRows = seedRows ++ [] := (List.append_nil _).symm
  rw [hrows]
  refine provides_bind (provides_forEach fun spec hspec =>
    provides_seedTenant (wellformed_seed hspec)) fun _ => ?_
  refine provides_look fun unnamed => ?_
  -- no application is without a client id
  cases unnamed with
  | nil => exact provides_pure fun db hpre => hpre.1
  | cons app rest =>
      intro t₀ t S E ht hpre
      have happ : app ∈ t.db.applications.select fun app => app.clientId.isNone := by
        rw [hpre.2]
        exact List.mem_cons_self ..
      obtain ⟨happ, hnone⟩ := Table.mem_select.mp happ
      exact absurd (Option.isNone_iff_eq_none.mp hnone) (hpre.1 app happ)

/-- **What the seed provides.** -/
theorem provides_seed :
    (seedProvision env).Provides Prepared (seedIdentity env d) seedRows fun _ => Prepared :=
  provides_transaction provides_seedBody

end Rules

end RbaIdp
