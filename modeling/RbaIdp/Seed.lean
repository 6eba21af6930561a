import RbaIdp.Authz
import RbaIdp.Tokens

/-!
# The seed

`seed.py`: every row is written only when it is missing, so the seed can be
run again.  `bootstrapConsole` gives a tenant its console and is also what the
creation of a tenant runs; its ids are derived from the tenant's id.
-/

namespace RbaIdp

open Relational Program

def PLATFORM_TENANT_ID : String := "rokusec"

/-- A permission before it has an id: its scope and what it is for. -/
structure PermissionSpec where
  resource : String
  operation : String
  description : String

def PermissionSpec.scope (p : PermissionSpec) : Scope := (p.resource, p.operation)

def CONSOLE_PERMISSIONS : List PermissionSpec :=
  [⟨"admin", "read", "Abrir la consola y leer el directorio"⟩,
    ⟨"admin", "write", "Crear y modificar usuarios, grupos, roles y aplicaciones"⟩,
    ⟨"decisions", "read", "Leer las decisiones y sus motivos por señal"⟩,
    ⟨"policy", "write", "Cambiar umbrales, acciones, política base y modo del motor"⟩]

def PLATFORM_PERMISSIONS : List PermissionSpec :=
  [⟨"tenants", "read", "Ver todas las organizaciones y cambiar entre ellas"⟩,
    ⟨"tenants", "write", "Crear organizaciones y editar su marca y dominios"⟩]

def TENANT_ADMIN_SCOPES : List Scope := CONSOLE_PERMISSIONS.map PermissionSpec.scope

def SUPPORT_SCOPES : List Scope := [("admin", "read"), ("decisions", "read")]

def permissionId (applicationId : String) (s : Scope) : String :=
  hyphensToUnderscores ("perm_" ++ applicationId ++ "_" ++ s.1 ++ "_" ++ s.2)

def consoleApplicationId (tenantId : String) : String := tenantId ++ "-console"

def adminGroupId (tenantId : String) : String :=
  hyphensToUnderscores ("grp_" ++ tenantId ++ "_admins")

def adminRoleId (tenantId : String) : String :=
  hyphensToUnderscores ("role_" ++ tenantId ++ "_tenant_admin")

def supportRoleId (tenantId : String) : String :=
  hyphensToUnderscores ("role_" ++ tenantId ++ "_support")

/-- `client_ids.SEEDED`: the demo applications' ids are fixed. -/
def seededClientId (applicationId : String) : Option String :=
  if applicationId = "roku-bank-web" then some "rk_Bk7mQ2xVn9PwR4tL"
  else if applicationId = "kaze-portal" then some "rk_Kz3sH8dYc5JfW1qN"
  else none

variable (env : Env) (d : Draws)

/-- The public id an application gets. -/
def clientIdFor (applicationId : String) : String :=
  (seededClientId applicationId).getD (d.newClientId applicationId)

/-! ## Rows written when missing -/

/-- `_ensure_tenant`, given the row to write. -/
def ensureTenant (row : Tenant) : App Tenant := do
  let existing ← read fun db => db.tenants.get row.tenantId
  match existing with
  | some tenant => pure tenant
  | none => do
      onDirectory (.insertTenant row)
      pure row

def ensureDomain (tenantId domain : String) : App Unit := do
  let existing ← read fun db => db.tenantDomains.get domain
  when (existing = none) (onDirectory (.insertTenantDomain ⟨domain, tenantId⟩))

def ensureApplication (tenantId applicationId name : String) (redirectUri : Option String) :
    App Unit := do
  let existing ← read fun db => db.applications.get applicationId
  match existing with
  | none => onDirectory (.insertApplication {
      applicationId := applicationId
      clientId := some (clientIdFor d applicationId)
      tenantId := tenantId
      name := name
      enabled := true
      redirectUri := redirectUri
      alwaysPasskey := none
      createdAt := d.now })
  | some row => do
      when (row.clientId = none)
        (onDirectory (.setApplicationClientId applicationId (clientIdFor d applicationId)))
      when (redirectUri.isSome = true)
        (onDirectory (.setApplicationRedirectUri applicationId redirectUri))

def ensurePermission (applicationId : String) (spec : PermissionSpec) : App Unit := do
  let pid := permissionId applicationId spec.scope
  let existing ← read fun db => db.permissions.get pid
  when (existing = none) (onDirectory (.insertPermission {
    permissionId := pid
    applicationId := applicationId
    resource := spec.resource
    operation := spec.operation
    description := spec.description }))

def ensurePermissions (applicationId : String) (rows : List PermissionSpec) : App Unit :=
  forEach rows (ensurePermission applicationId)

def ensureRolePermission (roleId applicationId : String) (s : Scope) : App Unit := do
  let row : RolePermission := ⟨roleId, permissionId applicationId s⟩
  let existing ← read fun db => db.rolePermissions.get row.key
  when (existing = none) (onDirectory (.insertRolePermission row))

def ensureRole (tenantId roleId applicationId name description : String) (scopes : List Scope) :
    App Unit := do
  let existing ← read fun db => db.roles.get roleId
  when (existing = none) (onDirectory (.insertRole {
    roleId := roleId
    tenantId := tenantId
    applicationId := applicationId
    name := name
    description := description
    createdAt := d.now }))
  forEach scopes (ensureRolePermission roleId applicationId)

def ensureGroupRole (groupId roleId : String) : App Unit := do
  let row : GroupRole := ⟨groupId, roleId⟩
  let existing ← read fun db => db.groupRoles.get row.key
  when (existing = none) (onDirectory (.insertGroupRole row))

def ensureGroup (tenantId groupId name description : String) (roleIds : List String) :
    App Unit := do
  let existing ← read fun db => db.groups.get groupId
  when (existing = none) (onDirectory (.insertGroup {
    groupId := groupId
    tenantId := tenantId
    name := name
    description := description
    createdAt := d.now }))
  forEach roleIds (ensureGroupRole groupId)

def ensureMembership (userId groupId : String) : App Unit := do
  let row : GroupMembership := ⟨groupId, userId⟩
  let existing ← read fun db => db.groupMemberships.get row.key
  when (existing = none) (onDirectory (.insertGroupMembership row))

def ensureUser (tenantId userId email password : String) (groupIds : List String)
    (isAdmin : Bool) : App Unit := do
  let email := env.lib.lower (strip email)
  let existing ← read fun db =>
    db.users.first? fun u => u.tenantId == tenantId && u.email == email
  match existing with
  | none => do
      onDirectory (.insertUser {
        userId := userId
        tenantId := tenantId
        email := email
        passwordHash := d.hashPassword password
        enabled := true
        isAdmin := isAdmin
        alwaysPasskey := none
        createdAt := d.now
        lastLoginAt := none })
      forEach groupIds (ensureMembership userId)
  -- someone else's row under that address is left alone
  | some row => when (row.userId = userId) (forEach groupIds (ensureMembership userId))

/-! ## Consoles -/

/-- `bootstrap_console`: application, roles and an admin group for a tenant. -/
def bootstrapConsole (tenant : Tenant) : App Unit := do
  let tid := tenant.tenantId
  let console := consoleApplicationId tid
  ensureApplication d tid console ("Consola " ++ tenant.name) none
  ensurePermissions console CONSOLE_PERMISSIONS
  ensureRole d tid (adminRoleId tid) console "tenant-admin"
    "Administrar la organización: directorio, aplicaciones y política de riesgo"
    TENANT_ADMIN_SCOPES
  ensureRole d tid (supportRoleId tid) console "support"
    "Explicar un inicio de sesión: leer decisiones y motivos, sin cambiar nada"
    SUPPORT_SCOPES
  ensureGroup d tid (adminGroupId tid) "Administradores"
    "Administran la organización en la consola" [adminRoleId tid]
  onDirectory (.setTenantAnchors tid console (adminGroupId tid))

/-! ## The seed itself -/

structure SeedUser where
  userId : String
  email : String
  groups : List String
  isAdmin : Bool := false

structure SeedApplication where
  applicationId : String
  name : String
  redirectUri : Option (Settings → String)

structure SeedRole where
  roleId : String
  applicationId : String
  name : String
  description : String
  scopes : List Scope

structure SeedGroup where
  groupId : String
  name : String
  description : String
  roleIds : List String

/-- `_SeedTenant` -/
structure SeedTenant where
  tenantId : String
  name : String
  domains : List String
  isPlatform : Bool := false
  loginStyle : String := "rokusec"
  primaryColour : String := "#1466E5"
  accentColour : String := "#152953"
  /-- a path on the origin of a redirect setting -/
  logo : Option ((Settings → String) × String) := none
  apps : List SeedApplication := []
  permissions : List (String × List PermissionSpec) := []
  roles : List SeedRole := []
  groups : List SeedGroup := []
  users : List SeedUser := []

def BANK_PERMISSIONS : List PermissionSpec :=
  [⟨"account", "read", "Ver saldos y datos de la cuenta"⟩,
    ⟨"transaction", "read", "Ver los movimientos"⟩,
    ⟨"transfer", "create", "Transferir dinero desde una cuenta"⟩]

def PORTAL_PERMISSIONS : List PermissionSpec :=
  [⟨"portal", "read", "Entrar al portal y leer su contenido"⟩,
    ⟨"projects", "write", "Crear y editar proyectos"⟩,
    ⟨"settings", "manage", "Administrar la configuración del portal"⟩]

def seedRokusec : SeedTenant where
  tenantId := PLATFORM_TENANT_ID
  name := "RokuSec"
  domains := ["rokusec.example"]
  isPlatform := true
  permissions := [("rokusec-console", PLATFORM_PERMISSIONS)]
  roles := [⟨"role_rokusec_platform_operator", "rokusec-console", "platform-operator",
    "Operar la plataforma: todas las organizaciones",
    TENANT_ADMIN_SCOPES ++ [("tenants", "read"), ("tenants", "write")]⟩]
  groups := [⟨"grp_rokusec_operators", "Operadores", "Operadores de la plataforma",
    ["role_rokusec_platform_operator"]⟩]
  users := [⟨"usr_rs_juan", "juan@rokusec.example",
    ["grp_rokusec_operators", "grp_rokusec_admins"], true⟩]

def seedRokuBank : SeedTenant where
  tenantId := "roku-bank"
  name := "Roku Bank"
  domains := ["rokubank.example"]
  loginStyle := "tenant"
  primaryColour := "#0B6E4F"
  accentColour := "#073B2A"
  logo := some (Settings.seedBankRedirectUri, "/static/brand/roku-bank-mark.svg")
  apps := [⟨"roku-bank-web", "Roku Bank", some Settings.seedBankRedirectUri⟩]
  permissions := [("roku-bank-web", BANK_PERMISSIONS)]
  roles :=
    [⟨"role_rb_customer", "roku-bank-web", "customer", "Banca completa: ver cuentas y transferir",
      [("account", "read"), ("transaction", "read"), ("transfer", "create")]⟩,
    ⟨"role_rb_viewer", "roku-bank-web", "viewer", "Solo consulta: ve saldos, no transfiere",
      [("account", "read"), ("transaction", "read")]⟩]
  groups :=
    [⟨"grp_rb_customers", "Clientes", "Clientes de banca minorista", ["role_rb_customer"]⟩,
    ⟨"grp_rb_viewers", "Solo consulta", "Acceso de solo lectura", ["role_rb_viewer"]⟩,
    ⟨"grp_rb_support", "Soporte", "Explican una decisión; no cambian nada",
      ["role_roku_bank_support"]⟩]
  users :=
    [⟨"usr_rb_martin", "martin@correo.example", ["grp_rb_customers"], false⟩,
    ⟨"usr_rb_sofia", "sofia@correo.example", ["grp_rb_viewers"], false⟩,
    ⟨"usr_rb_diego", "diego@rokubank.example", ["grp_roku_bank_admins"], true⟩,
    ⟨"usr_rb_ana", "ana@rokubank.example", ["grp_rb_support"], false⟩]

def seedKazeLabs : SeedTenant where
  tenantId := "kaze-labs"
  name := "Kaze Labs"
  domains := ["kazelabs.example"]
  apps := [⟨"kaze-portal", "Kaze Portal", some Settings.seedKazeRedirectUri⟩]
  permissions := [("kaze-portal", PORTAL_PERMISSIONS)]
  roles :=
    [⟨"role_kz_admin", "kaze-portal", "admin", "Todo el portal, configuración incluida",
      [("portal", "read"), ("projects", "write"), ("settings", "manage")]⟩,
    ⟨"role_kz_member", "kaze-portal", "member", "Lee el portal y edita proyectos",
      [("portal", "read"), ("projects", "write")]⟩,
    ⟨"role_kz_viewer", "kaze-portal", "viewer", "Solo lectura", [("portal", "read")]⟩]
  groups :=
    [⟨"grp_kz_team", "Equipo", "Empleados de Kaze Labs", ["role_kz_member"]⟩,
    ⟨"grp_kz_guests", "Invitados", "Acceso de solo lectura", ["role_kz_viewer"]⟩,
    ⟨"grp_kz_portal_admins", "Administradores del portal", "Configuran el portal",
      ["role_kz_admin"]⟩]
  users :=
    [⟨"usr_kz_lucas", "lucas@kazelabs.example", ["grp_kaze_labs_admins", "grp_kz_portal_admins"],
      true⟩,
    ⟨"usr_kz_martin", "martin@kazelabs.example", ["grp_kz_team"], false⟩,
    ⟨"usr_kz_valen", "valen@kazelabs.example", ["grp_kz_guests"], false⟩]

def SEED_TENANTS : List SeedTenant := [seedRokusec, seedRokuBank, seedKazeLabs]

/-- `seed_password`: what stands before the first `@`, and the suffix. -/
def seedPassword (email : String) : String :=
  (partition email '@').1 ++ "-" ++ env.settings.seedPasswordSuffix

/-- One tenant of `seed_identity`. -/
def seedTenant (spec : SeedTenant) : App Unit := do
  let tenant ← ensureTenant {
    tenantId := spec.tenantId
    name := spec.name
    isPlatform := spec.isPlatform
    consoleApplicationId := none
    adminGroupId := none
    displayName := spec.name
    loginStyle := spec.loginStyle
    logoUrl := none
    primaryColour := spec.primaryColour
    accentColour := spec.accentColour
    createdAt := d.now }
  when (tenant.logoUrl = none) do
    ifSome spec.logo fun logo => do
      let (scheme, netloc) := env.lib.originOf (logo.1 env.settings)
      onDirectory (.setTenantLogo spec.tenantId (scheme ++ "://" ++ netloc ++ logo.2))
  forEach spec.domains (ensureDomain spec.tenantId)
  bootstrapConsole d tenant
  forEach spec.apps fun app =>
    ensureApplication d spec.tenantId app.applicationId app.name
      ((app.redirectUri.map fun setting => setting env.settings).filter fun uri => uri != "")
  forEach spec.permissions fun rows => ensurePermissions rows.1 rows.2
  forEach spec.roles fun role =>
    ensureRole d spec.tenantId role.roleId role.applicationId role.name role.description role.scopes
  forEach spec.groups fun group =>
    ensureGroup d spec.tenantId group.groupId group.name group.description group.roleIds
  forEach spec.users fun user =>
    ensureUser env d spec.tenantId user.userId user.email (seedPassword env user.email) user.groups
      user.isAdmin

/-- `seed_identity`; the loop at its end gives a client id to applications
registered before client ids existed. -/
def seedIdentity : App Unit :=
  transaction do
    forEach SEED_TENANTS (seedTenant env d)
    let unnamed ← read fun db => db.applications.select fun app => app.clientId.isNone
    forEach unnamed fun app =>
      onDirectory (.setApplicationClientId app.applicationId (clientIdFor d app.applicationId))

end RbaIdp
