import RbaIdp.Seed
import RbaIdp.Services.Enrollment

/-!
# The admin service

`services/admin.py`.  Every request resolves to an `Operator`: who is asking,
which tenant they act on and what they may do there.  Every method takes that
tenant and filters by it; an object of another tenant answers exactly like a
missing one.
-/

namespace RbaIdp

open Relational Program

/-- The caller of one admin request, already authorized for it. -/
structure Operator where
  userId : String
  homeTenantId : String
  /-- the tenant every query of this request is scoped to -/
  tenantId : String
  permissions : Finset String
  isPlatformOperator : Bool

/-! ## Serialisers -/

section Serialisers

variable (db : Db)

/-- `_users_public`, for one row -/
def userPublicOf (row : User) : AdminUserPublic where
  tenantId := row.tenantId
  userId := row.userId
  email := row.email
  enabled := row.enabled
  isAdmin := row.isAdmin
  createdAt := row.createdAt
  groups := (sortOn (fun g : Group => [g.name])
      ((db.groupMemberships.select fun m => m.userId == row.userId).filterMap fun m =>
        db.groups.get m.groupId)).map fun g => ⟨g.groupId, g.name⟩
  passkeys := (db.webauthnCredentials.select fun c => c.userId == row.userId).length
  lastLoginAt := row.lastLoginAt
  alwaysPasskey := row.alwaysPasskey.getD false

/-- `_app_public` -/
def appPublic (row : Application) : ApplicationPublic where
  tenantId := row.tenantId
  applicationId := row.applicationId
  clientId := row.clientId
  name := row.name
  enabled := row.enabled
  createdAt := row.createdAt
  redirectUri := row.redirectUri
  alwaysPasskey := row.alwaysPasskey.getD false

/-- `_tenant_public` -/
def tenantPublic (row : Tenant) : TenantPublic where
  tenantId := row.tenantId
  name := row.name
  operatorDomains := sortOn (fun domain => [domain])
    ((db.tenantDomains.select fun r => r.tenantId == row.tenantId).map TenantDomain.domain)
  branding := ⟨row.displayName, row.loginStyle, row.logoUrl, row.primaryColour, row.accentColour⟩
  isPlatform := row.isPlatform
  createdAt := row.createdAt

/-- `_permission_public` -/
def permissionPublic (row : Permission) : PermissionPublic :=
  ⟨row.permissionId, row.applicationId, row.resource, row.operation, row.description⟩

/-- `_role_permissions` -/
def rolePermissionsOf (roleId : String) : List Permission :=
  sortOn (fun p : Permission => [p.resource, p.operation])
    ((db.rolePermissions.select fun rp => rp.roleId == roleId).filterMap fun rp =>
      db.permissions.get rp.permissionId)

/-- A role with the number of its permissions. -/
def rolePublic (row : Role) : RolePublic where
  tenantId := row.tenantId
  roleId := row.roleId
  applicationId := row.applicationId
  name := row.name
  description := row.description
  permissionCount := (db.rolePermissions.select fun rp => rp.roleId == row.roleId).length
  createdAt := row.createdAt

/-- `_role_detail`; here the count is the length of the list shown. -/
def roleDetail (row : Role) : RoleDetail where
  toRolePublic := { rolePublic db row with
    permissionCount := (rolePermissionsOf db row.roleId).length }
  permissions := (rolePermissionsOf db row.roleId).map permissionPublic

/-- `_member_counts` -/
def memberCount (groupId : String) : ℕ :=
  (db.groupMemberships.select fun m => m.groupId == groupId).length

def groupPublic (row : Group) : GroupPublic where
  tenantId := row.tenantId
  groupId := row.groupId
  name := row.name
  description := row.description
  memberCount := memberCount db row.groupId
  createdAt := row.createdAt

/-- `_group_detail` -/
def groupDetail (row : Group) : GroupDetail where
  toGroupPublic := groupPublic db row
  members := (sortOn (fun m : GroupMembership => [m.userId])
      (db.groupMemberships.select fun m => m.groupId == row.groupId)).map fun m =>
    ⟨m.userId, ((db.users.get m.userId).map User.email).getD m.userId⟩
  roles := (sortOn (fun r : Role => [r.applicationId, r.name])
      ((db.groupRoles.select fun gr => gr.groupId == row.groupId).filterMap fun gr =>
        db.roles.get gr.roleId)).map fun r => ⟨r.roleId, r.applicationId, r.name⟩

end Serialisers

/-! ## Tenant-scoped lookups

Each answers 404 for "missing" and for "another tenant's" alike. -/

def requireUser (tenantId userId : String) : App User := do
  let row ← read fun db => db.users.get userId
  require (row.filter fun r => r.tenantId == tenantId) ⟨404, "unknown user"⟩

def requireApplication (tenantId applicationId : String) : App Application := do
  let row ← read fun db => db.applications.get applicationId
  require (row.filter fun r => r.tenantId == tenantId) ⟨404, "unknown application"⟩

def requireGroup (tenantId groupId : String) : App Group := do
  let row ← read fun db => db.groups.get groupId
  require (row.filter fun r => r.tenantId == tenantId) ⟨404, "unknown group"⟩

def requireRole (tenantId roleId : String) : App Role := do
  let row ← read fun db => db.roles.get roleId
  require (row.filter fun r => r.tenantId == tenantId) ⟨404, "unknown role"⟩

def requireTenant (tenantId : String) : App Tenant := do
  let row ← read fun db => db.tenants.get tenantId
  require row ⟨404, "unknown tenant"⟩

/-- `_sync_admin_flag`: the flag drives membership of the tenant's admin group,
which is what carries the console role. -/
def syncAdminFlag (tenant : Tenant) (userId : String) (isAdmin : Bool) : App Unit := do
  let group ← read fun db => (nonEmpty tenant.adminGroupId).bind db.groups.get
  ifSome group fun group => do
    let membership ← read fun db => db.groupMemberships.get (group.groupId, userId)
    when (isAdmin = true ∧ membership = none)
      (onDirectory (.insertGroupMembership ⟨group.groupId, userId⟩))
    when (isAdmin = false ∧ membership ≠ none)
      (onDirectory (.deleteGroupMembership group.groupId userId))

/-- `_set_domains`: replace a tenant's operator domains. -/
def setDomains (tenantId : String) (domains : List String) : App Unit := do
  forEach domains fun domain => do
    let owner ← read fun db => db.tenantDomains.get domain
    raiseIf ((owner.filter fun r => r.tenantId != tenantId).isSome = true)
      ⟨409, "domain already registered: " ++ domain⟩
  onDirectory (.deleteTenantDomains tenantId)
  forEach domains fun domain => onDirectory (.insertTenantDomain ⟨domain, tenantId⟩)

/-- `starter_policy`: password only, with the engine watching and enforcing nothing. -/
def starterPolicy (tenantId : String) : TenantPolicy where
  tenantId := tenantId
  policyVersion := "1.0.0"
  basePolicy := .PASSWORD_ONLY
  engineMode := .MONITOR
  scoreToLevel := [⟨2 / 5, .LOW⟩, ⟨3 / 5, .MEDIUM⟩, ⟨4 / 5, .HIGH⟩, ⟨1, .CRITICAL⟩]
  levelToAction := ⟨.ALLOW, .REQUIRE_MFA, .REAUTHENTICATE, .REAUTHENTICATE⟩
  fallbackAction := .REQUIRE_MFA

/-! ## The guard -/

def requiresPermission (needs : Scope) : HTTPException :=
  ⟨403, "requires permission " ++ scope needs⟩

/-- The block of `authorize` that finds the tenant to act on: the caller must be
on the console of their own tenant, and only a platform operator may name
another one. -/
def resolveTenant (row : IdpSession) (user : User) (permissions : Finset String)
    (actingTenant : Option String) : App (Bool × String) :=
  transaction do
    let home ← read fun db => db.tenants.get user.tenantId
    let home ← require (home.filter fun home => some row.applicationId == home.consoleApplicationId)
      ⟨403, "not a console session"⟩
    let platform := home.isPlatform && decide (scope TENANTS_READ ∈ permissions)
    let target := (nonEmpty (actingTenant.map strip)).getD home.tenantId
    when (target ≠ home.tenantId) do
      raiseIf (platform = false) (requiresPermission TENANTS_READ)
      let _ ← requireTenant target
      pure ()
    pure (platform, target)

variable (env : Env) (d : Draws)

/-- `authorize`: resolve the caller and check one permission on their console.
`actingTenant` is the `X-RokuSec-Tenant` header. -/
def authorize (authorization actingTenant : Option String) (needs : Scope) : App Operator := do
  let (row, user, permissions) ← loadSession env d authorization
  let (platform, target) ← resolveTenant row user permissions actingTenant
  raiseIf (scope needs ∉ permissions) (requiresPermission needs)
  pure {
    userId := user.userId
    homeTenantId := user.tenantId
    tenantId := target
    permissions := permissions
    isPlatformOperator := platform }

def authorizePlatform (authorization : Option String) (needs : Scope) : App Operator := do
  let op ← authorize env d authorization none needs
  raiseIf (op.isPlatformOperator = false) (requiresPermission TENANTS_READ)
  pure op

variable (op : Operator)

/-! ## Tenants -/

def currentTenant : App TenantPublic :=
  transaction do
    let row ← requireTenant op.tenantId
    read fun db => tenantPublic db row

def listTenants : App (List TenantPublic) :=
  transaction do
    read fun db =>
      (sortOn (fun row : Tenant => [row.name]) db.tenants.rows).map (tenantPublic db)

/-- The row `create_tenant` adds. -/
def tenantRow (body : CreateTenantRequest) : Tenant :=
  let branding := body.branding.getD (env.lib.defaultBranding body.name)
  { tenantId := body.tenantId
    name := body.name
    isPlatform := false
    consoleApplicationId := none
    adminGroupId := none
    displayName := branding.displayName
    loginStyle := branding.loginStyle
    logoUrl := branding.logoUrl
    primaryColour := branding.primaryColour
    accentColour := branding.accentColour
    createdAt := d.now }

/-- The row as `session.refresh` finds it. -/
def refreshTenant (tenantId : String) : App TenantPublic := do
  let row ← requireTenant tenantId
  read fun db => tenantPublic db row

/-- The insert transaction of `create_tenant`. -/
def insertTenant (body : CreateTenantRequest) : App TenantPublic :=
  transaction do
    onIntegrity (do
      onDirectory (.insertTenant (tenantRow env d body))
      setDomains body.tenantId body.operatorDomains
      bootstrapConsole d (tenantRow env d body)) ⟨409, "tenant already exists"⟩
    refreshTenant body.tenantId

/-- The block of `create_tenant` that looks whether the id is free, and every domain. -/
def checkTenant (body : CreateTenantRequest) : App Unit :=
  transaction do
    let existing ← read fun db => db.tenants.get body.tenantId
    raiseIf (existing ≠ none) ⟨409, "tenant_id already exists"⟩
    forEach body.operatorDomains fun domain => do
      let owner ← read fun db => db.tenantDomains.get domain
      raiseIf (owner ≠ none) ⟨409, "domain already registered: " ++ domain⟩

def PDP_UNAVAILABLE : HTTPException := ⟨503, "PDP unavailable"⟩

/-- `create_tenant`.  The policy is written first: a tenant the risk engine has
no policy for would have every login degraded to a step-up. -/
def createTenant (body : CreateTenantRequest) : App TenantPublic := do
  checkTenant body
  Program.call (.putPolicy (starterPolicy body.tenantId) d.policySaved)
  raiseIf (d.policySaved = false) PDP_UNAVAILABLE
  insertTenant env d body

def patchTenant (tenantId : String) (body : PatchTenantRequest) : App TenantPublic :=
  transaction do
    let _ ← requireTenant tenantId
    ifSome body.name fun name => onDirectory (.setTenantName tenantId name)
    ifSome body.operatorDomains fun domains => setDomains tenantId domains
    ifSome body.branding fun branding => onDirectory (.setTenantBranding tenantId branding)
    refreshTenant tenantId

/-! ## Users -/

/-- The row as `session.refresh` finds it. -/
def refreshUser (userId : String) : App AdminUserPublic := do
  let row ← requireUser op.tenantId userId
  read fun db => userPublicOf db row

def listUsers : App (List AdminUserPublic) :=
  transaction do
    read fun db =>
      (sortOn (fun row : User => [row.email])
        (db.users.select fun row => row.tenantId == op.tenantId)).map (userPublicOf db)

def createUser (body : CreateUserRequest) : App AdminUserPublic :=
  transaction do
    let email := env.lib.lower (strip body.email)
    let userId := "usr_" ++ d.hex12
    let tenant ← requireTenant op.tenantId
    let clash ← read fun db => userByEmail env db.toDirectory op.tenantId body.email
    raiseIf (clash ≠ none) ⟨409, "email already exists"⟩
    onIntegrity (onDirectory (.insertUser {
      userId := userId
      tenantId := op.tenantId
      email := email
      passwordHash := d.hashPassword body.password
      enabled := true
      isAdmin := body.isAdmin
      alwaysPasskey := none
      createdAt := d.now
      lastLoginAt := none })) ⟨409, "email already exists"⟩
    syncAdminFlag tenant userId body.isAdmin
    refreshUser op userId

def patchUser (userId : String) (body : PatchUserRequest) : App AdminUserPublic :=
  transaction do
    let _ ← requireUser op.tenantId userId
    ifSome body.enabled fun enabled => onDirectory (.setUserEnabled userId enabled)
    ifSome body.isAdmin fun isAdmin => do
      onDirectory (.setUserIsAdmin userId isAdmin)
      let tenant ← requireTenant op.tenantId
      syncAdminFlag tenant userId isAdmin
    ifSome body.password fun password =>
      onDirectory (.setUserPasswordHash userId (d.hashPassword password))
    ifSome body.alwaysPasskey fun alwaysPasskey =>
      onDirectory (.setUserAlwaysPasskey userId alwaysPasskey)
    refreshUser op userId

def issueActivationCode (userId : String) : App ActivationCodeResponse :=
  transaction do
    let user ← requireUser op.tenantId userId
    raiseIf (user.enabled = false) ⟨409, "user is disabled"⟩
    issueCode env d user op.userId

/-! ## Applications -/

def refreshApplication (applicationId : String) : App ApplicationPublic := do
  let row ← requireApplication op.tenantId applicationId
  pure (appPublic row)

def listApplications : App (List ApplicationPublic) :=
  transaction do
    read fun db =>
      (sortOn (fun row : Application => [row.applicationId])
        (db.applications.select fun row => row.tenantId == op.tenantId)).map appPublic

def createApplication (body : CreateApplicationRequest) : App ApplicationPublic :=
  transaction do
    -- ids route a login to its tenant, so another tenant's id is still a clash
    let existing ← read fun db => db.applications.get body.applicationId
    raiseIf (existing ≠ none) ⟨409, "application_id already exists"⟩
    onDirectory (.insertApplication {
      applicationId := body.applicationId
      clientId := some (d.newClientId body.applicationId)
      tenantId := op.tenantId
      name := body.name
      enabled := true
      redirectUri := body.redirectUri
      alwaysPasskey := none
      createdAt := d.now })
    refreshApplication op body.applicationId

def patchApplication (applicationId : String) (body : PatchApplicationRequest) :
    App ApplicationPublic :=
  transaction do
    let _ ← requireApplication op.tenantId applicationId
    let tenant ← requireTenant op.tenantId
    -- disabling the console would lock every operator out, with no way back in
    raiseIf (body.enabled = some false ∧ some applicationId = tenant.consoleApplicationId)
      ⟨409, "the console cannot be disabled"⟩
    ifSome body.name fun name => onDirectory (.setApplicationName applicationId name)
    ifSome body.enabled fun enabled => onDirectory (.setApplicationEnabled applicationId enabled)
    ifSome body.redirectUri fun redirectUri =>
      onDirectory (.setApplicationRedirectUri applicationId (nonEmpty (some redirectUri)))
    ifSome body.alwaysPasskey fun alwaysPasskey =>
      onDirectory (.setApplicationAlwaysPasskey applicationId alwaysPasskey)
    refreshApplication op applicationId

/-! ## Groups -/

/-- The group as it stands, in detail. -/
def refreshGroup (groupId : String) : App GroupDetail := do
  let row ← requireGroup op.tenantId groupId
  read fun db => groupDetail db row

def listGroups : App (List GroupPublic) :=
  transaction do
    read fun db =>
      (sortOn (fun row : Group => [row.name])
        (db.groups.select fun row => row.tenantId == op.tenantId)).map (groupPublic db)

def getGroup (groupId : String) : App GroupDetail := transaction (refreshGroup op groupId)

def createGroup (body : CreateGroupRequest) : App GroupDetail :=
  transaction do
    let groupId := (nonEmpty body.groupId).getD ("grp_" ++ d.hex12)
    let existing ← read fun db => db.groups.get groupId
    raiseIf (existing ≠ none) ⟨409, "group_id already exists"⟩
    let existingName ← read fun db =>
      db.groups.first? fun g => g.tenantId == op.tenantId && g.name == body.name
    raiseIf (existingName ≠ none) ⟨409, "group name already exists"⟩
    onIntegrity (onDirectory (.insertGroup {
      groupId := groupId
      tenantId := op.tenantId
      name := body.name
      description := body.description
      createdAt := d.now })) ⟨409, "group_id or name already exists"⟩
    refreshGroup op groupId

def patchGroup (groupId : String) (body : PatchGroupRequest) : App GroupDetail :=
  transaction do
    let _ ← requireGroup op.tenantId groupId
    ifSome body.name fun name => do
      let clash ← read fun db => db.groups.first? fun g =>
        g.tenantId == op.tenantId && g.name == name && g.groupId != groupId
      raiseIf (clash ≠ none) ⟨409, "group name already exists"⟩
    onIntegrity (do
      ifSome body.name fun name => onDirectory (.setGroupName groupId name)
      ifSome body.description fun description =>
        onDirectory (.setGroupDescription groupId description)) ⟨409, "group name already exists"⟩
    refreshGroup op groupId

def deleteGroup (groupId : String) : App Unit :=
  transaction do
    let _ ← requireGroup op.tenantId groupId
    let tenant ← requireTenant op.tenantId
    raiseIf (some groupId = tenant.adminGroupId) ⟨409, "the admin group cannot be deleted"⟩
    onDirectory (.deleteMembershipsOfGroup groupId)
    onDirectory (.deleteRolesOfGroup groupId)
    onDirectory (.deleteGroup groupId)

def addMember (groupId : String) (body : AddGroupMemberRequest) : App GroupDetail :=
  transaction do
    let _ ← requireGroup op.tenantId groupId
    let _ ← requireUser op.tenantId body.userId
    let existing ← read fun db => db.groupMemberships.get (groupId, body.userId)
    raiseIf (existing ≠ none) ⟨409, "user is already a member"⟩
    onDirectory (.insertGroupMembership ⟨groupId, body.userId⟩)
    refreshGroup op groupId

def removeMember (groupId userId : String) : App GroupDetail :=
  transaction do
    let _ ← requireGroup op.tenantId groupId
    let membership ← read fun db => db.groupMemberships.get (groupId, userId)
    raiseIf (membership = none) ⟨404, "unknown membership"⟩
    onDirectory (.deleteGroupMembership groupId userId)
    refreshGroup op groupId

/-- `add_group_role`: this is also what grants sign-in to the role's application. -/
def addGroupRole (groupId : String) (body : AddGroupRoleRequest) : App GroupDetail :=
  transaction do
    let _ ← requireGroup op.tenantId groupId
    let _ ← requireRole op.tenantId body.roleId
    let existing ← read fun db => db.groupRoles.get (groupId, body.roleId)
    raiseIf (existing ≠ none) ⟨409, "role already assigned"⟩
    onDirectory (.insertGroupRole ⟨groupId, body.roleId⟩)
    refreshGroup op groupId

def removeGroupRole (groupId roleId : String) : App GroupDetail :=
  transaction do
    let _ ← requireGroup op.tenantId groupId
    let assignment ← read fun db => db.groupRoles.get (groupId, roleId)
    raiseIf (assignment = none) ⟨404, "unknown role assignment"⟩
    onDirectory (.deleteGroupRole groupId roleId)
    refreshGroup op groupId

/-! ## Roles -/

/-- The role as it stands, in detail. -/
def refreshRole (roleId : String) : App RoleDetail := do
  let row ← requireRole op.tenantId roleId
  read fun db => roleDetail db row

def listRoles (applicationId : Option String) : App (List RolePublic) :=
  transaction do
    read fun db =>
      (sortOn (fun row : Role => [row.applicationId, row.name])
        (db.roles.select fun row => row.tenantId == op.tenantId &&
          applicationId.all fun a => row.applicationId == a)).map (rolePublic db)

def getRole (roleId : String) : App RoleDetail := transaction (refreshRole op roleId)

def createRole (body : CreateRoleRequest) : App RoleDetail :=
  transaction do
    let roleId := (nonEmpty body.roleId).getD ("role_" ++ d.hex12)
    let _ ← requireApplication op.tenantId body.applicationId
    let existing ← read fun db => db.roles.get roleId
    raiseIf (existing ≠ none) ⟨409, "role_id already exists"⟩
    let clash ← read fun db =>
      db.roles.first? fun r => r.applicationId == body.applicationId && r.name == body.name
    raiseIf (clash ≠ none) ⟨409, "role name already exists for this application"⟩
    onIntegrity (onDirectory (.insertRole {
      roleId := roleId
      tenantId := op.tenantId
      applicationId := body.applicationId
      name := body.name
      description := body.description
      createdAt := d.now })) ⟨409, "role_id or name already exists"⟩
    refreshRole op roleId

def patchRole (roleId : String) (body : PatchRoleRequest) : App RoleDetail :=
  transaction do
    let row ← requireRole op.tenantId roleId
    ifSome body.name fun name => do
      let clash ← read fun db => db.roles.first? fun r =>
        r.applicationId == row.applicationId && r.name == name && r.roleId != roleId
      raiseIf (clash ≠ none) ⟨409, "role name already exists for this application"⟩
      onDirectory (.setRoleName roleId name)
    ifSome body.description fun description =>
      onDirectory (.setRoleDescription roleId description)
    refreshRole op roleId

def deleteRole (roleId : String) : App Unit :=
  transaction do
    let _ ← requireRole op.tenantId roleId
    onDirectory (.deletePermissionsOfRole roleId)
    onDirectory (.deleteGroupsOfRole roleId)
    onDirectory (.deleteRole roleId)

/-- The permission of an id, when it is on an application of the tenant. -/
def ownPermission (db : Directory) (tenantId permissionId : String) : Option Permission :=
  (db.permissions.get permissionId).filter fun p =>
    ((db.applications.get p.applicationId).filter fun a => a.tenantId == tenantId).isSome

/-- `set_role_permissions`: replace the role's permission set. -/
def setRolePermissions (roleId : String) (body : SetRolePermissionsRequest) : App RoleDetail :=
  transaction do
    let wanted := sortOn (fun pid => [pid]) body.permissionIds.dedup
    let row ← requireRole op.tenantId roleId
    -- another tenant's permission is reported as unknown
    let missing ← read fun db =>
      wanted.filter fun pid => (ownPermission db.toDirectory op.tenantId pid).isNone
    raiseIf (missing ≠ []) ⟨404, "unknown permission(s): " ++ ", ".intercalate missing⟩
    -- a role on one application must never carry another application's permissions
    let foreign ← read fun db =>
      wanted.filter fun pid => (ownPermission db.toDirectory op.tenantId pid).any fun p =>
        p.applicationId != row.applicationId
    raiseIf (foreign ≠ [])
      ⟨422, "permission(s) belong to a different application: " ++ ", ".intercalate foreign⟩
    onDirectory (.deletePermissionsOfRole roleId)
    forEach wanted fun pid => onDirectory (.insertRolePermission ⟨roleId, pid⟩)
    refreshRole op roleId

/-! ## Permissions -/

def listPermissions (applicationId : Option String) : App (List PermissionPublic) :=
  transaction do
    read fun db =>
      (sortOn (fun row : Permission => [row.applicationId, row.resource, row.operation])
        (db.permissions.select fun row =>
          ((db.applications.get row.applicationId).filter fun a =>
            a.tenantId == op.tenantId).isSome &&
          applicationId.all fun a => row.applicationId == a)).map permissionPublic

def createPermission (body : CreatePermissionRequest) : App PermissionPublic :=
  transaction do
    let row : Permission := {
      permissionId := permissionId body.applicationId (body.resource, body.operation)
      applicationId := body.applicationId
      resource := body.resource
      operation := body.operation
      description := body.description }
    let _ ← requireApplication op.tenantId body.applicationId
    let existing ← read fun db => db.permissions.get row.permissionId
    raiseIf (existing ≠ none) ⟨409, "permission already exists"⟩
    onIntegrity (onDirectory (.insertPermission row)) ⟨409, "permission already exists"⟩
    pure (permissionPublic row)

end RbaIdp
