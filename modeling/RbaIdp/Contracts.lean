import RbaIdp.Db.Models

/-!
# The bodies of requests and answers

The request and answer models of the API, as far as the services read and
return them.  Ids that travel as UUIDs are their text.  A callback URL is kept
as the registered URI and the code put into its query.
-/

namespace RbaIdp

/-! ## Sign-in -/

inductive LoginOutcome where
  | AUTHENTICATED
  | INVALID_CREDENTIALS
  | ACCESS_DENIED
  | MFA_REQUIRED
  | REAUTH_REQUIRED
  | BLOCKED
  | SECOND_FACTOR_MISSING
deriving DecidableEq

/-- What both kinds of login report about themselves. -/
structure ClientSignals where
  ipAddress : String
  asn : Option String
  country : Option String
  deviceType : Option String
  os : Option String
  browser : Option String
  userAgent : Option String
deriving DecidableEq

structure LoginRequest extends ClientSignals where
  applicationId : String
  email : String
  password : String
  redirectUri : Option String
deriving DecidableEq

structure ConsoleLoginRequest extends ClientSignals where
  email : String
  password : String
deriving DecidableEq

structure SessionToken where
  token : String
  expiresAt : Time
deriving DecidableEq

/-- A redirect back to an application: `append_query(target, code=code)`. -/
structure Callback where
  target : String
  code : String
deriving DecidableEq

structure LoginResponse where
  outcome : LoginOutcome
  userId : Option String := none
  eventId : Option String := none
  action : Option Action := none
  riskScore : Option ℚ := none
  riskLevel : Option RiskLevel := none
  reasons : List Reason := []
  session : Option SessionToken := none
  challengeId : Option String := none
  redirectTo : Option Callback := none
  passkeyOffer : Bool := false
  unusual : Bool := false
  detail : Option String := none
deriving DecidableEq

structure MfaVerifyRequest where
  challengeId : String
  code : String
  redirectUri : Option String

structure MfaWebAuthnOptionsRequest where
  challengeId : String

/-- The options of a `navigator.credentials.get` call. -/
structure RequestOptions where
  challenge : Bytes
  allowCredentials : List String
deriving DecidableEq

structure MfaWebAuthnOptionsResponse where
  challengeId : String
  mode : WebAuthnCeremonyMode
  publicKey : RequestOptions
deriving DecidableEq

/-- The answer of a browser's authenticator: the `id` of the JSON object when
it is a string, and the rest of it. -/
structure Credential where
  id : Option String
  payload : String
deriving DecidableEq

structure MfaWebAuthnVerifyRequest where
  challengeId : String
  credential : Credential
  redirectUri : Option String

structure CallbackTokenRequest where
  code : String

structure UserPublic where
  tenantId : String
  userId : String
  email : String
  createdAt : Time
  isAdmin : Bool
deriving DecidableEq

structure CallbackTokenResponse where
  session : SessionToken
  user : UserPublic
deriving DecidableEq

structure SessionResponse where
  user : UserPublic
  expiresAt : Time
  applicationId : String
  permissions : List String
deriving DecidableEq

/-! ## Enrollment -/

/-- The options of a `navigator.credentials.create` call. -/
structure CreationOptions where
  challenge : Bytes
  userId : String
  userName : String
deriving DecidableEq

structure PasskeyOptionsResponse where
  publicKey : CreationOptions
deriving DecidableEq

structure PasskeyVerifyRequest where
  credential : Credential

structure ActivationCodeResponse where
  userId : String
  code : String
  expiresAt : Time
deriving DecidableEq

structure ActivationOptionsRequest where
  code : String
  password : String

structure ActivationVerifyRequest where
  code : String
  credential : Credential

/-! ## The admin API: requests -/

structure TenantBranding where
  displayName : String
  loginStyle : String
  logoUrl : Option String
  primaryColour : String
  accentColour : String
deriving DecidableEq

structure CreateTenantRequest where
  tenantId : String
  name : String
  operatorDomains : List String
  branding : Option TenantBranding

structure PatchTenantRequest where
  name : Option String := none
  operatorDomains : Option (List String) := none
  branding : Option TenantBranding := none

structure CreateUserRequest where
  email : String
  password : String
  isAdmin : Bool

structure PatchUserRequest where
  enabled : Option Bool := none
  isAdmin : Option Bool := none
  password : Option String := none
  alwaysPasskey : Option Bool := none

structure CreateApplicationRequest where
  applicationId : String
  name : String
  redirectUri : Option String

structure PatchApplicationRequest where
  name : Option String := none
  enabled : Option Bool := none
  redirectUri : Option String := none
  alwaysPasskey : Option Bool := none

structure CreateGroupRequest where
  groupId : Option String
  name : String
  description : String

structure PatchGroupRequest where
  name : Option String := none
  description : Option String := none

structure AddGroupMemberRequest where
  userId : String

structure AddGroupRoleRequest where
  roleId : String

structure CreateRoleRequest where
  roleId : Option String
  applicationId : String
  name : String
  description : String

structure PatchRoleRequest where
  name : Option String := none
  description : Option String := none

structure SetRolePermissionsRequest where
  permissionIds : List String

structure CreatePermissionRequest where
  applicationId : String
  resource : String
  operation : String
  description : String

/-! ## The admin API: answers -/

structure TenantPublic where
  tenantId : String
  name : String
  operatorDomains : List String
  branding : TenantBranding
  isPlatform : Bool
  createdAt : Time
deriving DecidableEq

structure GroupRef where
  groupId : String
  name : String
deriving DecidableEq

structure AdminUserPublic where
  tenantId : String
  userId : String
  email : String
  enabled : Bool
  isAdmin : Bool
  createdAt : Time
  groups : List GroupRef
  passkeys : ℕ
  lastLoginAt : Option Time
  alwaysPasskey : Bool
deriving DecidableEq

structure ApplicationPublic where
  tenantId : String
  applicationId : String
  clientId : Option String
  name : String
  enabled : Bool
  createdAt : Time
  redirectUri : Option String
  alwaysPasskey : Bool
deriving DecidableEq

structure GroupPublic where
  tenantId : String
  groupId : String
  name : String
  description : String
  memberCount : ℕ
  createdAt : Time
deriving DecidableEq

structure GroupMemberPublic where
  userId : String
  email : String
deriving DecidableEq

structure GroupRolePublic where
  roleId : String
  applicationId : String
  name : String
deriving DecidableEq

structure GroupDetail extends GroupPublic where
  members : List GroupMemberPublic
  roles : List GroupRolePublic
deriving DecidableEq

structure PermissionPublic where
  permissionId : String
  applicationId : String
  resource : String
  operation : String
  description : String
deriving DecidableEq

structure RolePublic where
  tenantId : String
  roleId : String
  applicationId : String
  name : String
  description : String
  permissionCount : ℕ
  createdAt : Time
deriving DecidableEq

structure RoleDetail extends RolePublic where
  permissions : List PermissionPublic
deriving DecidableEq

end RbaIdp
