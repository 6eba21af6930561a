import Mathlib.Data.Rat.Defs
import RbaIdp.Relational.Table

/-!
# The tables of the identity provider

The rows of `db/models.py`.  Every application, user, group and role belongs to
one tenant; permissions follow their application; sessions, challenges,
passkeys and codes follow their user.  Authorization is
`user → group → role → permission`, with every role on one application.

The tables come in two halves.  `Directory` is what operators edit: tenants and
who may do what.  `Artefacts` is what sign-in leaves behind: sessions, open
challenges, codes and passkeys.  `Db` is both.

A `created_at` column is kept where an answer shows it.  Lengths of string
columns are not modelled.
-/

namespace RbaIdp

open Relational

/-- Microseconds since the epoch, UTC. -/
abbrev Time := ℤ

/-- `timedelta(seconds=n)` -/
def seconds (n : ℤ) : Time := n * 1000000

abbrev Bytes := List UInt8

/-! ## Enumerations shared with the risk engine -/

inductive Action where
  | ALLOW
  | REQUIRE_MFA
  | REAUTHENTICATE
  | BLOCK
deriving DecidableEq

inductive RiskLevel where
  | LOW
  | MEDIUM
  | HIGH
  | CRITICAL
deriving DecidableEq

inductive WebAuthnCeremonyMode where
  | GET
  | CREATE
deriving DecidableEq

/-- One reason of a risk decision. -/
structure Reason where
  code : String
  signal : String
  contribution : Option ℚ
  detail : String
deriving DecidableEq

/-! ## The directory -/

/-- An organisation that uses the provider. -/
structure Tenant where
  tenantId : String
  name : String
  isPlatform : Bool
  consoleApplicationId : Option String
  adminGroupId : Option String
  displayName : String
  loginStyle : String
  logoUrl : Option String
  primaryColour : String
  accentColour : String
  createdAt : Time
deriving DecidableEq

/-- Operator email domain and the tenant it routes to. -/
structure TenantDomain where
  domain : String
  tenantId : String
deriving DecidableEq

/-- A registered client; its id is unique across the platform. -/
structure Application where
  applicationId : String
  clientId : Option String
  tenantId : String
  name : String
  enabled : Bool
  redirectUri : Option String
  alwaysPasskey : Option Bool
  createdAt : Time
deriving DecidableEq

structure User where
  userId : String
  tenantId : String
  email : String
  passwordHash : String
  enabled : Bool
  isAdmin : Bool
  alwaysPasskey : Option Bool
  createdAt : Time
  lastLoginAt : Option Time
deriving DecidableEq

structure Group where
  groupId : String
  tenantId : String
  name : String
  description : String
  createdAt : Time
deriving DecidableEq

structure GroupMembership where
  groupId : String
  userId : String
deriving DecidableEq

/-- One operation on one resource of one application. -/
structure Permission where
  permissionId : String
  applicationId : String
  resource : String
  operation : String
  description : String
deriving DecidableEq

/-- A named bundle of permissions on one application. -/
structure Role where
  roleId : String
  tenantId : String
  applicationId : String
  name : String
  description : String
  createdAt : Time
deriving DecidableEq

structure RolePermission where
  roleId : String
  permissionId : String
deriving DecidableEq

structure GroupRole where
  groupId : String
  roleId : String
deriving DecidableEq

/-! ## Sign-in artefacts -/

/-- An opaque bearer session, found by the hash of its token. -/
structure IdpSession where
  tokenHash : String
  userId : String
  applicationId : String
  expiresAt : Time
  /-- Set only by a low-risk login of a user with no passkey: until then the
  session may enroll one. -/
  enrollUntil : Option Time
  webauthnChallenge : Option Bytes
deriving DecidableEq

/-- An operator-issued, single-use enrollment code; only its hash is stored. -/
structure ActivationCode where
  codeHash : String
  userId : String
  issuedBy : String
  expiresAt : Time
  consumedAt : Option Time
  webauthnChallenge : Option Bytes
deriving DecidableEq

/-- A pending step-up. -/
structure MfaChallenge where
  challengeId : String
  userId : String
  applicationId : String
  eventId : Option String
  action : Action
  riskScore : Option ℚ
  riskLevel : Option RiskLevel
  reasons : List Reason
  expiresAt : Time
  consumedAt : Option Time
  webauthnChallenge : Option Bytes
  webauthnMode : Option WebAuthnCeremonyMode
  deniedReason : Option String
deriving DecidableEq

/-- A passkey bound to a user. -/
structure WebAuthnCredential where
  credentialId : String
  userId : String
  publicKey : Bytes
  signCount : ℤ
deriving DecidableEq

/-- A one-time callback code bound to an issued session. -/
structure AuthCode where
  codeHash : String
  sessionHash : String
  userId : String
  applicationId : String
  redirectUri : String
  expiresAt : Time
  consumedAt : Option Time
deriving DecidableEq

/-! ## Primary keys of the join tables -/

def GroupMembership.key (m : GroupMembership) : String × String := (m.groupId, m.userId)

def RolePermission.key (rp : RolePermission) : String × String := (rp.roleId, rp.permissionId)

def GroupRole.key (gr : GroupRole) : String × String := (gr.groupId, gr.roleId)

theorem GroupMembership.key_injective : Function.Injective GroupMembership.key :=
  fun ⟨_, _⟩ ⟨_, _⟩ h => by simpa [GroupMembership.key] using h

theorem RolePermission.key_injective : Function.Injective RolePermission.key :=
  fun ⟨_, _⟩ ⟨_, _⟩ h => by simpa [RolePermission.key] using h

theorem GroupRole.key_injective : Function.Injective GroupRole.key :=
  fun ⟨_, _⟩ ⟨_, _⟩ h => by simpa [GroupRole.key] using h

/-! ## The database -/

/-- What operators edit. -/
structure Directory where
  tenants : Table Tenant Tenant.tenantId
  tenantDomains : Table TenantDomain TenantDomain.domain
  applications : Table Application Application.applicationId
  users : Table User User.userId
  groups : Table Group Group.groupId
  groupMemberships : Table GroupMembership GroupMembership.key
  permissions : Table Permission Permission.permissionId
  roles : Table Role Role.roleId
  rolePermissions : Table RolePermission RolePermission.key
  groupRoles : Table GroupRole GroupRole.key

/-- What sign-in leaves behind. -/
structure Artefacts where
  sessions : Table IdpSession IdpSession.tokenHash
  activationCodes : Table ActivationCode ActivationCode.codeHash
  mfaChallenges : Table MfaChallenge MfaChallenge.challengeId
  webauthnCredentials : Table WebAuthnCredential WebAuthnCredential.credentialId
  authCodes : Table AuthCode AuthCode.codeHash

structure Db extends Directory, Artefacts

def Directory.empty : Directory where
  tenants := .empty
  tenantDomains := .empty
  applications := .empty
  users := .empty
  groups := .empty
  groupMemberships := .empty
  permissions := .empty
  roles := .empty
  rolePermissions := .empty
  groupRoles := .empty

def Artefacts.empty : Artefacts where
  sessions := .empty
  activationCodes := .empty
  mfaChallenges := .empty
  webauthnCredentials := .empty
  authCodes := .empty

/-- The database as `create_tables` leaves it. -/
def Db.empty : Db := { Directory.empty, Artefacts.empty with }

/-- Does the user hold a passkey? -/
def Artefacts.hasPasskey (db : Artefacts) (userId : String) : Bool :=
  db.webauthnCredentials.exists? fun c => c.userId == userId

theorem Artefacts.hasPasskey_eq_true {db : Artefacts} {userId : String} :
    db.hasPasskey userId = true ↔ ∃ c ∈ db.webauthnCredentials, c.userId = userId := by
  simp [hasPasskey]

theorem Artefacts.hasPasskey_eq_false {db : Artefacts} {userId : String} :
    db.hasPasskey userId = false ↔ ∀ c ∈ db.webauthnCredentials, c.userId ≠ userId := by
  simp [hasPasskey, Table.exists?_eq_false]

end RbaIdp
