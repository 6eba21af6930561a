import RbaIdp.Contracts
import RbaIdp.Relational.Program

/-!
# The statements the services execute

Every `INSERT`, `UPDATE` and `DELETE` that the services and the seed issue, as
data.  A statement on the directory cannot touch the sign-in artefacts and the
other way round: `DirectoryWrite.effect` and `ArtefactWrite.effect` are
functions on the two halves of the database.

`violates` is the database's own refusal of a statement:

* a taken primary key or a taken unique constraint (`uq_users_tenant_email`,
  `uq_groups_tenant_name`, `uq_permissions_scope`, `uq_roles_app_name`, the
  unique `client_id`);
* a foreign key that names no row, or a deleted row that others still name;
* an update of a loaded row that is gone (the mapper's stale-data error).

A delete whose row is gone is accepted, and a bulk update or delete accepts any
number of rows.
-/

namespace RbaIdp

open Relational

inductive DirectoryWrite where
  | insertTenant (row : Tenant)
  | setTenantName (tenantId name : String)
  | setTenantBranding (tenantId : String) (branding : TenantBranding)
  | setTenantLogo (tenantId url : String)
  | setTenantAnchors (tenantId consoleApplicationId adminGroupId : String)
  | insertTenantDomain (row : TenantDomain)
  | deleteTenantDomains (tenantId : String)
  | insertApplication (row : Application)
  | setApplicationClientId (applicationId clientId : String)
  | setApplicationName (applicationId name : String)
  | setApplicationEnabled (applicationId : String) (enabled : Bool)
  | setApplicationRedirectUri (applicationId : String) (redirectUri : Option String)
  | setApplicationAlwaysPasskey (applicationId : String) (alwaysPasskey : Bool)
  | insertUser (row : User)
  | setUserEnabled (userId : String) (enabled : Bool)
  | setUserIsAdmin (userId : String) (isAdmin : Bool)
  | setUserPasswordHash (userId passwordHash : String)
  | setUserAlwaysPasskey (userId : String) (alwaysPasskey : Bool)
  | setUserLastLogin (userId : String) (now : Time)
  | insertGroup (row : Group)
  | setGroupName (groupId name : String)
  | setGroupDescription (groupId description : String)
  | deleteGroup (groupId : String)
  | insertGroupMembership (row : GroupMembership)
  | deleteGroupMembership (groupId userId : String)
  | deleteMembershipsOfGroup (groupId : String)
  | insertPermission (row : Permission)
  | insertRole (row : Role)
  | setRoleName (roleId name : String)
  | setRoleDescription (roleId description : String)
  | deleteRole (roleId : String)
  | insertRolePermission (row : RolePermission)
  | deletePermissionsOfRole (roleId : String)
  | insertGroupRole (row : GroupRole)
  | deleteGroupRole (groupId roleId : String)
  | deleteRolesOfGroup (groupId : String)
  | deleteGroupsOfRole (roleId : String)

inductive ArtefactWrite where
  | insertSession (row : IdpSession)
  | deleteSession (tokenHash : String)
  | lapseOffer (tokenHash : String)
  | setSessionNonce (tokenHash : String) (nonce : Option Bytes)
  | insertActivationCode (row : ActivationCode)
  | supersedeActivationCodes (userId : String) (now : Time)
  | consumeActivationCode (codeHash : String) (now : Time)
  | setActivationNonce (codeHash : String) (nonce : Bytes)
  | insertChallenge (row : MfaChallenge)
  | consumeChallenge (challengeId : String) (now : Time)
  | setChallengeNonce (challengeId : String) (nonce : Bytes) (mode : WebAuthnCeremonyMode)
  | insertCredential (row : WebAuthnCredential)
  | setSignCount (credentialId : String) (signCount : ℤ)
  | insertAuthCode (row : AuthCode)
  | consumeAuthCode (codeHash : String) (now : Time)

inductive Write where
  | directory (w : DirectoryWrite)
  | artefact (w : ArtefactWrite)

/-! ## What a statement does -/

namespace Directory

@[simp] def updateTenant (db : Directory) (tenantId : String) (f : Tenant → Tenant)
    (hf : ∀ r, (f r).tenantId = r.tenantId) : Directory :=
  { db with tenants := db.tenants.modify (fun r => r.tenantId == tenantId) f hf }

@[simp] def updateApplication (db : Directory) (applicationId : String)
    (f : Application → Application) (hf : ∀ r, (f r).applicationId = r.applicationId) : Directory :=
  { db with
    applications := db.applications.modify (fun r => r.applicationId == applicationId) f hf }

@[simp] def updateUser (db : Directory) (userId : String) (f : User → User)
    (hf : ∀ r, (f r).userId = r.userId) : Directory :=
  { db with users := db.users.modify (fun r => r.userId == userId) f hf }

@[simp] def updateGroup (db : Directory) (groupId : String) (f : Group → Group)
    (hf : ∀ r, (f r).groupId = r.groupId) : Directory :=
  { db with groups := db.groups.modify (fun r => r.groupId == groupId) f hf }

@[simp] def updateRole (db : Directory) (roleId : String) (f : Role → Role)
    (hf : ∀ r, (f r).roleId = r.roleId) : Directory :=
  { db with roles := db.roles.modify (fun r => r.roleId == roleId) f hf }

end Directory

def DirectoryWrite.effect : DirectoryWrite → Directory → Directory
  | insertTenant row, db => { db with tenants := db.tenants.insert row }
  | setTenantName tenantId name, db =>
      db.updateTenant tenantId (fun r => { r with name }) fun _ => rfl
  | setTenantBranding tenantId branding, db =>
      db.updateTenant tenantId
        (fun r => { r with
          displayName := branding.displayName
          loginStyle := branding.loginStyle
          logoUrl := branding.logoUrl
          primaryColour := branding.primaryColour
          accentColour := branding.accentColour }) fun _ => rfl
  | setTenantLogo tenantId url, db =>
      db.updateTenant tenantId (fun r => { r with logoUrl := some url }) fun _ => rfl
  | setTenantAnchors tenantId consoleApplicationId adminGroupId, db =>
      db.updateTenant tenantId
        (fun r => { r with
          consoleApplicationId := some consoleApplicationId
          adminGroupId := some adminGroupId }) fun _ => rfl
  | insertTenantDomain row, db => { db with tenantDomains := db.tenantDomains.insert row }
  | deleteTenantDomains tenantId, db =>
      { db with tenantDomains := db.tenantDomains.erase fun r => r.tenantId == tenantId }
  | insertApplication row, db => { db with applications := db.applications.insert row }
  | setApplicationClientId applicationId clientId, db =>
      db.updateApplication applicationId (fun r => { r with clientId := some clientId })
        fun _ => rfl
  | setApplicationName applicationId name, db =>
      db.updateApplication applicationId (fun r => { r with name }) fun _ => rfl
  | setApplicationEnabled applicationId enabled, db =>
      db.updateApplication applicationId (fun r => { r with enabled }) fun _ => rfl
  | setApplicationRedirectUri applicationId redirectUri, db =>
      db.updateApplication applicationId (fun r => { r with redirectUri }) fun _ => rfl
  | setApplicationAlwaysPasskey applicationId alwaysPasskey, db =>
      db.updateApplication applicationId
        (fun r => { r with alwaysPasskey := some alwaysPasskey }) fun _ => rfl
  | insertUser row, db => { db with users := db.users.insert row }
  | setUserEnabled userId enabled, db =>
      db.updateUser userId (fun r => { r with enabled }) fun _ => rfl
  | setUserIsAdmin userId isAdmin, db =>
      db.updateUser userId (fun r => { r with isAdmin }) fun _ => rfl
  | setUserPasswordHash userId passwordHash, db =>
      db.updateUser userId (fun r => { r with passwordHash }) fun _ => rfl
  | setUserAlwaysPasskey userId alwaysPasskey, db =>
      db.updateUser userId (fun r => { r with alwaysPasskey := some alwaysPasskey }) fun _ => rfl
  | setUserLastLogin userId now, db =>
      db.updateUser userId (fun r => { r with lastLoginAt := some now }) fun _ => rfl
  | insertGroup row, db => { db with groups := db.groups.insert row }
  | setGroupName groupId name, db =>
      db.updateGroup groupId (fun r => { r with name }) fun _ => rfl
  | setGroupDescription groupId description, db =>
      db.updateGroup groupId (fun r => { r with description }) fun _ => rfl
  | deleteGroup groupId, db => { db with groups := db.groups.erase fun r => r.groupId == groupId }
  | insertGroupMembership row, db =>
      { db with groupMemberships := db.groupMemberships.insert row }
  | deleteGroupMembership groupId userId, db =>
      { db with groupMemberships :=
        db.groupMemberships.erase fun r => r.groupId == groupId && r.userId == userId }
  | deleteMembershipsOfGroup groupId, db =>
      { db with groupMemberships := db.groupMemberships.erase fun r => r.groupId == groupId }
  | insertPermission row, db => { db with permissions := db.permissions.insert row }
  | insertRole row, db => { db with roles := db.roles.insert row }
  | setRoleName roleId name, db => db.updateRole roleId (fun r => { r with name }) fun _ => rfl
  | setRoleDescription roleId description, db =>
      db.updateRole roleId (fun r => { r with description }) fun _ => rfl
  | deleteRole roleId, db => { db with roles := db.roles.erase fun r => r.roleId == roleId }
  | insertRolePermission row, db => { db with rolePermissions := db.rolePermissions.insert row }
  | deletePermissionsOfRole roleId, db =>
      { db with rolePermissions := db.rolePermissions.erase fun r => r.roleId == roleId }
  | insertGroupRole row, db => { db with groupRoles := db.groupRoles.insert row }
  | deleteGroupRole groupId roleId, db =>
      { db with groupRoles :=
        db.groupRoles.erase fun r => r.groupId == groupId && r.roleId == roleId }
  | deleteRolesOfGroup groupId, db =>
      { db with groupRoles := db.groupRoles.erase fun r => r.groupId == groupId }
  | deleteGroupsOfRole roleId, db =>
      { db with groupRoles := db.groupRoles.erase fun r => r.roleId == roleId }

namespace Artefacts

@[simp] def updateSession (db : Artefacts) (tokenHash : String) (f : IdpSession → IdpSession)
    (hf : ∀ r, (f r).tokenHash = r.tokenHash) : Artefacts :=
  { db with sessions := db.sessions.modify (fun r => r.tokenHash == tokenHash) f hf }

@[simp] def updateActivationCode (db : Artefacts) (codeHash : String)
    (f : ActivationCode → ActivationCode) (hf : ∀ r, (f r).codeHash = r.codeHash) : Artefacts :=
  { db with activationCodes := db.activationCodes.modify (fun r => r.codeHash == codeHash) f hf }

@[simp] def updateChallenge (db : Artefacts) (challengeId : String)
    (f : MfaChallenge → MfaChallenge) (hf : ∀ r, (f r).challengeId = r.challengeId) : Artefacts :=
  { db with mfaChallenges := db.mfaChallenges.modify (fun r => r.challengeId == challengeId) f hf }

end Artefacts

def ArtefactWrite.effect : ArtefactWrite → Artefacts → Artefacts
  | insertSession row, db => { db with sessions := db.sessions.insert row }
  | deleteSession tokenHash, db =>
      { db with sessions := db.sessions.erase fun r => r.tokenHash == tokenHash }
  | lapseOffer tokenHash, db =>
      db.updateSession tokenHash (fun r => { r with enrollUntil := none }) fun _ => rfl
  | setSessionNonce tokenHash nonce, db =>
      db.updateSession tokenHash (fun r => { r with webauthnChallenge := nonce }) fun _ => rfl
  | insertActivationCode row, db => { db with activationCodes := db.activationCodes.insert row }
  | supersedeActivationCodes userId now, db =>
      { db with
        activationCodes :=
          db.activationCodes.modify (fun r => r.userId == userId && r.consumedAt.isNone)
            (fun r => { r with consumedAt := some now }) fun _ => rfl }
  | consumeActivationCode codeHash now, db =>
      db.updateActivationCode codeHash (fun r => { r with consumedAt := some now }) fun _ => rfl
  | setActivationNonce codeHash nonce, db =>
      db.updateActivationCode codeHash
        (fun r => { r with webauthnChallenge := some nonce }) fun _ => rfl
  | insertChallenge row, db => { db with mfaChallenges := db.mfaChallenges.insert row }
  | consumeChallenge challengeId now, db =>
      db.updateChallenge challengeId (fun r => { r with consumedAt := some now }) fun _ => rfl
  | setChallengeNonce challengeId nonce mode, db =>
      db.updateChallenge challengeId
        (fun r => { r with webauthnChallenge := some nonce, webauthnMode := some mode })
        fun _ => rfl
  | insertCredential row, db =>
      { db with webauthnCredentials := db.webauthnCredentials.insert row }
  | setSignCount credentialId signCount, db =>
      { db with
        webauthnCredentials :=
          db.webauthnCredentials.modify (fun r => r.credentialId == credentialId)
            (fun r => { r with signCount }) fun _ => rfl }
  | insertAuthCode row, db => { db with authCodes := db.authCodes.insert row }
  | consumeAuthCode codeHash now, db =>
      { db with
        authCodes :=
          db.authCodes.modify (fun r => r.codeHash == codeHash)
            (fun r => { r with consumedAt := some now }) fun _ => rfl }

def Write.effect : Write → Db → Db
  | directory w, db => { db with toDirectory := w.effect db.toDirectory }
  | artefact w, db => { db with toArtefacts := w.effect db.toArtefacts }

/-! ## What the database refuses -/

def DirectoryWrite.violates : DirectoryWrite → Directory → Bool
  | insertTenant row, db => (db.tenants.get row.tenantId).isSome
  | setTenantName tenantId _, db => (db.tenants.get tenantId).isNone
  | setTenantBranding tenantId _, db => (db.tenants.get tenantId).isNone
  | setTenantLogo tenantId _, db => (db.tenants.get tenantId).isNone
  | setTenantAnchors tenantId _ _, db => (db.tenants.get tenantId).isNone
  | insertTenantDomain row, db =>
      (db.tenantDomains.get row.domain).isSome || (db.tenants.get row.tenantId).isNone
  | deleteTenantDomains _, _ => false
  | insertApplication row, db =>
      (db.applications.get row.applicationId).isSome || (db.tenants.get row.tenantId).isNone ||
        (row.clientId.isSome && db.applications.exists? fun r => r.clientId == row.clientId)
  | setApplicationClientId applicationId clientId, db =>
      (db.applications.get applicationId).isNone ||
        db.applications.exists? fun r =>
          r.applicationId != applicationId && r.clientId == some clientId
  | setApplicationName applicationId _, db => (db.applications.get applicationId).isNone
  | setApplicationEnabled applicationId _, db => (db.applications.get applicationId).isNone
  | setApplicationRedirectUri applicationId _, db => (db.applications.get applicationId).isNone
  | setApplicationAlwaysPasskey applicationId _, db => (db.applications.get applicationId).isNone
  | insertUser row, db =>
      (db.users.get row.userId).isSome || (db.tenants.get row.tenantId).isNone ||
        db.users.exists? fun r => r.tenantId == row.tenantId && r.email == row.email
  | setUserEnabled userId _, db => (db.users.get userId).isNone
  | setUserIsAdmin userId _, db => (db.users.get userId).isNone
  | setUserPasswordHash userId _, db => (db.users.get userId).isNone
  | setUserAlwaysPasskey userId _, db => (db.users.get userId).isNone
  | setUserLastLogin userId _, db => (db.users.get userId).isNone
  | insertGroup row, db =>
      (db.groups.get row.groupId).isSome || (db.tenants.get row.tenantId).isNone ||
        db.groups.exists? fun r => r.tenantId == row.tenantId && r.name == row.name
  | setGroupName groupId name, db =>
      match db.groups.get groupId with
      | none => true
      | some row => db.groups.exists? fun r =>
          r.groupId != groupId && r.tenantId == row.tenantId && r.name == name
  | setGroupDescription groupId _, db => (db.groups.get groupId).isNone
  | deleteGroup groupId, db =>
      (db.groupMemberships.exists? fun r => r.groupId == groupId) ||
        db.groupRoles.exists? fun r => r.groupId == groupId
  | insertGroupMembership row, db =>
      (db.groupMemberships.get row.key).isSome || (db.groups.get row.groupId).isNone ||
        (db.users.get row.userId).isNone
  | deleteGroupMembership _ _, _ => false
  | deleteMembershipsOfGroup _, _ => false
  | insertPermission row, db =>
      (db.permissions.get row.permissionId).isSome ||
        (db.applications.get row.applicationId).isNone ||
        db.permissions.exists? fun r => r.applicationId == row.applicationId &&
          r.resource == row.resource && r.operation == row.operation
  | insertRole row, db =>
      (db.roles.get row.roleId).isSome || (db.tenants.get row.tenantId).isNone ||
        (db.applications.get row.applicationId).isNone ||
        db.roles.exists? fun r => r.applicationId == row.applicationId && r.name == row.name
  | setRoleName roleId name, db =>
      match db.roles.get roleId with
      | none => true
      | some row => db.roles.exists? fun r =>
          r.roleId != roleId && r.applicationId == row.applicationId && r.name == name
  | setRoleDescription roleId _, db => (db.roles.get roleId).isNone
  | deleteRole roleId, db =>
      (db.rolePermissions.exists? fun r => r.roleId == roleId) ||
        db.groupRoles.exists? fun r => r.roleId == roleId
  | insertRolePermission row, db =>
      (db.rolePermissions.get row.key).isSome || (db.roles.get row.roleId).isNone ||
        (db.permissions.get row.permissionId).isNone
  | deletePermissionsOfRole _, _ => false
  | insertGroupRole row, db =>
      (db.groupRoles.get row.key).isSome || (db.groups.get row.groupId).isNone ||
        (db.roles.get row.roleId).isNone
  | deleteGroupRole _ _, _ => false
  | deleteRolesOfGroup _, _ => false
  | deleteGroupsOfRole _, _ => false

def ArtefactWrite.violates : ArtefactWrite → Db → Bool
  | insertSession row, db =>
      (db.sessions.get row.tokenHash).isSome || (db.users.get row.userId).isNone
  | deleteSession _, _ => false
  | lapseOffer tokenHash, db => (db.sessions.get tokenHash).isNone
  | setSessionNonce tokenHash _, db => (db.sessions.get tokenHash).isNone
  | insertActivationCode row, db =>
      (db.activationCodes.get row.codeHash).isSome || (db.users.get row.userId).isNone
  | supersedeActivationCodes _ _, _ => false
  | consumeActivationCode codeHash _, db => (db.activationCodes.get codeHash).isNone
  | setActivationNonce codeHash _, db => (db.activationCodes.get codeHash).isNone
  | insertChallenge row, db =>
      (db.mfaChallenges.get row.challengeId).isSome || (db.users.get row.userId).isNone
  | consumeChallenge challengeId _, db => (db.mfaChallenges.get challengeId).isNone
  | setChallengeNonce challengeId _ _, db => (db.mfaChallenges.get challengeId).isNone
  | insertCredential row, db =>
      (db.webauthnCredentials.get row.credentialId).isSome || (db.users.get row.userId).isNone
  | setSignCount credentialId _, db => (db.webauthnCredentials.get credentialId).isNone
  | insertAuthCode row, db => (db.authCodes.get row.codeHash).isSome
  | consumeAuthCode codeHash _, db => (db.authCodes.get codeHash).isNone

def Write.violates : Write → Db → Bool
  | directory w, db => w.violates db.toDirectory
  | artefact w, db => w.violates db

-- unfolded here once: every module about statements uses the equations
attribute [local simp] DirectoryWrite.effect DirectoryWrite.violates ArtefactWrite.effect
  ArtefactWrite.violates

instance : Statement Db Write where
  violates := Write.violates
  effect := Write.effect

@[simp] theorem effect_directory (w : DirectoryWrite) (db : Db) :
    Statement.effect (Write.directory w) db = { db with toDirectory := w.effect db.toDirectory } :=
  rfl

@[simp] theorem effect_artefact (w : ArtefactWrite) (db : Db) :
    Statement.effect (Write.artefact w) db = { db with toArtefacts := w.effect db.toArtefacts } :=
  rfl

@[simp] theorem violates_directory (w : DirectoryWrite) (db : Db) :
    Statement.violates (Write.directory w) db = w.violates db.toDirectory := rfl

@[simp] theorem violates_artefact (w : ArtefactWrite) (db : Db) :
    Statement.violates (Write.artefact w) db = w.violates db := rfl

end RbaIdp
