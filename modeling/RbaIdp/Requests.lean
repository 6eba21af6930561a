import RbaIdp.Services.Admin

/-!
# Requests, and runs of them

Everything a client may ask, as data, and the service method that answers it.
`Served` is one request answered from a committed state; `Run` is any number of
them, one at a time, in any order.  Histories are latest first.

An admin call comes with the operator it is made by.  Nothing is assumed of the
operator: `authorize` is what resolves one, and what it promises is proved about
it separately.
-/

namespace RbaIdp

open Relational

/-- The methods of the admin service that read or change the directory. -/
inductive AdminCall where
  | currentTenant
  | listTenants
  | createTenant (body : CreateTenantRequest)
  | patchTenant (tenantId : String) (body : PatchTenantRequest)
  | listUsers
  | createUser (body : CreateUserRequest)
  | patchUser (userId : String) (body : PatchUserRequest)
  | issueActivationCode (userId : String)
  | listApplications
  | createApplication (body : CreateApplicationRequest)
  | patchApplication (applicationId : String) (body : PatchApplicationRequest)
  | listGroups
  | getGroup (groupId : String)
  | createGroup (body : CreateGroupRequest)
  | patchGroup (groupId : String) (body : PatchGroupRequest)
  | deleteGroup (groupId : String)
  | addMember (groupId : String) (body : AddGroupMemberRequest)
  | removeMember (groupId userId : String)
  | addGroupRole (groupId : String) (body : AddGroupRoleRequest)
  | removeGroupRole (groupId roleId : String)
  | listRoles (applicationId : Option String)
  | getRole (roleId : String)
  | createRole (body : CreateRoleRequest)
  | patchRole (roleId : String) (body : PatchRoleRequest)
  | deleteRole (roleId : String)
  | setRolePermissions (roleId : String) (body : SetRolePermissionsRequest)
  | listPermissions (applicationId : Option String)
  | createPermission (body : CreatePermissionRequest)

/-- The calls that only read. -/
def AdminCall.reads : AdminCall → Bool
  | currentTenant | listTenants | listUsers | listApplications | listGroups | getGroup _
  | listRoles _ | getRole _ | listPermissions _ => true
  | _ => false

/-- The calls that change the directory of a tenant that is there. -/
def AdminCall.edits : AdminCall → Bool
  | createTenant _ | issueActivationCode _ => false
  | call => !call.reads

inductive Request where
  | login (body : LoginRequest) (deviceCookie : Option String)
  | consoleLogin (body : ConsoleLoginRequest) (deviceCookie : Option String)
  | verifyMfa (body : MfaVerifyRequest)
  | webauthnOptions (body : MfaWebAuthnOptionsRequest)
  | verifyWebauthn (body : MfaWebAuthnVerifyRequest)
  | exchangeCode (body : CallbackTokenRequest)
  | getSession (authorization : Option String)
  | logout (authorization : Option String)
  | sessionOptions (authorization : Option String)
  | sessionVerify (authorization : Option String) (body : PasskeyVerifyRequest)
  | activationOptions (body : ActivationOptionsRequest)
  | activationVerify (body : ActivationVerifyRequest)
  | admin (op : Operator) (call : AdminCall)

def Request.isLogin : Request → Bool
  | login _ _ | consoleLogin _ _ => true
  | _ => false

/-- The requests that open a session: logins and step-ups. -/
def Request.opens : Request → Bool
  | login _ _ | consoleLogin _ _ | verifyMfa _ | verifyWebauthn _ => true
  | _ => false

/-- The requests that may answer without a trace: those that only read, and a
step-up whose factor is wrong. -/
def Request.silent : Request → Bool
  | verifyMfa _ | verifyWebauthn _ | getSession _ => true
  | admin _ call => call.reads
  | _ => false

inductive Answer where
  | done
  | login (response : LoginResponse)
  | requestOptions (response : MfaWebAuthnOptionsResponse)
  | token (response : CallbackTokenResponse)
  | session (response : SessionResponse)
  | creationOptions (response : PasskeyOptionsResponse)
  | activationCode (response : ActivationCodeResponse)
  | tenant (response : TenantPublic)
  | tenants (response : List TenantPublic)
  | user (response : AdminUserPublic)
  | users (response : List AdminUserPublic)
  | application (response : ApplicationPublic)
  | applications (response : List ApplicationPublic)
  | group (response : GroupDetail)
  | groups (response : List GroupPublic)
  | role (response : RoleDetail)
  | roles (response : List RolePublic)
  | permission (response : PermissionPublic)
  | permissions (response : List PermissionPublic)
deriving DecidableEq

variable (env : Env) (d : Draws)

/-- The answer a method gives, as an answer of the API. -/
def answer {α : Type} (m : App α) (f : α → Answer) : App Answer := do
  let a ← m
  pure (f a)

def serveAdmin (op : Operator) : AdminCall → App Answer
  | .currentTenant => answer (currentTenant op) .tenant
  | .listTenants => answer listTenants .tenants
  | .createTenant body => answer (createTenant env d body) .tenant
  | .patchTenant tenantId body => answer (patchTenant tenantId body) .tenant
  | .listUsers => answer (listUsers op) .users
  | .createUser body => answer (createUser env d op body) .user
  | .patchUser userId body => answer (patchUser d op userId body) .user
  | .issueActivationCode userId => answer (issueActivationCode env d op userId) .activationCode
  | .listApplications => answer (listApplications op) .applications
  | .createApplication body => answer (createApplication d op body) .application
  | .patchApplication applicationId body =>
      answer (patchApplication op applicationId body) .application
  | .listGroups => answer (listGroups op) .groups
  | .getGroup groupId => answer (getGroup op groupId) .group
  | .createGroup body => answer (createGroup d op body) .group
  | .patchGroup groupId body => answer (patchGroup op groupId body) .group
  | .deleteGroup groupId => answer (deleteGroup op groupId) fun _ => .done
  | .addMember groupId body => answer (addMember op groupId body) .group
  | .removeMember groupId userId => answer (removeMember op groupId userId) .group
  | .addGroupRole groupId body => answer (addGroupRole op groupId body) .group
  | .removeGroupRole groupId roleId => answer (removeGroupRole op groupId roleId) .group
  | .listRoles applicationId => answer (listRoles op applicationId) .roles
  | .getRole roleId => answer (getRole op roleId) .role
  | .createRole body => answer (createRole d op body) .role
  | .patchRole roleId body => answer (patchRole op roleId body) .role
  | .deleteRole roleId => answer (deleteRole op roleId) fun _ => .done
  | .setRolePermissions roleId body => answer (setRolePermissions op roleId body) .role
  | .listPermissions applicationId => answer (listPermissions op applicationId) .permissions
  | .createPermission body => answer (createPermission op body) .permission

def serve : Request → App Answer
  | .login body deviceCookie => answer (login env d body deviceCookie) .login
  | .consoleLogin body deviceCookie => answer (consoleLogin env d body deviceCookie) .login
  | .verifyMfa body => answer (verifyMfa env d body) .login
  | .webauthnOptions body => answer (webauthnOptions d body) .requestOptions
  | .verifyWebauthn body => answer (verifyWebauthn env d body) .login
  | .exchangeCode body => answer (exchangeCode env d body) .token
  | .getSession authorization => answer (getSession env d authorization) .session
  | .logout authorization => answer (logout env authorization) fun _ => .done
  | .sessionOptions authorization => answer (sessionOptions env d authorization) .creationOptions
  | .sessionVerify authorization body =>
      answer (sessionVerify env d authorization body) fun _ => .done
  | .activationOptions body => answer (activationOptions env d body) .creationOptions
  | .activationVerify body => answer (activationVerify env d body) fun _ => .done
  | .admin op call => serveAdmin env d op call

/-! ## One request -/

/-- A request answered from a committed state. -/
structure Served where
  before : Db
  request : Request
  draws : Draws

namespace Served

variable (s : Served)

def outcome : Except (Failure HTTPException) Answer × World :=
  (serve env s.draws s.request).run ⟨s.before, [], []⟩

/-- What the client gets. -/
def answer : Except (Failure HTTPException) Answer := (s.outcome env).1

/-- Evaluating whether a request answered gives the answer. -/
theorem answer_of_isOk {s : Served} (h : (s.answer env).isOk = true) :
    ∃ a, s.answer env = .ok a := by
  cases hanswer : s.answer env with
  | error e => simp [hanswer, Except.isOk, Except.toBool] at h
  | ok a => exact ⟨a, rfl⟩

/-- The statements of its transactions that were not rolled back. -/
def writes : List Write := (s.outcome env).2.writes

/-- The calls it made, in order. -/
def calls : List Call := (s.outcome env).2.calls

/-- The state it leaves. -/
def after : Db := (s.outcome env).2.db

/-- The state a request leaves is the one it found with its statements applied. -/
theorem commit_writes : commit (s.writes env) s.before = some (s.after env) := by
  obtain ⟨⟨ws, hws, hcommit⟩, -⟩ := (serve env s.draws s.request).journaled ⟨s.before, [], []⟩
  have hwrites : s.writes env = ws := hws.trans (List.nil_append ws)
  rw [hwrites]
  exact hcommit

end Served

/-! ## Any number of requests -/

/-- From `start`, the requests of a history (latest first), one at a time, lead
to a state. -/
inductive Run (start : Db) : List Served → Db → Prop where
  | nil : Run start [] start
  | cons {hist : List Served} {db : Db} (init : Run start hist db) (request : Request)
      (draws : Draws) :
      Run start (⟨db, request, draws⟩ :: hist) (Served.after env ⟨db, request, draws⟩)

variable {env}

/-- Every served request of a run was served from the state the earlier ones
led to. -/
theorem Run.split {start db : Db} {later earlier : List Served} {s : Served}
    (run : Run env start (later ++ s :: earlier) db) : Run env start earlier s.before := by
  induction later generalizing db with
  | nil =>
      cases run with
      | cons init _ _ => exact init
  | cons _ _ ih =>
      cases run with
      | cons init _ _ => exact ih init

/-- What every served request keeps, every run keeps. -/
theorem Run.invariant {start db : Db} {hist : List Served} (run : Run env start hist db)
    {I : Db → Prop} (hstep : ∀ s : Served, I s.before → I (s.after env)) (hstart : I start) :
    I db := by
  induction run with
  | nil => exact hstart
  | cons _ _ _ ih => exact hstep _ ih

/-- What the requests after some request keep holds from that request on. -/
theorem Run.since {start db : Db} {later earlier : List Served} {s : Served}
    (run : Run env start (later ++ s :: earlier) db) {I : Db → Prop}
    (hstep : ∀ m ∈ later, I m.before → I (m.after env)) (hI : I (s.after env)) :
    I db ∧ ∀ m ∈ later, I m.before := by
  induction later generalizing db with
  | nil =>
      cases run with
      | cons init _ _ => exact ⟨hI, by simp⟩
  | cons m later ih =>
      cases run with
      | cons init request draws =>
          obtain ⟨hmid, hlater⟩ := ih init fun m hm => hstep m (List.mem_cons_of_mem _ hm)
          exact ⟨hstep _ (List.mem_cons_self ..) hmid, List.forall_mem_cons.mpr ⟨hmid, hlater⟩⟩

/-- What every accepted statement keeps, every run keeps. -/
theorem Run.invariant_of_writes {start db : Db} {hist : List Served}
    (run : Run env start hist db) {I : Db → Prop} (hI : Invariant Write I) (hstart : I start) :
    I db :=
  run.invariant (fun s hs => commit_invariant hI (s.commit_writes env) hs) hstart

variable (env) in
/-- Serve requests from a state, latest first: the history and the state. -/
def play (start : Db) : List (Request × Draws) → List Served × Db
  | [] => ([], start)
  | (request, draws) :: earlier =>
      let (hist, db) := play start earlier
      (⟨db, request, draws⟩ :: hist, Served.after env ⟨db, request, draws⟩)

theorem run_play {start : Db} (requests : List (Request × Draws)) :
    Run env start (play env start requests).1 (play env start requests).2 := by
  induction requests with
  | nil => exact .nil
  | cons move earlier ih => exact ih.cons move.1 move.2

/-! Requests of the user of a local deployment. -/

/-- Ana logs in to the portal. -/
def anaLogsIn : Request :=
  .login {
    ipAddress := "127.0.0.1"
    asn := none
    country := none
    deviceType := none
    os := none
    browser := none
    userAgent := none
    applicationId := "portal"
    email := "ana@acme"
    password := "clave"
    redirectUri := none } none

/-- Ana's first login, which the risk engine finds usual. -/
def anaFirst : Served := ⟨.standIn, anaLogsIn, .usual 1⟩

/-- The header of the session the `n`th request created. -/
def bearer (n : ℕ) : Option String := some ("Bearer token-" ++ toString n)

end RbaIdp
