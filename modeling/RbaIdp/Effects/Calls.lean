import RbaIdp.Effects.StepUp
import RbaIdp.Relational.Coupling

/-!
# The calls a request makes

Passwords are compared by logins and by the start of an activation, only logins
ask the risk engine to evaluate, only step-ups confirm to it, and only the
creation of a tenant writes a policy.
-/

namespace RbaIdp

open Relational Program

/-- The calls a request may make. -/
inductive Request.MayCall : Request → Call → Prop where
  | password {request : Request} {password digest : String}
      (h : request.isLogin = true ∨ ∃ body, request = .activationOptions body) :
      MayCall request (.checkpw password digest)
  | evaluate {request : Request} {r : RiskEvaluateRequest} {reply : Option RiskEvaluateResponse}
      (h : request.isLogin = true) : MayCall request (.evaluate r reply)
  | confirm {request : Request} {challengeId : String} {r : LoginConfirmRequest}
      (h : stepUpChallenge request = some challengeId) : MayCall request (.confirm r)
  | policy {request : Request} {policy : TenantPolicy} {saved : Bool}
      (h : ∃ op body, request = .admin op (.createTenant body)) :
      MayCall request (.putPolicy policy saved)

variable {env : Env} {d : Draws} {C : Call → Prop}

/-! ## Logins -/

theorem callsIn_enforce {userId : String} {attempt : Attempt} {action : Action}
    {decision : Option RiskEvaluateResponse} :
    CallsIn C (enforce env d userId attempt action decision) := by
  cases action <;>
    simp only [enforce, passkeyOffer, hasSecondFactor, hasPasskey, createSessionWithCallback,
      persistSession, persistCallback, createChallenge, onDirectory, onArtefacts]
  all_goals
    repeat' with_reducible first
      | exact callsIn_pure
      | exact callsIn_read
      | exact callsIn_execute
      | exact callsIn_raiseIf
      | refine callsIn_transaction ?_
      | refine callsIn_bind ?_ fun _ => ?_
      | refine callsIn_ifSome fun _ => ?_
      | split

theorem callsIn_verifyPassword {password : String} {digest : Option String}
    (h : ∀ digest, C (.checkpw password digest)) : CallsIn C (verifyPassword env password digest) :=
  callsIn_bind (callsIn_call (h _)) fun _ => callsIn_pure

theorem callsIn_checkCredentials {attempt : Attempt}
    (h : ∀ digest, C (.checkpw attempt.password digest)) :
    CallsIn C (checkCredentials env attempt) := by
  simp only [checkCredentials]
  repeat' with_reducible first
    | exact callsIn_pure
    | exact callsIn_read
    | exact callsIn_verifyPassword h
    | refine callsIn_transaction ?_
    | refine callsIn_bind ?_ fun _ => ?_
    | split

/-- The signals an attempt is scored by. -/
def attemptSignals (env : Env) (attempt : Attempt) : LoginSignals :=
  resolveLoginSignals env (scoredIp attempt.ipAddress env.settings.privateIpIsHome)
    attempt.country attempt.asn

theorem callsIn_authenticate {attempt : Attempt}
    (hpassword : ∀ digest, C (.checkpw attempt.password digest))
    (hevaluate : ∀ userId loginSuccessful stepUpRequired, C (.evaluate
      (evaluateRequest env d userId attempt
        (scoredIp attempt.ipAddress env.settings.privateIpIsHome) (attemptSignals env attempt)
        loginSuccessful stepUpRequired) d.pdp)) :
    CallsIn C (authenticate env d attempt) := by
  refine callsIn_bind (callsIn_checkCredentials hpassword) fun checked => ?_
  cases checked with
  | answered response => exact callsIn_pure
  | wrongPassword userId =>
      exact callsIn_bind (callsIn_when (callsIn_when (callsIn_call (hevaluate _ _ _))))
        fun _ => callsIn_pure
  | passed userId alwaysPasskey =>
      simp only
      split
      · exact callsIn_enforce
      · exact callsIn_bind (callsIn_call (hevaluate _ _ _)) fun _ => callsIn_enforce

theorem callsIn_login {body : LoginRequest} {deviceCookie : Option String}
    (h : ∀ app, CallsIn C (authenticate env d (loginAttempt body deviceCookie app))) :
    CallsIn C (login env d body deviceCookie) :=
  callsIn_bind (callsIn_transaction (callsIn_bind callsIn_read fun _ => callsIn_require)) h

theorem callsIn_consoleLogin {body : ConsoleLoginRequest} {deviceCookie : Option String}
    (hpassword : ∀ digest, C (.checkpw body.password digest))
    (h : ∀ tenant console,
      CallsIn C (authenticate env d (consoleAttempt body deviceCookie tenant console))) :
    CallsIn C (consoleLogin env d body deviceCookie) := by
  refine callsIn_bind (callsIn_transaction (callsIn_bind callsIn_read fun _ =>
    callsIn_bind callsIn_read fun _ => callsIn_pure)) fun found => ?_
  split
  · exact h _ _
  · exact callsIn_bind (callsIn_verifyPassword hpassword) fun _ => callsIn_pure

/-! ## Step-ups -/

theorem callsIn_finishChallenge {challenge : MfaChallenge} {redirectUri : Option String} :
    CallsIn C (finishChallenge env d challenge redirectUri) := by
  simp only [finishChallenge, persistSession, persistCallback, onDirectory, onArtefacts]
  repeat' with_reducible first
    | exact callsIn_pure
    | exact callsIn_read
    | exact callsIn_execute
    | exact callsIn_raiseIf
    | refine callsIn_bind ?_ fun _ => ?_
    | refine callsIn_ifSome fun _ => ?_
    | split

theorem callsIn_confirmStepUp {result : LoginResponse} {tenantId : Option String}
    (h : ∀ r, C (.confirm r)) : CallsIn C (confirmStepUp d result tenantId) :=
  callsIn_when (callsIn_ifSome fun _ => callsIn_ifSome fun _ =>
    callsIn_attempt (callsIn_bind (callsIn_call (h _)) fun _ => callsIn_raiseIf))

theorem callsIn_stepUp {request : Request} {challengeId : String}
    (hrequest : stepUpChallenge request = some challengeId) (h : ∀ r, C (.confirm r)) :
    CallsIn C (serve env d request) := by
  cases request with
  | verifyMfa | verifyWebauthn =>
      simp only [serve, answer, verifyMfa, verifyWebauthn, openChallenge, challengeTenant,
        onArtefacts]
      repeat' with_reducible first
        | exact callsIn_pure
        | exact callsIn_read
        | exact callsIn_execute
        | exact callsIn_require
        | exact callsIn_raiseIf
        | exact callsIn_finishChallenge
        | exact callsIn_confirmStepUp h
        | refine callsIn_transaction ?_
        | refine callsIn_bind ?_ fun _ => ?_
        | split
  | _ => cases hrequest

/-! ## The admin service -/

theorem callsIn_ensurePermission {applicationId : String} {spec : PermissionSpec} :
    CallsIn C (ensurePermission applicationId spec) :=
  callsIn_bind callsIn_read fun _ => callsIn_when callsIn_execute

theorem callsIn_ensureRolePermission {roleId applicationId : String} {s : Scope} :
    CallsIn C (ensureRolePermission roleId applicationId s) :=
  callsIn_bind callsIn_read fun _ => callsIn_when callsIn_execute

theorem callsIn_ensureGroupRole {groupId roleId : String} :
    CallsIn C (ensureGroupRole groupId roleId) :=
  callsIn_bind callsIn_read fun _ => callsIn_when callsIn_execute

theorem callsIn_bootstrapConsole {row : Tenant} : CallsIn C (bootstrapConsole d row) := by
  simp only [bootstrapConsole, ensureApplication, ensurePermissions, ensureRole, ensureGroup,
    onDirectory]
  repeat' with_reducible first
    | exact callsIn_pure
    | exact callsIn_read
    | exact callsIn_execute
    | exact callsIn_ensurePermission
    | exact callsIn_ensureRolePermission
    | exact callsIn_ensureGroupRole
    | refine callsIn_bind ?_ fun _ => ?_
    | refine callsIn_when ?_
    | refine callsIn_forEach fun _ => ?_
    | split

theorem callsIn_serveAdmin {op : Operator} {call : AdminCall} :
    CallsIn (Request.MayCall (.admin op call)) (serveAdmin env d op call) := by
  cases call <;>
    simp only [serveAdmin, answer, onDirectory, onArtefacts, refreshUser, refreshGroup,
      refreshRole, refreshTenant, refreshApplication, syncAdminFlag, setDomains, requireUser,
      requireTenant, requireGroup, requireRole, requireApplication, currentTenant, listTenants,
      createTenant, checkTenant, patchTenant, listUsers, createUser, patchUser, issueActivationCode,
      listApplications, createApplication, patchApplication, listGroups, getGroup, createGroup,
      patchGroup, deleteGroup, addMember, removeMember, addGroupRole, removeGroupRole, listRoles,
      getRole, createRole, patchRole, deleteRole, setRolePermissions, listPermissions,
      createPermission, insertTenant, issueCode]
  all_goals
    repeat' with_reducible first
      | exact callsIn_pure
      | exact callsIn_read
      | exact callsIn_execute
      | exact callsIn_require
      | exact callsIn_raiseIf
      | exact callsIn_bootstrapConsole
      | refine callsIn_transaction ?_
      | refine callsIn_onIntegrity ?_
      | refine callsIn_bind ?_ fun _ => ?_
      | refine callsIn_when ?_
      | refine callsIn_ifSome fun _ => ?_
      | refine callsIn_forEach fun _ => ?_
      | exact callsIn_call (.policy ⟨_, _, rfl⟩)

/-! ## Any request -/

theorem callsIn_serve (request : Request) : CallsIn request.MayCall (serve env d request) := by
  have hpassword : ∀ {request : Request}, request.isLogin = true → ∀ password digest,
      request.MayCall (.checkpw password digest) := fun h _ _ => .password (Or.inl h)
  cases request with
  | login body deviceCookie =>
      refine callsIn_bind (callsIn_login fun _ => ?_) fun _ => callsIn_pure
      exact callsIn_authenticate (hpassword rfl _) fun _ _ _ => .evaluate rfl
  | consoleLogin body deviceCookie =>
      refine callsIn_bind (callsIn_consoleLogin (hpassword rfl _) fun _ _ => ?_)
        fun _ => callsIn_pure
      exact callsIn_authenticate (hpassword rfl _) fun _ _ _ => .evaluate rfl
  | verifyMfa | verifyWebauthn => exact callsIn_stepUp rfl fun _ => .confirm rfl
  | activationOptions body =>
      simp only [serve, answer, activationOptions, onArtefacts]
      repeat' with_reducible first
        | exact callsIn_pure
        | exact callsIn_read
        | exact callsIn_execute
        | exact callsIn_raise
        | exact callsIn_raiseIf
        | refine callsIn_transaction ?_
        | refine callsIn_bind ?_ fun _ => ?_
        | exact callsIn_verifyPassword fun _ => .password (Or.inr ⟨_, rfl⟩)
        | split
  | admin op call => exact callsIn_serveAdmin
  | _ =>
      simp only [serve, answer, webauthnOptions, openChallenge, exchangeCode, getSession,
        loadSession, logout, sessionOptions, sessionVerify, enrollingSession, activationVerify,
        storeCredential, onArtefacts]
      repeat' with_reducible first
        | exact callsIn_pure
        | exact callsIn_read
        | exact callsIn_execute
        | exact callsIn_raise
        | exact callsIn_require
        | exact callsIn_raiseIf
        | refine callsIn_transaction ?_
        | refine callsIn_bind ?_ fun _ => ?_
        | refine callsIn_ifSome fun _ => ?_
        | split

theorem Served.mayCall {s : Served} {c : Call} (h : c ∈ s.calls env) : s.request.MayCall c := by
  obtain ⟨cs, hcs, hin⟩ : ∃ cs, s.calls env = [] ++ cs ∧ ∀ c ∈ cs, s.request.MayCall c :=
    callsIn_serve s.request ⟨s.before, [], []⟩
  rw [List.nil_append] at hcs
  exact hin c (by rwa [← hcs])

end RbaIdp
