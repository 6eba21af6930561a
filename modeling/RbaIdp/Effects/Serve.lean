import RbaIdp.Effects.Founding
import RbaIdp.Effects.StepUp

/-!
# What a request writes

`Effect` has one case for every way a request can answer: what was checked, the
answer where it matters, and the statements executed.  `Served.effect` is the
inversion lemma the rest of the development rests on: a request that answers
has one of these effects, and a request that raises has written nothing.
-/

namespace RbaIdp

open Relational Program

/-- Does the answer say `AUTHENTICATED`, and for whom? -/
def Answer.authenticated : Answer → Option String
  | .login response => if response.outcome = .AUTHENTICATED then response.userId else none
  | _ => none

/-- The ways a request can answer. -/
inductive Effect (env : Env) (d : Draws) (db : Db) : Request → Answer → List Write → Prop where
  /-- nothing is written and nobody is signed in -/
  | silent {request : Request} {answer : Answer} (hsilent : request.silent = true)
      (hanswer : answer.authenticated = none) :
      Effect env d db request answer []
  | login {request : Request} {response : LoginResponse} {ws : List Write}
      (hlogin : request.isLogin = true)
      (heffect : LoginEffect env d db (attemptOf env db.toDirectory request) response ws) :
      Effect env d db request (.login response) ws
  | steppedUp {request : Request} {challengeId : String} {challenge : MfaChallenge}
      {pre : List Write} (hrequest : stepUpChallenge request = some challengeId)
      (hopen : OpenChallenge db.toArtefacts d.now challengeId challenge)
      (hfactor : factor env db.toArtefacts challenge request = some pre)
      (haccess :
        hasApplicationAccess db.toDirectory challenge.userId challenge.applicationId = true) :
      Effect env d db request
        (.login (finishResponse env d challenge
          (stepUpCallback db.toDirectory challenge (stepUpRedirect request))))
        (pre ++ finishWrites env d challenge
          (stepUpCallback db.toDirectory challenge (stepUpRedirect request)))
  | stepUpDenied {request : Request} {challengeId : String} {challenge : MfaChallenge}
      {pre : List Write} (hrequest : stepUpChallenge request = some challengeId)
      (hopen : OpenChallenge db.toArtefacts d.now challengeId challenge)
      (hfactor : factor env db.toArtefacts challenge request = some pre) :
      Effect env d db request (.login (accessDenied challenge)) pre
  | challengeOptions {body : MfaWebAuthnOptionsRequest} {challenge : MfaChallenge}
      {response : MfaWebAuthnOptionsResponse}
      (hopen : OpenChallenge db.toArtefacts d.now body.challengeId challenge)
      (hpasskey : db.hasPasskey challenge.userId = true) :
      Effect env d db (.webauthnOptions body) (.requestOptions response)
        [.artefact (.setChallengeNonce challenge.challengeId d.nonce .GET)]
  | exchanged {body : CallbackTokenRequest} {row : AuthCode} {stored : IdpSession} {user : User}
      (hredeemable : Redeemable env db d.now body.code row stored user) :
      Effect env d db (.exchangeCode body)
        (.token ⟨⟨d.token, stored.expiresAt⟩, userPublic user⟩) (exchangeWrites env d row stored)
  | loggedOut {authorization : Option String} {row : IdpSession}
      (htoken : ∃ raw, bearerToken env authorization = some raw ∧
        db.sessions.get (hashSessionToken env raw) = some row) :
      Effect env d db (.logout authorization) .done [.artefact (.deleteSession row.tokenHash)]
  | loggedOutNobody {authorization : Option String}
      (hnobody : ∀ raw, bearerToken env authorization = some raw →
        db.sessions.get (hashSessionToken env raw) = none) :
      Effect env d db (.logout authorization) .done []
  | sessionOptions {authorization : Option String} {row : IdpSession} {user : User}
      {response : PasskeyOptionsResponse}
      (henrolling : Enrolling env db.toArtefacts d.now authorization row)
      (howner : db.users.get row.userId = some user) (henabled : user.enabled = true)
      (hnone : db.hasPasskey row.userId = false) :
      Effect env d db (.sessionOptions authorization) (.creationOptions response)
        [.artefact (.setSessionNonce row.tokenHash (some d.nonce))]
  | sessionVerified {authorization : Option String} {body : PasskeyVerifyRequest}
      {row : IdpSession} {nonce : Bytes} {verified : VerifiedRegistration}
      (henrolling : Enrolling env db.toArtefacts d.now authorization row)
      (hnonce : row.webauthnChallenge = some nonce)
      (hstorable : Storable env db.toArtefacts body.credential nonce verified) :
      Effect env d db (.sessionVerify authorization body) .done (sessionVerifyWrites row verified)
  | activationOptions {body : ActivationOptionsRequest} {row : ActivationCode} {user : User}
      {response : PasskeyOptionsResponse}
      (hopen : OpenCode env db.toArtefacts d.now body.code row)
      (howner : db.users.get row.userId = some user) (henabled : user.enabled = true)
      (hpassword : passwordMatches env body.password (some user.passwordHash) = true) :
      Effect env d db (.activationOptions body) (.creationOptions response)
        [.artefact (.setActivationNonce row.codeHash d.nonce)]
  | activationVerified {body : ActivationVerifyRequest} {row : ActivationCode} {nonce : Bytes}
      {verified : VerifiedRegistration}
      (hopen : OpenCode env db.toArtefacts d.now body.code row)
      (hnonce : row.webauthnChallenge = some nonce)
      (hstorable : Storable env db.toArtefacts body.credential nonce verified) :
      Effect env d db (.activationVerify body) .done (activationVerifyWrites d row verified)
  | issued {op : Operator} {userId : String} {user : User} {response : ActivationCodeResponse}
      (howner : db.users.get userId = some user) (hown : user.tenantId = op.tenantId)
      (henabled : user.enabled = true) :
      Effect env d db (.admin op (.issueActivationCode userId)) (.activationCode response)
        (issueWrites env d user.userId op.userId)
  | edited {op : Operator} {call : AdminCall} {answer : Answer} {ws : List Write} {db' : Db}
      (hanswer : answer.authenticated = none) (hcall : call.edits = true)
      (path : Path (Edits op call) db ws db') :
      Effect env d db (.admin op call) answer ws
  | founded {op : Operator} {body : CreateTenantRequest} {response : TenantPublic}
      {ws : List Write} {db' : Db} (hfree : db.tenants.get body.tenantId = none)
      (path : Path (Founding env d body) db ws db')
      (hestablished : Established body.tenantId db'.toDirectory) :
      Effect env d db (.admin op (.createTenant body)) (.tenant response) ws

variable {env : Env} {d : Draws} {t : World}

/-- A service method followed by the wrapping of its answer. -/
theorem wp_answer {α : Type} {m : App α} {f : α → Answer} {Q : Answer → World → Prop}
    {E : World → Prop} (h : m.wp (fun a => Q (f a)) E t) : (answer m f).wp Q E t := by
  rw [answer, wp_bind]
  exact h

theorem wp_answer_edits {α : Type} {m : App α} {f : α → Answer} {db : Db} {op : Operator}
    {call : AdminCall} (hf : ∀ a, (f a).authenticated = none)
    (hcall : call.edits = true)
    (h : m.wp (fun _ => Extends (Edits op call) ⟨db, [], []⟩) (Unwritten ⟨db, [], []⟩)
      ⟨db, [], []⟩) :
    (answer m f).wp (fun a t' => Effect env d db (.admin op call) a t'.writes)
      (fun t' => t'.writes = []) ⟨db, [], []⟩ := by
  refine wp_answer (wp_mono h (fun a t' hextends => ?_) fun _ hsame => hsame.writes)
  obtain ⟨ws, hws, path⟩ := hextends
  rw [hws, List.nil_append]
  exact .edited (hf a) hcall path

/-- A call that only reads. -/
theorem wp_answer_reads {α : Type} {m : App α} {f : α → Answer} {db : Db} {request : Request}
    (hsilent : request.silent = true) (hf : ∀ a, (f a).authenticated = none)
    (h : m.wp (fun _ t' => t'.writes = []) (fun t' => t'.writes = []) ⟨db, [], []⟩) :
    (answer m f).wp (fun a t' => Effect env d db request a t'.writes)
      (fun t' => t'.writes = []) ⟨db, [], []⟩ := by
  refine wp_answer (wp_mono h (fun a t' hsame => ?_) fun _ h => h)
  rw [hsame]
  exact .silent hsilent (hf a)

theorem serveAdmin_effect (op : Operator) (call : AdminCall) (db : Db) :
    (serveAdmin env d op call).wp (fun a t' => Effect env d db (.admin op call) a t'.writes)
      (fun t' => t'.writes = []) ⟨db, [], []⟩ := by
  cases call with
  | createTenant body =>
      refine wp_answer (wp_mono wp_createTenant (fun a t' hcreates => ?_)
        fun _ hsame => hsame.writes)
      obtain ⟨ws, hws, path⟩ := hcreates.founding
      rw [hws, List.nil_append]
      exact .founded hcreates.free path hcreates.established
  | issueActivationCode userId =>
      refine wp_answer ?_
      simp only [issueActivationCode, requireUser, wp_transaction, wp_bind, wp_read, wp_require,
        wp_raiseIf]
      refine ⟨fun _ => trivial, fun user huser => ⟨fun _ => trivial, fun henabled => ?_⟩⟩
      obtain ⟨hget, htenant⟩ := Option.filter_eq_some_iff.mp huser
      refine wp_issueCode (fun response t' hwrites => ?_) fun _ => trivial
      rw [hwrites]
      exact .issued hget (by simpa using htenant) (by simpa using henabled)
  | patchTenant tenantId body => exact wp_answer_edits (fun _ => rfl) rfl edits_patchTenant
  | createUser body => exact wp_answer_edits (fun _ => rfl) rfl edits_createUser
  | patchUser userId body => exact wp_answer_edits (fun _ => rfl) rfl edits_patchUser
  | createApplication body => exact wp_answer_edits (fun _ => rfl) rfl edits_createApplication
  | patchApplication applicationId body =>
      exact wp_answer_edits (fun _ => rfl) rfl edits_patchApplication
  | createGroup body => exact wp_answer_edits (fun _ => rfl) rfl edits_createGroup
  | patchGroup groupId body => exact wp_answer_edits (fun _ => rfl) rfl edits_patchGroup
  | deleteGroup groupId => exact wp_answer_edits (fun _ => rfl) rfl edits_deleteGroup
  | addMember groupId body => exact wp_answer_edits (fun _ => rfl) rfl edits_addMember
  | removeMember groupId userId => exact wp_answer_edits (fun _ => rfl) rfl edits_removeMember
  | addGroupRole groupId body => exact wp_answer_edits (fun _ => rfl) rfl edits_addGroupRole
  | removeGroupRole groupId roleId =>
      exact wp_answer_edits (fun _ => rfl) rfl edits_removeGroupRole
  | createRole body => exact wp_answer_edits (fun _ => rfl) rfl edits_createRole
  | patchRole roleId body => exact wp_answer_edits (fun _ => rfl) rfl edits_patchRole
  | deleteRole roleId => exact wp_answer_edits (fun _ => rfl) rfl edits_deleteRole
  | setRolePermissions roleId body =>
      exact wp_answer_edits (fun _ => rfl) rfl edits_setRolePermissions
  | createPermission body => exact wp_answer_edits (fun _ => rfl) rfl edits_createPermission
  | currentTenant | listTenants | listUsers | listApplications | listGroups | getGroup | listRoles
  | getRole | listPermissions =>
      refine wp_answer_reads rfl (fun _ => rfl) ?_
      simp [currentTenant, listTenants, listUsers, listApplications, listGroups, getGroup,
        listRoles, getRole, listPermissions, requireTenant, refreshGroup, requireGroup,
        refreshRole, requireRole]

/-- A step-up request is served by checking its factor. -/
theorem wp_serve_stepUp (env : Env) (d : Draws) (db : Db) {request : Request}
    {challengeId : String} (hrequest : stepUpChallenge request = some challengeId) :
    (serve env d request).wp
      (fun a t' => ∃ response, a = .login response ∧
        StepUpEnds env d ⟨db, [], []⟩ request response t')
      (Silent ⟨db, [], []⟩) ⟨db, [], []⟩ := by
  cases request with
  | verifyMfa body =>
      exact wp_answer (wp_mono wp_verifyMfa (fun response _ h => ⟨response, rfl, h⟩) fun _ h => h)
  | verifyWebauthn body =>
      exact wp_answer (wp_mono wp_verifyWebauthn (fun response _ h => ⟨response, rfl, h⟩)
        fun _ h => h)
  | _ => cases hrequest

theorem effect_of_ends {db : Db} {request : Request} {response : LoginResponse} {t' : World}
    (hsilent : request.silent = true) (h : StepUpEnds env d ⟨db, [], []⟩ request response t') :
    Effect env d db request (.login response) t'.writes := by
  cases h with
  | completed hchallenge hopen hfactor haccess _ hwrites =>
      rw [hwrites]
      exact .steppedUp hchallenge hopen hfactor haccess
  | denied hchallenge hopen hfactor _ hwrites =>
      rw [hwrites]
      exact .stepUpDenied hchallenge hopen hfactor
  | wrong hnothing =>
      rw [hnothing.writes]
      exact .silent hsilent rfl

theorem serve_effect (request : Request) (db : Db) :
    (serve env d request).wp (fun a t' => Effect env d db request a t'.writes)
      (fun t' => t'.writes = []) ⟨db, [], []⟩ := by
  cases request with
  | login body deviceCookie =>
      refine wp_answer (wp_login (fun response ws t' heffect hwrites => ?_) fun _ _ h => h)
      rw [hwrites]
      exact .login rfl heffect
  | consoleLogin body deviceCookie =>
      refine wp_answer (wp_consoleLogin (fun response ws t' heffect hwrites => ?_) fun _ _ h => h)
      rw [hwrites]
      exact .login rfl heffect
  | verifyMfa body =>
      exact wp_answer (wp_mono wp_verifyMfa (fun _ _ => effect_of_ends rfl) fun _ h => h.writes)
  | webauthnOptions body =>
      refine wp_answer (wp_webauthnOptions (fun challenge response t' hopen hpasskey hwrites => ?_)
        fun _ h => h)
      rw [hwrites]
      exact .challengeOptions hopen hpasskey
  | verifyWebauthn body =>
      exact wp_answer (wp_mono wp_verifyWebauthn (fun _ _ => effect_of_ends rfl)
        fun _ h => h.writes)
  | exchangeCode body =>
      refine wp_answer (wp_exchangeCode (fun row stored user t' hredeemable hwrites => ?_)
        fun _ h => h)
      rw [hwrites]
      exact .exchanged hredeemable
  | getSession authorization =>
      refine wp_answer_reads rfl (fun _ => rfl) ?_
      simp only [getSession, wp_bind, wp_pure]
      exact wp_loadSession (fun _ _ _ => rfl) rfl
  | logout authorization =>
      refine wp_answer (wp_logout (fun row t' htoken hwrites => ?_) .loggedOutNobody fun _ h => h)
      rw [hwrites]
      exact .loggedOut htoken
  | sessionOptions authorization =>
      refine wp_answer (wp_sessionOptions
        (fun row user response t' henrolling howner henabled hnone hwrites => ?_) fun _ h => h)
      rw [hwrites]
      exact .sessionOptions henrolling howner henabled hnone
  | sessionVerify authorization body =>
      refine wp_answer (wp_sessionVerify
        (fun row nonce verified t' henrolling hnonce hstorable hwrites => ?_) fun _ h => h)
      rw [hwrites]
      exact .sessionVerified henrolling hnonce hstorable
  | activationOptions body =>
      refine wp_answer (wp_activationOptions
        (fun row user response t' hopen howner henabled hpassword hwrites => ?_) fun _ h => h)
      rw [hwrites]
      exact .activationOptions hopen howner henabled hpassword
  | activationVerify body =>
      refine wp_answer (wp_activationVerify
        (fun row nonce verified t' hopen hnonce hstorable hwrites => ?_) fun _ h => h)
      rw [hwrites]
      exact .activationVerified hopen hnonce hstorable
  | admin op call => exact serveAdmin_effect op call db

namespace Served

variable {s : Served}

/-- **The inversion lemma.**  A request that answers has one of the effects. -/
theorem effect {a : Answer} (h : s.answer env = .ok a) :
    Effect env s.draws s.before s.request a (s.writes env) :=
  wp_of_ok (serve_effect s.request s.before) (Prod.ext h rfl)

/-- A request that raises has written nothing. -/
theorem writes_of_error {e : Failure HTTPException} (h : s.answer env = .error e) :
    s.writes env = [] :=
  wp_of_error (serve_effect s.request s.before) (Prod.ext h rfl)

theorem after_of_error {e : Failure HTTPException} (h : s.answer env = .error e) :
    s.after env = s.before := by
  have hcommit := s.commit_writes env
  rw [writes_of_error h, commit_nil] at hcommit
  exact (Option.some.inj hcommit).symm

/-- The statements a request may execute: anything on the sign-in artefacts, the
time of a user's last login, and what its admin call is permitted. -/
inductive Allows (env : Env) (s : Served) (db : Db) : Write → Prop where
  | artefact (w : ArtefactWrite) : Allows env s db (.artefact w)
  | lastLogin (userId : String) (now : Time) :
      Allows env s db (.directory (.setUserLastLogin userId now))
  | edit {op : Operator} {call : AdminCall} {edit : DirectoryWrite}
      (hrequest : s.request = .admin op call) (hcall : call.edits = true)
      (hscoped : Scoped op call db.toDirectory edit) : Allows env s db (.directory edit)
  | found {op : Operator} {body : CreateTenantRequest} {edit : DirectoryWrite}
      (hrequest : s.request = .admin op (.createTenant body))
      (hfounds : Founds env s.draws body edit) : Allows env s db (.directory edit)

theorem allows_sessionWrites {userId applicationId : String} {mayEnroll : Bool}
    {target : Option String} {db : Db} {w : Write}
    (hw : w ∈ sessionWrites env s.draws userId applicationId mayEnroll target) :
    Allows env s db w := by
  simp only [sessionWrites, List.mem_append, List.mem_cons, List.not_mem_nil, or_false,
    Option.mem_toList, Option.map_eq_some_iff] at hw
  rcases hw with (rfl | rfl) | ⟨_, _, rfl⟩
  · exact .lastLogin _ _
  · exact .artefact _
  · exact .artefact _

theorem allows_factor {challenge : MfaChallenge} {request : Request} {pre : List Write}
    {db db' : Db} {w : Write} (hfactor : factor env db.toArtefacts challenge request = some pre)
    (hw : w ∈ pre) : Allows env s db' w := by
  obtain rfl | ⟨credentialId, signCount, rfl⟩ := factor_writes hfactor
  · cases hw
  · rw [List.mem_singleton.mp hw]
    exact .artefact _

/-- The effects of a request are statements it is allowed. -/
theorem effect_path {a : Answer} {ws : List Write} {db' : Db}
    (heffect : Effect env s.draws s.before s.request a ws)
    (hcommit : commit ws s.before = some db') : Path (Allows env s) s.before ws db' := by
  have hartefacts : (∀ w ∈ ws, ∃ v, w = .artefact v) → Path (Allows env s) s.before ws db' := by
    intro h
    refine Path.of_commit hcommit fun w hw db => ?_
    obtain ⟨v, rfl⟩ := h w hw
    exact .artefact v
  generalize hrequest : s.request = request at heffect
  cases heffect with
  | silent => exact hartefacts (by simp)
  | login _ hlogin =>
      cases hlogin with
      | refused => exact hartefacts (by simp)
      | allowed => exact Path.of_commit hcommit fun w hw db => allows_sessionWrites hw
      | challenged => exact hartefacts (by simp)
      | denied => exact hartefacts (by simp)
      | blocked => exact hartefacts (by simp)
  | steppedUp _ _ hfactor =>
      refine Path.of_commit hcommit fun w hw db => ?_
      rcases List.mem_append.mp hw with hw | hw
      · exact allows_factor hfactor hw
      · rcases List.mem_cons.mp hw with rfl | hw
        · exact .artefact _
        · exact allows_sessionWrites hw
  | stepUpDenied _ _ hfactor =>
      exact Path.of_commit hcommit fun w hw db => allows_factor hfactor hw
  | challengeOptions => exact hartefacts (by simp)
  | exchanged => exact hartefacts (by simp [exchangeWrites])
  | loggedOut | loggedOutNobody => exact hartefacts (by simp)
  | sessionOptions => exact hartefacts (by simp)
  | sessionVerified => exact hartefacts (by simp [sessionVerifyWrites])
  | activationOptions => exact hartefacts (by simp)
  | activationVerified => exact hartefacts (by simp [activationVerifyWrites])
  | issued => exact hartefacts (by simp [issueWrites])
  | edited _ hcall path =>
      have hsame := path.commit
      rw [hcommit] at hsame
      rw [Option.some.inj hsame]
      refine path.mono fun db w hw => ?_
      obtain ⟨edit, rfl, hscoped⟩ := hw
      exact .edit hrequest hcall hscoped
  | founded _ path =>
      have hsame := path.commit
      rw [hcommit] at hsame
      rw [Option.some.inj hsame]
      refine path.mono fun db w hw => ?_
      obtain ⟨edit, rfl, hfounds⟩ := hw
      exact .found hrequest hfounds

/-- A request takes the database along a path of statements it is allowed. -/
theorem path (env : Env) (s : Served) :
    Path (Allows env s) s.before (s.writes env) (s.after env) := by
  cases hanswer : s.answer env with
  | error e =>
      rw [writes_of_error hanswer, after_of_error hanswer]
      exact .nil
  | ok a => exact effect_path (effect hanswer) (s.commit_writes env)

end Served

end RbaIdp
