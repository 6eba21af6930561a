import RbaIdp.Admission
import RbaIdp.Isolation
import RbaIdp.SignInBlindness

/-!
# What one request is to a tenant

Every statement of a sign-in request is about the tenant the request is of
(`about_of_effect`).  So a request of another tenant leaves a tenant's rows as they are
(`indistinct_after_other`), and a request of the tenant, in two states that differ in
nothing of it, is answered alike and leaves two such states (`answer_indistinct`).
-/

namespace RbaIdp

open Relational Program

variable {tenantId : String} {db db' : Db} {env : Env} {d : Draws}

/-! ## Statements of sign-in -/

/-- A statement of sign-in is about the tenant: one on the artefacts, or the time of a
user's last login. -/
inductive About (db : Db) (owner : Option String) : Write → Prop where
  | artefact {w : ArtefactWrite} (hw : w.tenant db = owner) : About db owner (.artefact w)
  | lastLogin {userId : String} {now : Time} (hw : db.userTenant userId = owner) :
      About db owner (.directory (.setUserLastLogin userId now))

/-- A statement about another tenant, in a state that differs in nothing of this one. -/
theorem indistinct_about {owner : Option String} {w : Write} (hother : owner ≠ some tenantId)
    (h : Indistinct tenantId db db') (hw : About db owner w) :
    Indistinct tenantId db (Statement.effect w db') := by
  refine h.trans ?_
  cases hw with
  | artefact hw =>
      refine indistinct_elsewhere fun hmine => hother ?_
      exact hw.symm.trans (tenant_agree_artefact h.agree.symm hmine)
  | lastLogin hw =>
      refine indistinct_lastLogin_elsewhere fun hmine => hother ?_
      exact hw.symm.trans ((userTenant_agree h.agree).mpr hmine)

theorem indistinct_commit {owner : Option String} {ws : List Write}
    (hother : owner ≠ some tenantId) (hws : ∀ w ∈ ws, About db owner w)
    (hcommit : commit ws db = some db') : Indistinct tenantId db db' :=
  (Path.of_commit (P := fun _ w => About db owner w) hcommit fun w hw _ => hws w hw).invariant
    (fun _ _ h hw _ => indistinct_about hother h hw) (Indistinct.refl tenantId db)

/-! ## What sign-in writes -/

theorem tenantOf_attempt {request : Request} {a : Attempt}
    (h : attemptOf env db.toDirectory request = some a) :
    tenantOf env db request = some a.tenantId := by
  have happ := (application_of_attempt h).2
  cases request with
  | login body deviceCookie =>
      obtain ⟨app, -, rfl⟩ := Option.map_eq_some_iff.mp h
      exact happ
  | consoleLogin body deviceCookie =>
      obtain ⟨tenant, hfound, hrest⟩ := Option.bind_eq_some_iff.mp h
      obtain ⟨console, -, rfl⟩ := Option.map_eq_some_iff.mp hrest
      exact Option.map_eq_some_iff.mpr ⟨tenant, hfound, rfl⟩
  | _ => cases h

theorem tenantOf_stepUp {request : Request} {challengeId : String}
    (h : stepUpChallenge request = some challengeId) :
    tenantOf env db request = db.challengeTenant challengeId := by
  cases request with
  | verifyMfa | verifyWebauthn =>
      obtain rfl := Option.some.inj h
      rfl
  | _ => cases h

theorem challengeTenant_of_get {challengeId : String} {challenge : MfaChallenge}
    (h : db.mfaChallenges.get challengeId = some challenge) :
    db.challengeTenant challengeId = db.userTenant challenge.userId := by
  rw [Db.challengeTenant, h, Option.bind_some]

theorem sessionTenant_of_get {tokenHash : String} {row : IdpSession}
    (h : db.sessions.get tokenHash = some row) :
    db.sessionTenant tokenHash = db.userTenant row.userId := by
  rw [Db.sessionTenant, h, Option.bind_some]

theorem sessionTenant_of_mem {row : IdpSession} (h : row ∈ db.sessions) :
    db.sessionTenant row.tokenHash = db.userTenant row.userId :=
  sessionTenant_of_get (Table.get_of_mem h)

theorem activationTenant_of_get {codeHash : String} {row : ActivationCode}
    (h : db.activationCodes.get codeHash = some row) :
    db.activationTenant codeHash = db.userTenant row.userId := by
  rw [Db.activationTenant, h, Option.bind_some]

theorem bearerTenant_of_token {authorization : Option String} {row : IdpSession}
    (h : ∃ raw, bearerToken env authorization = some raw ∧
      db.sessions.get (hashSessionToken env raw) = some row) :
    bearerTenant env db authorization = db.sessionTenant row.tokenHash := by
  obtain ⟨raw, hraw, hget⟩ := h
  rw [bearerTenant, hraw, Option.bind_some, Table.key_of_get hget]

theorem about_sessionWrites {owner : Option String} {userId applicationId : String}
    {mayEnroll : Bool} {target : Option String} (hown : db.userTenant userId = owner) :
    ∀ w ∈ sessionWrites env d userId applicationId mayEnroll target, About db owner w := by
  intro w hw
  simp only [sessionWrites, List.mem_append, List.mem_cons, List.not_mem_nil, or_false,
    Option.mem_toList, Option.map_eq_some_iff] at hw
  rcases hw with (rfl | rfl) | ⟨_, -, rfl⟩
  · exact .lastLogin hown
  · exact .artefact hown
  · exact .artefact hown

/-- The passkey of a second factor is the user's. -/
theorem about_factor {owner : Option String} {challenge : MfaChallenge} {request : Request}
    {pre : List Write} (hfactor : factor env db.toArtefacts challenge request = some pre)
    (hown : db.userTenant challenge.userId = owner) : ∀ w ∈ pre, About db owner w := by
  cases request with
  | verifyMfa body =>
      simp only [factor] at hfactor
      split at hfactor
      · obtain rfl := Option.some.inj hfactor
        simp
      · cases hfactor
  | verifyWebauthn body =>
      simp only [factor] at hfactor
      split at hfactor
      · obtain ⟨nonce, -, hsome⟩ := Option.bind_eq_some_iff.mp hfactor
        obtain ⟨verified, hassertion, rfl⟩ := Option.map_eq_some_iff.mp hsome
        simp only [assertion, Option.bind_eq_bind, Option.bind_eq_some_iff] at hassertion
        obtain ⟨id, -, stored, hstored, count, -, hsame⟩ := hassertion
        obtain rfl := Option.some.inj hsame
        obtain ⟨hget, huser⟩ := Option.filter_eq_some_iff.mp hstored
        intro w hw
        rw [List.mem_singleton.mp hw]
        refine .artefact ?_
        show db.credentialTenant stored.credentialId = owner
        rw [Db.credentialTenant, Table.get_of_mem (Table.mem_of_get hget), Option.bind_some,
          beq_iff_eq.mp huser, hown]
      · cases hfactor
  | _ => cases hfactor

/-- **What sign-in writes** is about the tenant the request is of. -/
theorem about_of_effect {request : Request} {a : Answer} {ws : List Write}
    (hattributed : Attributed db) (h : Effect env d db request a ws)
    (hkind : ∀ op call, request = .admin op call →
      call.edits = false ∧ ∀ body, call ≠ .createTenant body) :
    ∀ w ∈ ws, About db (tenantOf env db request) w := by
  have hlogin : ∀ {a : Attempt} {user : User}, attemptOf env db.toDirectory request = some a →
      Admitted env db.toDirectory a user →
      db.userTenant user.userId = tenantOf env db request := fun hattempt hadmitted =>
    (oneTenant_of_admitted hattempt hadmitted).1.trans (tenantOf_attempt hattempt).symm
  have hstep : ∀ {challengeId : String} {challenge : MfaChallenge},
      stepUpChallenge request = some challengeId →
      OpenChallenge db.toArtefacts d.now challengeId challenge →
      db.userTenant challenge.userId = tenantOf env db request := by
    intro challengeId challenge hrequest hopen
    rw [tenantOf_stepUp hrequest, challengeTenant_of_get hopen.found]
  intro w hw
  cases h with
  | silent | loggedOutNobody => cases hw
  | login _ heffect =>
      cases heffect with
      | refused | blocked => cases hw
      | allowed hattempt hadmitted => exact about_sessionWrites (hlogin hattempt hadmitted) w hw
      | challenged hattempt hadmitted | denied hattempt hadmitted =>
          obtain rfl := List.mem_singleton.mp hw
          exact .artefact (hlogin hattempt hadmitted)
  | steppedUp hrequest hopen hfactor =>
      have howner := hstep hrequest hopen
      rcases List.mem_append.mp hw with hw | hw
      · exact about_factor hfactor howner w hw
      · rcases List.mem_cons.mp hw with rfl | hw
        · refine .artefact ?_
          show db.challengeTenant _ = _
          rw [Table.key_of_get hopen.found, tenantOf_stepUp hrequest]
        · exact about_sessionWrites howner w hw
  | stepUpDenied hrequest hopen hfactor =>
      have howner := hstep hrequest hopen
      exact about_factor hfactor howner w hw
  | challengeOptions hopen =>
      obtain rfl := List.mem_singleton.mp hw
      refine .artefact ?_
      show db.challengeTenant _ = _
      rw [Table.key_of_get hopen.found]
      rfl
  | @exchanged body row stored user hredeemable =>
      have hcode : db.codeTenant (hashSessionToken env body.code) = db.userTenant row.userId := by
        rw [Db.codeTenant, hredeemable.found, Option.bind_some]
      have hstored :
          db.userTenant stored.userId = db.codeTenant (hashSessionToken env body.code) := by
        rw [hcode, hattributed.codes row (Table.mem_of_get hredeemable.found) stored
          hredeemable.session]
      simp only [exchangeWrites, List.mem_cons, List.not_mem_nil, or_false] at hw
      rcases hw with rfl | rfl | rfl
      · refine .artefact ?_
        show db.codeTenant row.codeHash = _
        rw [Table.key_of_get hredeemable.found]
        rfl
      · exact .artefact hstored
      · refine .artefact ?_
        show db.sessionTenant stored.tokenHash = _
        rw [sessionTenant_of_mem (Table.mem_of_get hredeemable.session)]
        exact hstored
  | loggedOut htoken =>
      obtain rfl := List.mem_singleton.mp hw
      exact .artefact (bearerTenant_of_token htoken).symm
  | sessionOptions henrolling =>
      obtain rfl := List.mem_singleton.mp hw
      exact .artefact (bearerTenant_of_token henrolling.token).symm
  | sessionVerified henrolling =>
      have howner := bearerTenant_of_token henrolling.token
      simp only [sessionVerifyWrites, List.mem_cons, List.not_mem_nil, or_false] at hw
      rcases hw with rfl | rfl | rfl
      · exact .artefact ((sessionTenant_of_mem henrolling.mem).symm.trans howner.symm)
      · exact .artefact howner.symm
      · exact .artefact howner.symm
  | activationOptions hopen =>
      obtain rfl := List.mem_singleton.mp hw
      refine .artefact ?_
      show db.activationTenant _ = _
      rw [Table.key_of_get hopen.found]
      rfl
  | activationVerified hopen =>
      simp only [activationVerifyWrites, List.mem_cons, List.not_mem_nil, or_false] at hw
      rcases hw with rfl | rfl
      · exact .artefact (activationTenant_of_get hopen.found).symm
      · refine .artefact ?_
        show db.activationTenant _ = _
        rw [Table.key_of_get hopen.found]
        rfl
  | @issued op userId user response howner hown =>
      have htenant : db.userTenant user.userId = some op.tenantId := by
        rw [Directory.userTenant, Table.get_of_mem (Table.mem_of_get howner), Option.map_some, hown]
      simp only [issueWrites, List.mem_cons, List.not_mem_nil, or_false] at hw
      rcases hw with rfl | rfl
      · exact .artefact htenant
      · exact .artefact htenant
  | edited _ hcall =>
      rw [(hkind _ _ rfl).1] at hcall
      cases hcall
  | founded => exact absurd rfl ((hkind _ _ rfl).2 _)

/-! ## Requests of other tenants -/

/-- A user stays, and stays with its tenant. -/
theorem userTenant_invariant {userId owner : String} :
    Invariant Write fun db : Db => db.userTenant userId = some owner := by
  rintro w db - hown
  cases w with
  | directory w => exact userTenant_effect hown
  | artefact w => exact hown

variable {s : Served}

/-- Only an activation code changes what sign-in left. -/
theorem artefacts_of_call {op : Operator} {call : AdminCall}
    (hrequest : s.request = .admin op call)
    (hissue : ∀ userId, call ≠ .issueActivationCode userId)
    (hcreate : ∀ body, call ≠ .createTenant body) :
    (s.after env).toArtefacts = s.before.toArtefacts := by
  cases hanswer : s.answer env with
  | error e => rw [Served.after_of_error hanswer]
  | ok a =>
      have heffect := Served.effect hanswer
      have hcommit := s.commit_writes env
      rw [hrequest] at heffect
      generalize s.writes env = ws at heffect hcommit
      cases heffect with
      | silent =>
          rw [commit_nil] at hcommit
          rw [← Option.some.inj hcommit]
      | login hlogin => cases hlogin
      | steppedUp hstep | stepUpDenied hstep => cases hstep
      | issued => exact absurd rfl (hissue _)
      | edited _ _ path =>
          obtain rfl := Option.some.inj (path.commit.symm.trans hcommit)
          refine path.invariant (I := fun mid => mid.toArtefacts = s.before.toArtefacts)
            (fun mid w hmid hedits _ => ?_) rfl
          obtain ⟨edit, rfl, -⟩ := hedits
          exact hmid
      | founded => exact absurd rfl (hcreate _)

theorem indistinct_of_rowsKept (h : RowsKept tenantId db.toDirectory db'.toDirectory)
    (hsame : db'.toArtefacts = db.toArtefacts) : Indistinct tenantId db db' := by
  have howner : ∀ userId,
      db.userTenant userId = some tenantId ↔ db'.userTenant userId = some tenantId := fun _ =>
    userTenant_agree h
  have hkept : ∀ {ρ κ : Type} {key : ρ → κ} (user : ρ → String) {t t' : Table ρ key}, t' = t →
      Table.AgreeOn (fun r => db.userTenant (user r) = some tenantId)
        (fun r => db'.userTenant (user r) = some tenantId) t t' := by
    rintro ρ κ key user t _ rfl
    exact (Table.AgreeOn.refl _ _).congr (fun _ _ => Iff.rfl) fun r _ => howner (user r)
  refine ⟨⟨h.tenants, h.tenantDomains, h.applications, h.users, h.groups, h.roles, h.permissions,
    h.groupMemberships, h.groupRoles, h.rolePermissions,
    hkept IdpSession.userId (congrArg Artefacts.sessions hsame),
    hkept ActivationCode.userId (congrArg Artefacts.activationCodes hsame),
    hkept MfaChallenge.userId (congrArg Artefacts.mfaChallenges hsame),
    hkept WebAuthnCredential.userId (congrArg Artefacts.webauthnCredentials hsame),
    hkept AuthCode.userId (congrArg Artefacts.authCodes hsame)⟩, ?_⟩
  rw [Db.passkeysOf, Db.passkeysOf,
    show db'.webauthnCredentials = _ from congrArg Artefacts.webauthnCredentials hsame]
  refine List.filter_congr fun c _ => ?_
  rw [Bool.eq_iff_iff, beq_iff_eq, beq_iff_eq]
  exact howner c.userId

/-- Who an edit concerns is whose request it is. -/
theorem tenantOf_of_concerns {op : Operator} {call : AdminCall}
    (hcreate : ∀ body, call ≠ .createTenant body) (h : call.Concerns op tenantId) :
    tenantOf env db (.admin op call) = some tenantId := by
  cases call with
  | createTenant body => exact absurd rfl (hcreate body)
  | patchTenant other body => exact congrArg some h
  | listTenants => cases h.1
  | _ => exact congrArg some h.2

/-- A request of another tenant, or of nobody, leaves the rows of a tenant as they are. -/
theorem indistinct_after_other (horderly : Orderly s.before.toDirectory)
    (hattributed : Attributed s.before)
    (hcreate : ∀ op body, s.request ≠ .admin op (.createTenant body))
    (hother : tenantOf env s.before s.request ≠ some tenantId) :
    Indistinct tenantId s.before (s.after env) := by
  cases hanswer : s.answer env with
  | error e =>
      rw [Served.after_of_error hanswer]
      exact Indistinct.refl _ _
  | ok a =>
      by_cases hedit : ∃ op call, s.request = .admin op call ∧ call.edits = true
      · obtain ⟨op, call, hrequest, hcall⟩ := hedit
        have hcreate' : ∀ body, call ≠ .createTenant body := by
          rintro body rfl
          exact hcreate op body hrequest
        have hissue : ∀ userId, call ≠ .issueActivationCode userId := by
          rintro userId rfl
          cases hcall
        refine indistinct_of_rowsKept ?_ (artefacts_of_call hrequest hissue hcreate')
        obtain ⟨before, request, draws⟩ := s
        obtain rfl : request = .admin op call := hrequest
        refine rowsKept_edit horderly.owned.owned horderly.unique horderly.integrity hcall
          fun hconcerns => hother (tenantOf_of_concerns hcreate' hconcerns)
      · refine indistinct_commit hother (about_of_effect hattributed (Served.effect hanswer)
          ?_) (s.commit_writes env)
        intro op call hrequest
        refine ⟨Bool.eq_false_iff.mpr fun hcall => hedit ⟨op, call, hrequest, hcall⟩, ?_⟩
        rintro body rfl
        exact hcreate op body hrequest

/-! ## Requests of the tenant -/

/-- Two runs of a request that cannot tell the states apart. -/
theorem answer_of_coupled {K : Db → Prop} {request : Request}
    (hcoupled : Coupled (Aware tenantId K) (serve env d request) fun _ => Unaware tenantId)
    (h : Aware tenantId K db db') :
    Served.answer env ⟨db, request, d⟩ = Served.answer env ⟨db', request, d⟩ ∧
      Indistinct tenantId (Served.after env ⟨db, request, d⟩)
        (Served.after env ⟨db', request, d⟩) := by
  have hanswer : Served.answer env ⟨db, request, d⟩ = Served.answer env ⟨db', request, d⟩ :=
    hcoupled.answer (t := ⟨db, [], []⟩) h
  refine ⟨hanswer, ?_⟩
  cases hresult : Served.answer env ⟨db, request, d⟩ with
  | error e =>
      rw [Served.after_of_error hresult, Served.after_of_error (hanswer.symm.trans hresult)]
      exact h.indistinct
  | ok a =>
      have hafter : Unaware tenantId (Served.after env ⟨db, request, d⟩)
          (Served.after env ⟨db', request, d⟩) :=
        hcoupled.after (t := ⟨db, [], []⟩) h (Prod.ext hresult rfl)
      exact hafter.indistinct

/-- An operator's call leaves the passkeys of a tenant's users, and their order. -/
theorem passkeysOf_after (hattributed : Attributed s.before)
    (hedits : (s.after env).toArtefacts = s.before.toArtefacts) :
    (s.after env).passkeysOf tenantId = s.before.passkeysOf tenantId := by
  rw [Db.passkeysOf, Db.passkeysOf,
    show (s.after env).webauthnCredentials = _ from congrArg Artefacts.webauthnCredentials hedits]
  refine List.filter_congr fun c hc => ?_
  obtain ⟨owner, howner⟩ := hattributed.passkeys c hc
  have hafter : (s.after env).userTenant c.userId = some owner :=
    commit_invariant userTenant_invariant (s.commit_writes env) howner
  rw [howner, hafter]

/-- **The tenant's own requests** see the rows of the tenant only. -/
theorem answer_indistinct {request : Request} (h : Indistinct tenantId db db')
    (horderly : Orderly db.toDirectory) (horderly' : Orderly db'.toDirectory)
    (hblind : request.blind = true) (hask : MayAsk env d tenantId request db)
    (hask' : MayAsk env d tenantId request db') :
    Served.answer env ⟨db, request, d⟩ = Served.answer env ⟨db', request, d⟩ ∧
      Indistinct tenantId (Served.after env ⟨db, request, d⟩)
        (Served.after env ⟨db', request, d⟩) := by
  have htwin : Twin tenantId db db' := ⟨h.agree, horderly.owned.owned, horderly'.owned.owned,
    horderly.unique, horderly'.unique⟩
  by_cases hcalls : ∃ op call, request = .admin op call
  · obtain ⟨op, call, rfl⟩ := hcalls
    by_cases hissue : ∃ userId, call = .issueActivationCode userId
    · obtain ⟨userId, rfl⟩ := hissue
      obtain rfl : op.tenantId = tenantId := Option.some.inj hask.tenant
      refine answer_of_coupled (K := NewDraws env d) ?_
        ⟨htwin, h.passkeys, hask.ready.draws, hask'.ready.draws⟩
      exact coupled_answered (fun _ hk => hk) coupled_issueActivationCode
    · have hexisting : call.onExisting = true := by
        cases call with
        | issueActivationCode userId => exact absurd ⟨userId, rfl⟩ hissue
        | _ => exact hblind
      obtain rfl : op.tenantId = tenantId := by
        have htenant := hask.tenant
        cases call <;> first | exact Option.some.inj htenant | cases hexisting
      have hcoupled : Coupled (Unknowing op.tenantId (db, db')) (serveAdmin env d op call)
        fun _ => Unknowing op.tenantId (db, db') := coupled_serveAdmin hexisting
      have hstart : Unknowing op.tenantId (db, db') db db' :=
        ⟨⟨htwin, fun _ _ => Agree.refl _ _, fun _ _ => Agree.refl _ _⟩, trivial, trivial⟩
      have hanswer : Served.answer env ⟨db, .admin op call, d⟩ =
          Served.answer env ⟨db', .admin op call, d⟩ :=
        hcoupled.answer (t := ⟨db, [], []⟩) hstart
      refine ⟨hanswer, ?_, ?_⟩
      · cases hresult : Served.answer env ⟨db, .admin op call, d⟩ with
        | error e =>
            rw [Served.after_of_error hresult, Served.after_of_error (hanswer.symm.trans hresult)]
            exact h.agree
        | ok a =>
            have hafter : Unknowing op.tenantId (db, db')
                (Served.after env ⟨db, .admin op call, d⟩)
                (Served.after env ⟨db', .admin op call, d⟩) :=
              hcoupled.after (t := ⟨db, [], []⟩) hstart (Prod.ext hresult rfl)
            exact hafter.1.twin.agree
      · -- and the order of the passkeys is what it was
        have hissue' : ∀ userId, call ≠ .issueActivationCode userId := fun userId hcall =>
          hissue ⟨userId, hcall⟩
        have hcreate : ∀ body, call ≠ .createTenant body := by
          rintro body rfl
          cases hexisting
        rw [passkeysOf_after hask.ready.toAttributed (artefacts_of_call rfl hissue' hcreate),
          passkeysOf_after hask'.ready.toAttributed (artefacts_of_call rfl hissue' hcreate)]
        exact h.passkeys
  · push Not at hcalls
    exact answer_of_coupled (coupled_serve hcalls) ⟨htwin, h.passkeys, hask, hask'⟩

end RbaIdp
