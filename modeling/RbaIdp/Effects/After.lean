import RbaIdp.Effects.Events

/-!
# What a request leaves

For every table of sign-in artefacts: a row that is there after a request was
there before, or was inserted by it, or is one the request's event was about.
-/

namespace RbaIdp

open Relational Program

variable {env : Env} {s : Served}

namespace Served

/-! ## Sessions -/

/-- Statements that change no session leave the ones there were, and add the ones
they insert. -/
theorem sessions_of_commit {ws : List Write} {db db' : Db} (hcommit : commit ws db = some db')
    (hkeeps : ∀ tokenHash, .artefact (.lapseOffer tokenHash) ∉ ws ∧
      ∀ nonce, .artefact (.setSessionNonce tokenHash nonce) ∉ ws)
    {r : IdpSession} (hr : r ∈ db'.sessions) :
    r ∈ db.sessions ∨ .artefact (.insertSession r) ∈ ws := by
  have path := Path.of_commit (P := fun _ w => w ∈ ws) hcommit fun w hw _ => hw
  refine path.invariant (I := fun mid => ∀ r ∈ mid.sessions,
    r ∈ db.sessions ∨ .artefact (.insertSession r) ∈ ws) (fun mid w hmid hw _ r hr => ?_)
    (fun r hr => Or.inl hr) r hr
  cases w with
  | directory w => exact hmid r hr
  | artefact w =>
      rcases mem_sessions_effect hr with hold | rfl | ⟨old, -, nonce, rfl, -⟩ | ⟨old, -, rfl, -⟩
      · exact hmid r hold
      · exact Or.inr hw
      · exact absurd hw ((hkeeps _).2 _)
      · exact absurd hw (hkeeps _).1

/-- A digest some session has after a commit is one a session had before, or the
one of a session that was inserted. -/
theorem digest_of_commit {ws : List Write} {db db' : Db} (hcommit : commit ws db = some db')
    {r : IdpSession} (hr : r ∈ db'.sessions) :
    (∃ old ∈ db.sessions, old.tokenHash = r.tokenHash) ∨
      ∃ new, .artefact (.insertSession new) ∈ ws ∧ new.tokenHash = r.tokenHash := by
  have path := Path.of_commit (P := fun _ w => w ∈ ws) hcommit fun w hw _ => hw
  refine path.invariant (I := fun mid => ∀ r ∈ mid.sessions,
    (∃ old ∈ db.sessions, old.tokenHash = r.tokenHash) ∨
      ∃ new, .artefact (.insertSession new) ∈ ws ∧ new.tokenHash = r.tokenHash)
    (fun mid w hmid hw _ r hr => ?_) (fun r hr => Or.inl ⟨r, hr, rfl⟩) r hr
  cases w with
  | directory w => exact hmid r hr
  | artefact w =>
      rcases mem_sessions_effect hr with hold | rfl | ⟨old, hold, nonce, -, rfl⟩ |
        ⟨old, hold, -, rfl⟩
      · exact hmid r hold
      · exact Or.inr ⟨r, hw, rfl⟩
      · exact hmid old hold
      · exact hmid old hold

/-- The ways a session comes to be. -/
inductive Created (env : Env) (s : Served) : IdpSession → Prop where
  | signedIn {a : Attempt} {user : User} (event : SignsIn env s a user) :
      Created env s (sessionRow env s.draws user.userId a.applicationId
        (offersPasskey env s.draws s.before.toArtefacts user.userId))
  | steppedUp {challenge : MfaChallenge} (event : StepsUp env s challenge) :
      Created env s (sessionRow env s.draws challenge.userId challenge.applicationId false)
  | redeemed {row : AuthCode} {stored : IdpSession} {user : User}
      (event : Redeems env s row stored user) : Created env s (rotatedSession env s.draws stored)

theorem created {r : IdpSession} (h : .artefact (.insertSession r) ∈ s.writes env) :
    Created env s r := by
  cases executes h with
  | signedIn event => exact .signedIn event
  | steppedUp event => exact .steppedUp event
  | rotated event => exact .redeemed event

/-- An exchange creates a session by redeeming its code. -/
theorem redeems_of_created {body : CallbackTokenRequest} (hrequest : s.request = .exchangeCode body)
    {r : IdpSession} (h : .artefact (.insertSession r) ∈ s.writes env) :
    ∃ row stored user, Redeems env s row stored user ∧
      Redeemable env s.before s.draws.now body.code row stored user := by
  cases created h with
  | signedIn event =>
      have hlogin := event.isLogin
      rw [hrequest] at hlogin
      cases hlogin
  | steppedUp event =>
      have hstep := event.request
      rw [hrequest] at hstep
      cases hstep
  | redeemed event =>
      obtain ⟨_, hother, hredeemable⟩ := event.request
      obtain rfl := Request.exchangeCode.inj (hrequest.symm.trans hother)
      exact ⟨_, _, _, event, hredeemable⟩

/-- A step-up creates a session by completing its challenge. -/
theorem stepsUp_of_created {challengeId : String}
    (hrequest : stepUpChallenge s.request = some challengeId) {r : IdpSession}
    (h : .artefact (.insertSession r) ∈ s.writes env) :
    ∃ challenge, StepsUp env s challenge ∧ challenge.challengeId = challengeId ∧
      r.userId = challenge.userId ∧ r.applicationId = challenge.applicationId := by
  cases created h with
  | signedIn event =>
      have hlogin := event.isLogin
      cases hother : s.request <;>
        simp [hother, Request.isLogin, stepUpChallenge] at hlogin hrequest
  | steppedUp event =>
      exact ⟨_, event, Option.some.inj (event.request.symm.trans hrequest), rfl, rfl⟩
  | redeemed event =>
      obtain ⟨_, hother, -⟩ := event.request
      rw [hother] at hrequest
      cases hrequest

/-- Only logins, step-ups and exchanges create sessions. -/
theorem request_of_created {r : IdpSession} (h : .artefact (.insertSession r) ∈ s.writes env) :
    s.request.opens = true ∨ ∃ body, s.request = .exchangeCode body := by
  cases created h with
  | signedIn event =>
      have hlogin := event.isLogin
      cases hrequest : s.request <;> simp [hrequest, Request.isLogin, Request.opens] at hlogin ⊢
  | steppedUp event =>
      have hstep := event.request
      cases hrequest : s.request <;> simp [hrequest, stepUpChallenge, Request.opens] at hstep ⊢
  | redeemed event =>
      obtain ⟨body, hrequest, -⟩ := event.request
      exact Or.inr ⟨body, hrequest⟩

theorem writes_sessionOptions {authorization : Option String}
    (hrequest : s.request = .sessionOptions authorization) :
    s.writes env = [] ∨ ∃ row, OpensSession env s row ∧
      s.writes env = [.artefact (.setSessionNonce row.tokenHash (some s.draws.nonce))] := by
  cases hanswer : s.answer env with
  | error e => exact Or.inl (writes_of_error hanswer)
  | ok a =>
      have heffect := effect hanswer
      rw [hrequest] at heffect
      generalize s.writes env = ws at heffect ⊢
      cases heffect with
      | sessionOptions henrolling howner henabled hnone =>
          exact Or.inr ⟨_, ⟨⟨_, hanswer⟩, ⟨_, hrequest, henrolling⟩, ⟨_, howner, henabled⟩, hnone⟩,
            rfl⟩
      | silent hsilent => cases hsilent
      | login hlogin => cases hlogin
      | steppedUp hstep | stepUpDenied hstep => cases hstep

variable (env) in
theorem writes_sessionVerify {authorization : Option String} {body : PasskeyVerifyRequest}
    (hrequest : s.request = .sessionVerify authorization body) :
    s.writes env = [] ∨ ∃ row verified, EnrollsSession env s row verified ∧
      s.writes env = sessionVerifyWrites row verified := by
  cases hanswer : s.answer env with
  | error e => exact Or.inl (writes_of_error hanswer)
  | ok a =>
      have heffect := effect hanswer
      rw [hrequest] at heffect
      generalize s.writes env = ws at heffect ⊢
      cases heffect with
      | sessionVerified henrolling hnonce hstorable =>
          exact Or.inr ⟨_, _, ⟨⟨_, hanswer⟩, _, _, _, hrequest, henrolling, hnonce, hstorable⟩, rfl⟩
      | silent hsilent => cases hsilent
      | login hlogin => cases hlogin
      | steppedUp hstep | stepUpDenied hstep => cases hstep

/-- A session that is there after a request was there before, or was created by
it, or is one whose enrollment the request began or ended. -/
theorem sessions_after {r : IdpSession} (hr : r ∈ (s.after env).sessions) :
    r ∈ s.before.sessions ∨ .artefact (.insertSession r) ∈ s.writes env ∨
      (∃ row, OpensSession env s row ∧ r = { row with webauthnChallenge := some s.draws.nonce }) ∨
      ∃ row verified, EnrollsSession env s row verified ∧
        r = { row with enrollUntil := none, webauthnChallenge := none } := by
  have hcommit := s.commit_writes env
  by_cases hoptions : ∃ authorization, s.request = .sessionOptions authorization
  · obtain ⟨authorization, hrequest⟩ := hoptions
    rcases writes_sessionOptions hrequest with hnothing | ⟨row, event, hwrites⟩
    · rw [hnothing, commit_nil] at hcommit
      rw [← Option.some.inj hcommit] at hr
      exact Or.inl hr
    · rw [hwrites] at hcommit
      simp only [commit_cons_eq_some, commit_nil, Option.some.injEq] at hcommit
      rw [← hcommit.2] at hr
      obtain ⟨_, -, henrolling⟩ := event.request
      rcases mem_sessions_effect hr with hold | hinsert | ⟨old, hold, nonce, hset, rfl⟩ |
        ⟨_, -, hlapse, -⟩
      · exact Or.inl hold
      · cases hinsert
      · injection hset with hkey hnonce
        have hrow : row = old := Table.eq_of_key_eq henrolling.mem hold hkey
        exact Or.inr (Or.inr (Or.inl ⟨row, event, by rw [hrow, ← hnonce]⟩))
      · cases hlapse
  by_cases hverify : ∃ authorization body, s.request = .sessionVerify authorization body
  · obtain ⟨authorization, body, hrequest⟩ := hverify
    rcases writes_sessionVerify env hrequest with hnothing | ⟨row, verified, event, hwrites⟩
    · rw [hnothing, commit_nil] at hcommit
      rw [← Option.some.inj hcommit] at hr
      exact Or.inl hr
    · rw [hwrites] at hcommit
      simp only [sessionVerifyWrites, commit_cons_eq_some, commit_nil, Option.some.injEq] at hcommit
      rw [← hcommit.2.2.2] at hr
      obtain ⟨_, _, _, -, henrolling, -⟩ := event.request
      simp only [effect_artefact, ArtefactWrite.effect, Artefacts.updateSession, Table.mem_modify]
        at hr
      obtain ⟨_, ⟨old, hold, rfl⟩, rfl⟩ := hr
      by_cases hkey : old.tokenHash = row.tokenHash
      · have hrow : old = row := Table.eq_of_key_eq hold henrolling.mem hkey
        exact Or.inr (Or.inr (Or.inr ⟨row, verified, event, by simp [hrow]⟩))
      · simp [hkey, hold]
  · refine (sessions_of_commit hcommit (fun tokenHash => ⟨fun hlapse => ?_, fun nonce hset => ?_⟩)
      hr).imp_right Or.inl
    · cases executes hlapse with
      | lapsed event =>
          obtain ⟨authorization, body, -, hrequest, -⟩ := event.request
          exact hverify ⟨authorization, body, hrequest⟩
    · cases executes hset with
      | sessionNonce event =>
          obtain ⟨authorization, hrequest, -⟩ := event.request
          exact hoptions ⟨authorization, hrequest⟩
      | cleared event =>
          obtain ⟨authorization, body, -, hrequest, -⟩ := event.request
          exact hverify ⟨authorization, body, hrequest⟩

/-! ## Passkeys -/

/-- A passkey is enrolled through a session or through an activation code. -/
theorem enrolls_of_mem {c : WebAuthnCredential}
    (h : .artefact (.insertCredential c) ∈ s.writes env) :
    (∃ row verified, EnrollsSession env s row verified ∧ c = credentialRow row.userId verified) ∨
      ∃ row verified, EnrollsCode env s row verified ∧ c = credentialRow row.userId verified := by
  cases executes h with
  | enrolledSession event => exact Or.inl ⟨_, _, event, rfl⟩
  | enrolledCode event => exact Or.inr ⟨_, _, event, rfl⟩

/-- A passkey that is there after a request was there before, or was stored by it. -/
theorem credentials_after {c : WebAuthnCredential} (hc : c ∈ (s.after env).webauthnCredentials) :
    (∃ old ∈ s.before.webauthnCredentials,
      old.credentialId = c.credentialId ∧ old.userId = c.userId) ∨
    ∃ new, .artefact (.insertCredential new) ∈ s.writes env ∧
      new.credentialId = c.credentialId ∧ new.userId = c.userId := by
  have path := Path.of_commit (P := fun _ w => w ∈ s.writes env) (s.commit_writes env)
    fun w hw _ => hw
  refine path.invariant (I := fun mid => ∀ c ∈ mid.webauthnCredentials,
    (∃ old ∈ s.before.webauthnCredentials,
      old.credentialId = c.credentialId ∧ old.userId = c.userId) ∨
    ∃ new, .artefact (.insertCredential new) ∈ s.writes env ∧
      new.credentialId = c.credentialId ∧ new.userId = c.userId)
    (fun mid w hmid hw _ c hc => ?_) (fun c hc => Or.inl ⟨c, hc, rfl, rfl⟩) c hc
  cases w with
  | directory w => exact hmid c hc
  | artefact w =>
      rcases mem_webauthnCredentials_effect hc with ⟨old, hold, hid, huser⟩ | rfl
      · rw [← hid, ← huser]
        exact hmid old hold
      · exact Or.inr ⟨c, hw, rfl, rfl⟩

/-! ## Challenges -/

/-- A challenge that is there after a request was there before, for the same user
and application, or a login opened it. -/
theorem challenges_after {c : MfaChallenge} (hc : c ∈ (s.after env).mfaChallenges) :
    (∃ old ∈ s.before.mfaChallenges, old.challengeId = c.challengeId ∧ old.userId = c.userId ∧
      old.applicationId = c.applicationId) ∨
    ∃ a user challenge, AsksForMore env s a user challenge ∧
      challenge.challengeId = c.challengeId ∧ challenge.userId = c.userId ∧
      challenge.applicationId = c.applicationId := by
  have path := Path.of_commit (P := fun _ w => w ∈ s.writes env) (s.commit_writes env)
    fun w hw _ => hw
  refine path.invariant (I := fun mid => ∀ c ∈ mid.mfaChallenges,
    (∃ old ∈ s.before.mfaChallenges, old.challengeId = c.challengeId ∧ old.userId = c.userId ∧
      old.applicationId = c.applicationId) ∨
    ∃ a user challenge, AsksForMore env s a user challenge ∧
      challenge.challengeId = c.challengeId ∧ challenge.userId = c.userId ∧
      challenge.applicationId = c.applicationId)
    (fun mid w hmid hw _ c hc => ?_) (fun c hc => Or.inl ⟨c, hc, rfl, rfl, rfl⟩) c hc
  cases w with
  | directory w => exact hmid c hc
  | artefact w =>
      rcases mem_mfaChallenges_effect hc with ⟨old, hold, hid, huser, happ⟩ | rfl
      · rw [← hid, ← huser, ← happ]
        exact hmid old hold
      · cases executes hw with
        | challenged event => exact Or.inr ⟨_, _, _, event, rfl, rfl, rfl⟩

/-! ## Activation codes -/

theorem writes_issueActivationCode {op : Operator} {userId : String}
    (hrequest : s.request = .admin op (.issueActivationCode userId)) :
    (s.after env = s.before ∧ ∀ a, s.answer env ≠ .ok a) ∨
      Issues env s userId op.userId ∧
        s.writes env = issueWrites env s.draws userId op.userId := by
  cases hanswer : s.answer env with
  | error e => exact Or.inl ⟨after_of_error hanswer, by simp⟩
  | ok a =>
      have heffect := effect hanswer
      rw [hrequest] at heffect
      generalize s.writes env = ws at heffect ⊢
      cases heffect with
      | issued howner hown henabled =>
          rename_i user response
          have hkey : user.userId = userId := Table.key_of_get howner
          rw [hkey]
          exact Or.inr ⟨⟨⟨_, hanswer⟩, ⟨op, hrequest, rfl⟩, ⟨user, howner, henabled⟩⟩, rfl⟩
      | silent hsilent => cases hsilent
      | login hlogin => cases hlogin
      | steppedUp hstep | stepUpDenied hstep => cases hstep
      | edited _ hcall => cases hcall

theorem writes_activationOptions {body : ActivationOptionsRequest}
    (hrequest : s.request = .activationOptions body) :
    s.writes env = [] ∨ ∃ row, OpensCode env s row ∧
      s.writes env = [.artefact (.setActivationNonce row.codeHash s.draws.nonce)] := by
  cases hanswer : s.answer env with
  | error e => exact Or.inl (writes_of_error hanswer)
  | ok a =>
      have heffect := effect hanswer
      rw [hrequest] at heffect
      generalize s.writes env = ws at heffect ⊢
      cases heffect with
      | activationOptions hopen howner henabled hpassword =>
          exact Or.inr ⟨_, ⟨⟨_, hanswer⟩, _, _, hrequest, hopen, howner, henabled, hpassword⟩, rfl⟩
      | silent hsilent => cases hsilent
      | login hlogin => cases hlogin
      | steppedUp hstep | stepUpDenied hstep => cases hstep

/-- Statements that give no activation code a nonce leave the unconsumed ones
there were, and add the ones they insert. -/
theorem activationCodes_of_commit {ws : List Write} {db db' : Db}
    (hcommit : commit ws db = some db')
    (hkeeps : ∀ codeHash nonce, .artefact (.setActivationNonce codeHash nonce) ∉ ws)
    {r : ActivationCode} (hr : r ∈ db'.activationCodes) (hunconsumed : r.consumedAt = none) :
    r ∈ db.activationCodes ∨ .artefact (.insertActivationCode r) ∈ ws := by
  have path := Path.of_commit (P := fun _ w => w ∈ ws) hcommit fun w hw _ => hw
  refine path.invariant (I := fun mid => ∀ r ∈ mid.activationCodes, r.consumedAt = none →
    r ∈ db.activationCodes ∨ .artefact (.insertActivationCode r) ∈ ws)
    (fun mid w hmid hw _ r hr hunconsumed => ?_) (fun r hr _ => Or.inl hr) r hr hunconsumed
  cases w with
  | directory w => exact hmid r hr hunconsumed
  | artefact w =>
      rcases mem_activationCodes_effect hr with hold | rfl | ⟨old, -, nonce, rfl, -⟩ | hconsumed
      · exact hmid r hold hunconsumed
      · exact Or.inr hw
      · exact absurd hw (hkeeps _ _)
      · exact absurd hunconsumed hconsumed

/-- An activation code that can still be used after a request was there before
and its user got no other, or was issued by the request, or is one whose
enrollment the request began. -/
theorem activationCodes_after {r : ActivationCode} (hr : r ∈ (s.after env).activationCodes)
    (hunconsumed : r.consumedAt = none) :
    (r ∈ s.before.activationCodes ∧ ∀ issuedBy, ¬ Issues env s r.userId issuedBy) ∨
    (∃ issuedBy, Issues env s r.userId issuedBy ∧
      r = activationRow env s.draws r.userId issuedBy) ∨
    ∃ row, OpensCode env s row ∧ r = { row with webauthnChallenge := some s.draws.nonce } := by
  have hcommit := s.commit_writes env
  by_cases hissue : ∃ op userId, s.request = .admin op (.issueActivationCode userId)
  · obtain ⟨op, userId, hrequest⟩ := hissue
    rcases writes_issueActivationCode hrequest with ⟨hsame, hraised⟩ | ⟨event, hwrites⟩
    · rw [hsame] at hr
      refine Or.inl ⟨hr, fun issuedBy event => ?_⟩
      obtain ⟨response, hanswer⟩ := event.answered
      exact hraised _ hanswer
    · rw [hwrites] at hcommit
      simp only [issueWrites, commit_cons_eq_some, commit_nil, Option.some.injEq] at hcommit
      rw [← hcommit.2.2] at hr
      rcases Table.mem_or_eq_of_mem_insert hr with hold | rfl
      · have hother : r.userId ≠ userId := fun huser =>
          consumed_of_supersede hold huser hunconsumed
        refine Or.inl ⟨?_, fun issuedBy event => ?_⟩
        · rcases mem_activationCodes_effect hold with hold | h | ⟨_, _, _, h, -⟩ | hconsumed
          · exact hold
          · cases h
          · cases h
          · exact absurd hunconsumed hconsumed
        · obtain ⟨_, hsame, -⟩ := event.request
          rw [hrequest] at hsame
          injection hsame with _ hcall
          injection hcall with huser
          exact hother huser.symm
      · exact Or.inr (Or.inl ⟨op.userId, event, rfl⟩)
  have hnone : ∀ issuedBy, ¬ Issues env s r.userId issuedBy := by
    intro issuedBy event
    obtain ⟨op, hrequest, -⟩ := event.request
    exact hissue ⟨op, _, hrequest⟩
  by_cases hoptions : ∃ body, s.request = .activationOptions body
  · obtain ⟨body, hrequest⟩ := hoptions
    rcases writes_activationOptions hrequest with hnothing | ⟨row, event, hwrites⟩
    · rw [hnothing, commit_nil] at hcommit
      rw [← Option.some.inj hcommit] at hr
      exact Or.inl ⟨hr, hnone⟩
    · rw [hwrites] at hcommit
      simp only [commit_cons_eq_some, commit_nil, Option.some.injEq] at hcommit
      rw [← hcommit.2] at hr
      obtain ⟨_, _, -, hopen, -⟩ := event.request
      rcases mem_activationCodes_effect hr with hold | h | ⟨old, hold, nonce, hset, rfl⟩ | hconsumed
      · exact Or.inl ⟨hold, hnone⟩
      · cases h
      · injection hset with hkey hnonce
        have hrow : row = old := Table.eq_of_key_eq (Table.mem_of_get hopen.found) hold hkey
        exact Or.inr (Or.inr ⟨row, event, by rw [hrow, ← hnonce]⟩)
      · exact absurd hunconsumed hconsumed
  · refine (activationCodes_of_commit hcommit (fun codeHash nonce hset => ?_) hr hunconsumed).imp
      (fun hold => ⟨hold, hnone⟩) fun hinsert => ?_
    · cases executes hset with
      | codeNonce event =>
          obtain ⟨body, _, hrequest, -⟩ := event.request
          exact hoptions ⟨body, hrequest⟩
    · cases executes hinsert with
      | issued event => exact absurd event (hnone _)

variable (env) in
theorem writes_activationVerify {body : ActivationVerifyRequest}
    (hrequest : s.request = .activationVerify body) :
    s.writes env = [] ∨ ∃ row verified, EnrollsCode env s row verified ∧
      row.codeHash = hashCode env body.code ∧
      s.writes env = activationVerifyWrites s.draws row verified := by
  cases hanswer : s.answer env with
  | error e => exact Or.inl (writes_of_error hanswer)
  | ok a =>
      have heffect := effect hanswer
      rw [hrequest] at heffect
      generalize s.writes env = ws at heffect ⊢
      cases heffect with
      | activationVerified hopen hnonce hstorable =>
          exact Or.inr ⟨_, _, ⟨⟨_, hanswer⟩, _, _, hrequest, hopen, hnonce, hstorable⟩,
            Table.key_of_get hopen.found, rfl⟩
      | silent hsilent => cases hsilent
      | login hlogin => cases hlogin
      | steppedUp hstep | stepUpDenied hstep => cases hstep

/-! ## Callback codes -/

theorem redeems_of_mem {codeHash : String} {now : Time}
    (h : .artefact (.consumeAuthCode codeHash now) ∈ s.writes env) :
    ∃ row stored user, Redeems env s row stored user ∧ row.codeHash = codeHash ∧
      now = s.draws.now := by
  cases executes h with
  | redeemed event => exact ⟨_, _, _, event, rfl, rfl⟩

/-- What an exchange writes is determined by the code it is for. -/
theorem writes_of_redeems {row : AuthCode} {stored : IdpSession} {user : User}
    (event : Redeems env s row stored user) :
    s.writes env = exchangeWrites env s.draws row stored := by
  obtain ⟨a, hanswer⟩ := event.answered
  obtain ⟨body, hrequest, hredeemable⟩ := event.request
  have heffect := effect hanswer
  rw [hrequest] at heffect
  generalize s.writes env = ws at heffect ⊢
  cases heffect with
  | exchanged hother =>
      obtain rfl := Option.some.inj (hother.found.symm.trans hredeemable.found)
      obtain rfl := Option.some.inj (hother.session.symm.trans hredeemable.session)
      rfl
  | silent hsilent => cases hsilent
  | login hlogin => cases hlogin
  | steppedUp hstep | stepUpDenied hstep => cases hstep

/-- An exchange creates no callback code. -/
theorem no_code_of_redeems {row : AuthCode} {stored : IdpSession} {user : User}
    (event : Redeems env s row stored user) (r : AuthCode) :
    .artefact (.insertAuthCode r) ∉ s.writes env := by
  intro h
  obtain ⟨body, hrequest, -⟩ := event.request
  cases executes h with
  | signedInCode other =>
      have hlogin := other.isLogin
      rw [hrequest] at hlogin
      cases hlogin
  | steppedUpCode other =>
      have hstep := other.request
      rw [hrequest] at hstep
      cases hstep

/-- A callback code that is there after a request was there before, or came with
a session the request created, or is one it exchanged. -/
theorem authCodes_after {r : AuthCode} (hr : r ∈ (s.after env).authCodes) :
    r ∈ s.before.authCodes ∨ .artefact (.insertAuthCode r) ∈ s.writes env ∨
    ∃ row stored user, Redeems env s row stored user ∧
      r = { row with consumedAt := some s.draws.now } := by
  have path := Path.of_commit (P := fun _ w => w ∈ s.writes env) (s.commit_writes env)
    fun w hw _ => hw
  refine path.invariant (I := fun mid => ∀ r ∈ mid.authCodes,
    r ∈ s.before.authCodes ∨ .artefact (.insertAuthCode r) ∈ s.writes env ∨
    ∃ row stored user, Redeems env s row stored user ∧
      r = { row with consumedAt := some s.draws.now })
    (fun mid w hmid hw _ r hr => ?_) (fun r hr => Or.inl hr) r hr
  cases w with
  | directory w => exact hmid r hr
  | artefact w =>
      rcases mem_authCodes_effect hr with hold | rfl | ⟨old, hold, now, rfl, rfl⟩
      · exact hmid r hold
      · exact Or.inr (Or.inl hw)
      · obtain ⟨row, stored, user, event, hkey, rfl⟩ := redeems_of_mem hw
        obtain ⟨body, -, hredeemable⟩ := event.request
        rcases hmid old hold with hbefore | hinsert | ⟨other, stored', user', event', rfl⟩
        · have hrow : row = old :=
            Table.eq_of_key_eq (Table.mem_of_get hredeemable.found) hbefore hkey
          exact Or.inr (Or.inr ⟨row, stored, user, event, by rw [hrow]⟩)
        · exact absurd hinsert (no_code_of_redeems event old)
        · exact Or.inr (Or.inr ⟨other, stored', user', event', rfl⟩)

/-! ## The session of a request -/

theorem mem_sessionWrites {userId applicationId : String} {mayEnroll : Bool}
    {target : Option String} :
    (∀ r, .artefact (.insertSession r) ∈ sessionWrites env s.draws userId applicationId mayEnroll
      target ↔ r = sessionRow env s.draws userId applicationId mayEnroll) ∧
    ∀ c, .artefact (.insertAuthCode c) ∈ sessionWrites env s.draws userId applicationId mayEnroll
      target → ∃ target, c = authCodeRow env s.draws userId applicationId target := by
  refine ⟨fun r => by simp [sessionWrites], fun c hc => ?_⟩
  simp only [sessionWrites, List.mem_append, List.mem_cons, List.not_mem_nil, reduceCtorEq,
    Write.artefact.injEq, or_false, false_or, Option.mem_toList, Option.map_eq_some_iff] at hc
  obtain ⟨target, -, hcode⟩ := hc
  injection hcode with hcode
  exact ⟨target, hcode.symm⟩

variable (env s) in
/-- A request creates at most one session, and a callback code only with it. -/
theorem creates_one :
    ((∀ r, .artefact (.insertSession r) ∉ s.writes env) ∧
      ∀ c, .artefact (.insertAuthCode c) ∉ s.writes env) ∨
    ∃ row, row.tokenHash = hashSessionToken env s.draws.token ∧
      (∀ r, .artefact (.insertSession r) ∈ s.writes env ↔ r = row) ∧
      ∀ c, .artefact (.insertAuthCode c) ∈ s.writes env →
        c.sessionHash = row.tokenHash ∧ c.userId = row.userId ∧
        c.applicationId = row.applicationId := by
  cases hanswer : s.answer env with
  | error e => simp [writes_of_error hanswer]
  | ok a =>
      have heffect := effect hanswer
      generalize s.request = request at heffect
      generalize s.writes env = ws at heffect ⊢
      cases heffect with
      | login _ hlogin =>
          cases hlogin with
          | allowed =>
              refine Or.inr ⟨_, rfl, mem_sessionWrites.1, fun c hc => ?_⟩
              obtain ⟨target, rfl⟩ := mem_sessionWrites.2 c hc
              exact ⟨rfl, rfl, rfl⟩
          | _ => exact Or.inl ⟨by simp, by simp⟩
      | steppedUp _ _ hfactor =>
          rename_i challenge _ _ _ _
          refine Or.inr ⟨sessionRow env s.draws challenge.userId challenge.applicationId false, rfl,
            fun r => ?_, fun c hc => ?_⟩
          · obtain rfl | ⟨_, _, rfl⟩ := factor_writes hfactor <;>
              simpa [finishWrites] using mem_sessionWrites.1 r
          · have hmem : .artefact (.insertAuthCode c) ∈ sessionWrites env s.draws challenge.userId
                challenge.applicationId false
                (stepUpCallback s.before.toDirectory challenge (stepUpRedirect request)) := by
              obtain rfl | ⟨_, _, rfl⟩ := factor_writes hfactor <;> simpa [finishWrites] using hc
            obtain ⟨target, rfl⟩ := mem_sessionWrites.2 c hmem
            exact ⟨rfl, rfl, rfl⟩
      | stepUpDenied _ _ hfactor =>
          obtain rfl | ⟨_, _, rfl⟩ := factor_writes hfactor <;> exact Or.inl ⟨by simp, by simp⟩
      | exchanged =>
          rename_i row stored user _
          exact Or.inr ⟨rotatedSession env s.draws stored, rfl, by simp [exchangeWrites],
            by simp [exchangeWrites]⟩
      | edited _ _ path | founded _ path =>
          refine Or.inl ⟨fun r hr => ?_, fun c hc => ?_⟩
          · obtain ⟨_, edit, hedit, -⟩ := path.mem hr
            cases hedit
          · obtain ⟨_, edit, hedit, -⟩ := path.mem hc
            cases hedit
      | _ =>
          exact Or.inl ⟨by simp [sessionVerifyWrites, activationVerifyWrites, issueWrites],
            by simp [sessionVerifyWrites, activationVerifyWrites, issueWrites]⟩

/-- The session a request creates has the digest of the token it drew. -/
theorem tokenHash_of_mem {r : IdpSession} (h : .artefact (.insertSession r) ∈ s.writes env) :
    r.tokenHash = hashSessionToken env s.draws.token := by
  cases created h <;> rfl

theorem insertSession_unique {r r' : IdpSession} (h : .artefact (.insertSession r) ∈ s.writes env)
    (h' : .artefact (.insertSession r') ∈ s.writes env) : r = r' := by
  rcases creates_one env s with hnothing | ⟨row, -, hone, -⟩
  · exact absurd h (hnothing.1 r)
  · rw [(hone r).mp h, (hone r').mp h']

/-- A callback code is bound to the session it came with. -/
theorem session_of_code {c : AuthCode} (h : .artefact (.insertAuthCode c) ∈ s.writes env) :
    ∃ row, .artefact (.insertSession row) ∈ s.writes env ∧ c.sessionHash = row.tokenHash ∧
      c.userId = row.userId ∧ c.applicationId = row.applicationId := by
  rcases creates_one env s with hnothing | ⟨row, -, hone, hcodes⟩
  · exact absurd h (hnothing.2 c)
  · exact ⟨row, (hone row).mpr rfl, hcodes c h⟩

/-- A step-up that creates a session consumes its challenge. -/
theorem consumes_of_stepUp {challengeId : String}
    (hrequest : stepUpChallenge s.request = some challengeId) {r : IdpSession}
    (h : .artefact (.insertSession r) ∈ s.writes env) :
    .artefact (.consumeChallenge challengeId s.draws.now) ∈ s.writes env := by
  obtain ⟨a, -, heffect⟩ := effect_of_mem h
  generalize s.request = request at heffect hrequest
  generalize s.writes env = ws at heffect h ⊢
  cases heffect with
  | silent => cases h
  | login hlogin =>
      cases request <;> simp [Request.isLogin, stepUpChallenge] at hlogin hrequest
  | steppedUp hstep hopen =>
      obtain rfl := Option.some.inj (hstep.symm.trans hrequest)
      rw [show _ = _ from (Table.key_of_get hopen.found).symm]
      simp [finishWrites]
  | stepUpDenied _ _ hfactor =>
      obtain rfl | ⟨_, _, rfl⟩ := factor_writes hfactor <;> simp at h
  | _ => cases hrequest

/-- A request stores at most one passkey. -/
theorem insertCredential_unique {c c' : WebAuthnCredential}
    (h : .artefact (.insertCredential c) ∈ s.writes env)
    (h' : .artefact (.insertCredential c') ∈ s.writes env) : c = c' := by
  rcases enrolls_of_mem h with ⟨_, _, event, -⟩ | ⟨_, _, event, -⟩
  · obtain ⟨_, _, _, hrequest, -⟩ := event.request
    rcases writes_sessionVerify env hrequest with hnothing | ⟨row, verified, -, hwrites⟩
    · simp [hnothing] at h
    · simp only [hwrites, sessionVerifyWrites, List.mem_cons, List.not_mem_nil, or_false,
        Write.artefact.injEq, ArtefactWrite.insertCredential.injEq, reduceCtorEq] at h h'
      rw [h, h']
  · obtain ⟨_, _, hrequest, -⟩ := event.request
    rcases writes_activationVerify env hrequest with hnothing | ⟨row, verified, -, -, hwrites⟩
    · simp [hnothing] at h
    · simp only [hwrites, activationVerifyWrites, List.mem_cons, List.not_mem_nil, or_false,
        Write.artefact.injEq, ArtefactWrite.insertCredential.injEq, reduceCtorEq] at h h'
      rw [h, h']

/-! ## Who is signed in -/

theorem authenticated_login {response : LoginResponse} {userId : String}
    (h : (Answer.login response).authenticated = some userId) :
    response.outcome = .AUTHENTICATED ∧ response.userId = some userId := by
  simpa [Answer.authenticated] using h

/-- Who an answer says is authenticated was admitted by a login, or completed a
step-up. -/
theorem authenticated {a : Answer} (hanswer : s.answer env = .ok a) {userId : String}
    (h : a.authenticated = some userId) :
    (∃ attempt user, Admitted env s.before.toDirectory attempt user ∧ user.userId = userId) ∨
      ∃ challenge, StepsUp env s challenge ∧ challenge.userId = userId := by
  have heffect := effect hanswer
  generalize hrequest : s.request = request at heffect
  generalize s.writes env = ws at heffect
  cases heffect with
  | silent _ hnone | edited hnone =>
      rw [hnone] at h
      cases h
  | login _ hlogin =>
      cases hlogin with
      | refused _ hresponse => rcases hresponse with rfl | ⟨_, rfl⟩ <;> cases h
      | denied => cases h
      | allowed _ hadmitted | challenged _ hadmitted | blocked _ hadmitted =>
          refine Or.inl ⟨_, _, hadmitted, ?_⟩
          exact Option.some.inj (authenticated_login h).2
  | steppedUp hstep hopen hfactor haccess =>
      rename_i challengeId challenge pre
      have hkey : challenge.challengeId = challengeId := Table.key_of_get hopen.found
      subst hkey
      rw [← hrequest] at hstep hfactor
      have event : StepsUp env s challenge :=
        ⟨⟨_, hanswer⟩, hstep, hopen, by simp [hfactor], haccess⟩
      refine Or.inr ⟨challenge, event, ?_⟩
      exact Option.some.inj (authenticated_login h).2
  | stepUpDenied => cases h
  | _ => cases h

end Served

end RbaIdp
