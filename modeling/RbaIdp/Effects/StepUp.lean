import RbaIdp.Effects.Login

/-!
# What the other sign-in requests write

Step-ups, the exchange of a callback code, and enrollment.  For every request
there is the condition under which it goes through, as a structure that names
what was checked, and the statements it then executes.
-/

namespace RbaIdp

open Relational Program

variable {env : Env} {d : Draws}

/-! ## Step-ups -/

/-- The challenge a request works on can still be used. -/
structure OpenChallenge (db : Artefacts) (now : Time) (challengeId : String)
    (challenge : MfaChallenge) : Prop where
  found : db.mfaChallenges.get challengeId = some challenge
  unconsumed : challenge.consumedAt = none
  unexpired : now < challenge.expiresAt

/-- The challenge a step-up completes. -/
def stepUpChallenge : Request → Option String
  | .verifyMfa body => some body.challengeId
  | .verifyWebauthn body => some body.challengeId
  | _ => none

/-- The redirect a step-up asks for. -/
def stepUpRedirect : Request → Option String
  | .verifyMfa body => body.redirectUri
  | .verifyWebauthn body => body.redirectUri
  | _ => none

variable (env) in
/-- The second factor of a step-up: what checking it writes, or nothing when it
fails. -/
def factor (db : Artefacts) (challenge : MfaChallenge) : Request → Option (List Write)
  | .verifyMfa body =>
      if env.settings.mockOtpEnabled && otpMatches body.code env.settings.mockOtpCode then some []
      else none
  | .verifyWebauthn body =>
      if challenge.webauthnMode = some .GET then
        (challenge.webauthnChallenge.filter fun nonce => !nonce.isEmpty).bind fun nonce =>
          (assertion env db challenge nonce body.credential).map fun verified =>
            [.artefact (.setSignCount verified.1.credentialId verified.2)]
      else none
  | _ => none

/-- Checking a factor writes at most the new counter of a passkey. -/
theorem factor_writes {env : Env} {db : Artefacts} {challenge : MfaChallenge} {request : Request}
    {pre : List Write} (h : factor env db challenge request = some pre) :
    pre = [] ∨
      ∃ credentialId signCount, pre = [.artefact (.setSignCount credentialId signCount)] := by
  cases request <;> simp only [factor, reduceCtorEq] at h
  · split at h
    · exact Or.inl (Option.some.inj h).symm
    · cases h
  · split at h
    · obtain ⟨nonce, -, hsome⟩ := Option.bind_eq_some_iff.mp h
      obtain ⟨verified, -, rfl⟩ := Option.map_eq_some_iff.mp hsome
      exact Or.inr ⟨_, _, rfl⟩
    · cases h

/-- The URI a completed step-up calls back. -/
def stepUpCallback (db : Directory) (challenge : MfaChallenge) (redirectUri : Option String) :
    Option String :=
  matchRedirectUri ((db.applications.get challenge.applicationId).bind Application.redirectUri)
    redirectUri

variable (env d) in
/-- What completing a step-up writes once the factor has passed. -/
def finishWrites (challenge : MfaChallenge) (target : Option String) : List Write :=
  .artefact (.consumeChallenge challenge.challengeId d.now) ::
    sessionWrites env d challenge.userId challenge.applicationId false target

variable (env d) in
/-- The answer to a completed step-up. -/
def finishResponse (challenge : MfaChallenge) (target : Option String) : LoginResponse :=
  challengeRisk challenge {
    outcome := .AUTHENTICATED
    userId := some challenge.userId
    session := some ⟨d.token, d.now + seconds env.settings.sessionTtlSeconds⟩
    redirectTo := target.map fun target => ⟨target, d.code⟩ }

/-- The answer to a step-up of a user who may no longer use the application. -/
def accessDenied (challenge : MfaChallenge) : LoginResponse :=
  challengeRisk challenge {
    outcome := .ACCESS_DENIED
    userId := some challenge.userId
    detail := some ACCESS_DENIED_DETAIL }

theorem wp_openChallenge {challengeId : String} {Q : MfaChallenge → World → Prop}
    {E : World → Prop} {t : World}
    (hok : ∀ challenge, OpenChallenge t.db.toArtefacts d.now challengeId challenge → Q challenge t)
    (herror : E t) : (openChallenge d challengeId).wp Q E t := by
  simp only [openChallenge, wp_bind, wp_read, wp_require, wp_raiseIf, wp_pure]
  refine ⟨fun _ => herror, fun challenge hfound => ⟨fun _ => herror, fun hopen => ?_⟩⟩
  rw [not_or] at hopen
  exact hok challenge ⟨hfound, by simpa using hopen.1, not_le.mp hopen.2⟩

theorem wp_finishChallenge {challenge : MfaChallenge} {redirectUri : Option String}
    {Q : LoginResponse → World → Prop} {E : World → Prop} {t : World}
    (hdone : hasApplicationAccess t.db.toDirectory challenge.userId challenge.applicationId = true →
      ∀ t' : World, t'.calls = t.calls → t'.db.applications = t.db.applications →
        t'.writes = t.writes ++
          finishWrites env d challenge (stepUpCallback t.db.toDirectory challenge redirectUri) →
        Q (finishResponse env d challenge (stepUpCallback t.db.toDirectory challenge redirectUri))
          t')
    (hdenied : Q (accessDenied challenge) t)
    (herror : ∀ t' : World, t'.calls = t.calls → E t') :
    (finishChallenge env d challenge redirectUri).wp Q E t := by
  simp only [finishChallenge]
  rw [wp_bind, wp_read, wp_ite]
  refine ⟨fun haccess => ?_, fun _ => hdenied⟩
  rw [wp_bind, wp_read, wp_bind, onArtefacts, wp_execute]
  refine ⟨fun _ => herror _ rfl, fun _ => ?_⟩
  refine wp_mint (fun t' hcalls hwrites happs _ _ => hdone haccess t' hcalls happs ?_)
    fun _ t' hcalls => herror t' hcalls
  rw [hwrites]
  simp [finishWrites, stepUpCallback]

/-- The confirmation a step-up sends when it is completed. -/
def confirmation (eventId tenantId : Option String) : List Call :=
  (eventId.bind fun eventId => tenantId.map fun tenantId => .confirm ⟨eventId, tenantId⟩).toList

/-- Nothing was written, and these calls were made. -/
structure Called (t : World) (calls : List Call) (t' : World) : Prop extends Unwritten t t' where
  calls : t'.calls = t.calls ++ calls

theorem wp_confirmStepUp {result : LoginResponse} {tenantId : Option String}
    {Q : Unit → World → Prop} {E : World → Prop} {t : World}
    (hok : ∀ t', Called t (if result.outcome = .AUTHENTICATED then
      confirmation result.eventId tenantId else []) t' → Q () t') :
    (confirmStepUp d result tenantId).wp Q E t := by
  have hsilent : ∀ calls : List Call, calls = [] → Called t calls t := by
    rintro _ rfl
    exact ⟨⟨rfl, rfl⟩, by simp⟩
  simp only [confirmStepUp, confirm, wp_when, wp_ifSome, wp_attempt, wp_bind, wp_call, wp_raiseIf]
  refine ⟨fun hdone => ?_, fun hnot => hok t (hsilent _ (if_neg hnot))⟩
  rw [if_pos hdone] at hok
  refine ⟨fun hnone => hok t (hsilent _ (by simp [confirmation, hnone])),
    fun eventId hevent => ⟨fun hnone => hok t (hsilent _ (by simp [confirmation, hnone])),
      fun tenant htenant => ?_⟩⟩
  -- whether the client raises or not
  have hconfirmed : Q () { t with calls := t.calls ++ [.confirm ⟨eventId, tenant⟩] } :=
    hok _ ⟨⟨rfl, rfl⟩, by simp [confirmation, hevent, htenant]⟩
  exact ⟨fun _ => hconfirmed, fun _ => hconfirmed⟩

/-- The confirmation of a challenge, sent for the tenant of its application. -/
def stepUpCalls (db : Directory) (challenge : MfaChallenge) : List Call :=
  confirmation challenge.eventId
    ((db.applications.get challenge.applicationId).map Application.tenantId)

/-- Nothing was written, and nobody was called. -/
structure Silent (t t' : World) : Prop where
  calls : t'.calls = t.calls
  writes : t'.writes = t.writes

variable (env d) in
/-- How a step-up ends: completed, denied when the user may no longer use the application,
or by a factor that does not pass. -/
inductive StepUpEnds (t : World) (request : Request) : LoginResponse → World → Prop
  | completed {challengeId : String} {challenge : MfaChallenge} {pre : List Write} {t' : World}
      (hchallenge : stepUpChallenge request = some challengeId)
      (hopen : OpenChallenge t.db.toArtefacts d.now challengeId challenge)
      (hfactor : factor env t.db.toArtefacts challenge request = some pre)
      (haccess :
        hasApplicationAccess t.db.toDirectory challenge.userId challenge.applicationId = true)
      (hcalls : t'.calls = t.calls ++ stepUpCalls t.db.toDirectory challenge)
      (hwrites : t'.writes = t.writes ++ (pre ++ finishWrites env d challenge
        (stepUpCallback t.db.toDirectory challenge (stepUpRedirect request)))) :
      StepUpEnds t request (finishResponse env d challenge
        (stepUpCallback t.db.toDirectory challenge (stepUpRedirect request))) t'
  | denied {challengeId : String} {challenge : MfaChallenge} {pre : List Write} {t' : World}
      (hchallenge : stepUpChallenge request = some challengeId)
      (hopen : OpenChallenge t.db.toArtefacts d.now challengeId challenge)
      (hfactor : factor env t.db.toArtefacts challenge request = some pre)
      (hcalls : t'.calls = t.calls) (hwrites : t'.writes = t.writes ++ pre) :
      StepUpEnds t request (accessDenied challenge) t'
  | wrong {t' : World} (hsilent : Silent t t') :
      StepUpEnds t request { outcome := .INVALID_CREDENTIALS } t'

theorem wp_verifyMfa {body : MfaVerifyRequest} {t : World} :
    (verifyMfa env d body).wp (StepUpEnds env d t (.verifyMfa body)) (Silent t) t := by
  simp only [verifyMfa, wp_bind, wp_raiseIf, wp_transaction]
  refine ⟨fun _ => ⟨rfl, rfl⟩, fun henabled => ?_⟩
  refine wp_openChallenge (fun challenge hopen => ?_) ⟨rfl, rfl⟩
  rw [wp_ite]
  refine ⟨fun hmatches => ?_, fun _ => ?_⟩
  · have hfactor : factor env t.db.toArtefacts challenge (.verifyMfa body) = some [] := by
      simp only [Bool.not_eq_false] at henabled
      simp [factor, henabled, hmatches]
    rw [wp_bind]
    refine wp_finishChallenge (fun haccess t' hcalls happs hwrites => ?_) ?_
      fun _ hcalls => ⟨hcalls, rfl⟩
    · simp only [challengeTenant, wp_bind, wp_read, wp_pure]
      refine wp_confirmStepUp fun t'' hcalled => .completed rfl hopen hfactor haccess ?_ ?_
      · rw [hcalled.calls, hcalls, happs]
        rfl
      · rw [hcalled.writes, hwrites]
        rfl
    · simp only [challengeTenant, wp_bind, wp_read, wp_pure]
      refine wp_confirmStepUp fun t'' hcalled => .denied rfl hopen hfactor ?_ ?_
      · rw [hcalled.calls]
        simp [accessDenied, challengeRisk]
      · simp [hcalled.writes]
  · rw [wp_pure]
    refine wp_confirmStepUp fun t' hcalled => .wrong ⟨?_, hcalled.writes⟩
    simp [hcalled.calls]

theorem wp_verifyWebauthn {body : MfaWebAuthnVerifyRequest} {t : World} :
    (verifyWebauthn env d body).wp (StepUpEnds env d t (.verifyWebauthn body)) (Silent t) t := by
  simp only [verifyWebauthn, wp_bind, wp_transaction]
  refine wp_openChallenge (fun challenge hopen => ?_) ⟨rfl, rfl⟩
  simp only [wp_require, wp_raiseIf, wp_read]
  refine ⟨fun _ => ⟨rfl, rfl⟩, fun nonce hnonce =>
    ⟨fun _ => ⟨rfl, rfl⟩, fun hmode => ?_⟩⟩
  cases hverified : assertion env t.db.toArtefacts challenge nonce body.credential with
  | none =>
      rw [wp_pure]
      refine wp_confirmStepUp fun t' hcalled => .wrong ⟨?_, hcalled.writes⟩
      simp [hcalled.calls]
  | some verified =>
      have hfactor : factor env t.db.toArtefacts challenge (.verifyWebauthn body) =
          some [.artefact (.setSignCount verified.1.credentialId verified.2)] := by
        simp only [not_not] at hmode
        simp only [factor, hmode, if_true, hnonce, Option.bind_some, hverified, Option.map_some]
      simp only [onArtefacts, wp_bind, wp_execute]
      refine ⟨fun _ => ⟨rfl, rfl⟩, fun _ => ?_⟩
      refine wp_finishChallenge (fun haccess t' hcalls happs hwrites => ?_) ?_
        fun _ hcalls => ⟨hcalls, rfl⟩
      · simp only [challengeTenant, wp_read, wp_pure]
        refine wp_confirmStepUp fun t'' hcalled => .completed rfl hopen hfactor haccess ?_ ?_
        · rw [hcalled.calls, hcalls, happs]
          rfl
        · rw [hcalled.writes, hwrites]
          simp [stepUpCallback, stepUpRedirect]
      · simp only [challengeTenant, wp_read, wp_pure]
        refine wp_confirmStepUp fun t'' hcalled => .denied rfl hopen hfactor ?_ ?_
        · rw [hcalled.calls]
          simp [accessDenied, challengeRisk]
        · simp [hcalled.writes]

theorem wp_webauthnOptions {body : MfaWebAuthnOptionsRequest}
    {Q : MfaWebAuthnOptionsResponse → World → Prop} {E : World → Prop} {t : World}
    (hok : ∀ challenge response t',
      OpenChallenge t.db.toArtefacts d.now body.challengeId challenge →
      t.db.hasPasskey challenge.userId = true →
      t'.writes = t.writes ++ [.artefact (.setChallengeNonce challenge.challengeId d.nonce .GET)] →
      Q response t')
    (herror : ∀ t' : World, t'.writes = t.writes → E t') :
    (webauthnOptions d body).wp Q E t := by
  simp only [webauthnOptions, wp_bind, wp_transaction]
  refine wp_openChallenge (fun challenge hopen => ?_) (herror _ rfl)
  simp only [onArtefacts, wp_read, wp_raiseIf, wp_execute, wp_pure]
  refine ⟨fun _ => herror _ rfl, fun hsome => ⟨fun _ => herror _ rfl, fun _ => ?_⟩⟩
  refine hok challenge _ _ hopen ?_ rfl
  rw [List.map_eq_nil_iff] at hsome
  obtain ⟨credential, hcredential⟩ := List.exists_mem_of_ne_nil _ hsome
  rw [Table.mem_select, beq_iff_eq] at hcredential
  exact Artefacts.hasPasskey_eq_true.mpr ⟨credential, hcredential⟩

end RbaIdp
