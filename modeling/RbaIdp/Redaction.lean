import RbaIdp.Effects.Standing
import RbaIdp.Web

/-!
# What the browser learns of the score

Two replies of the risk engine that agree on what is enforced, and on the one
reason a browser may see, may differ in everything else.  The difference ends up
in the answer to the login, where it is redacted, and in the challenge row, which
a step-up reads minutes later.  `Redacted` relates two states that differ only
there; every request keeps it and answers alike in public, and so do all requests
of a browser, however many (`visits_alike`).
-/

namespace RbaIdp

open Relational Program

variable {env : Env} {d : Draws}

/-! ## What may differ -/

/-- Two replies a browser must not tell apart. -/
structure RepliesAlike (r r' : RiskEvaluateResponse) : Prop where
  enforcedAction : r.enforcedAction = r'.enforcedAction
  allow : r.action = .ALLOW ↔ r'.action = .ALLOW
  fallback : r.fallback = r'.fallback
  eventId : r.eventId = r'.eventId
  reasons : publicReasons r.reasons = publicReasons r'.reasons

theorem RepliesAlike.refl (r : RiskEvaluateResponse) : RepliesAlike r r :=
  ⟨rfl, Iff.rfl, rfl, rfl, rfl⟩

/-- The same draws, tokens and ids included, with such replies. -/
def DrawsAlike (d d' : Draws) : Prop :=
  ∃ pdp, Option.Rel RepliesAlike d.pdp pdp ∧ d' = { d with pdp := pdp }

/-- Two challenges opened by decisions that may differ. -/
def MfaChallenge.Alike (c c' : MfaChallenge) : Prop :=
  ∃ riskScore riskLevel reasons, publicReasons c.reasons = publicReasons reasons ∧
    c' = { c with
      riskScore := riskScore
      riskLevel := riskLevel
      reasons := reasons }

/-- Tables of challenges that may differ in the decisions. -/
def TablesAlike (challenges challenges' : Table MfaChallenge MfaChallenge.challengeId) : Prop :=
  ∀ challengeId, Option.Rel MfaChallenge.Alike (challenges.get challengeId)
    (challenges'.get challengeId)

/-- Two databases that differ in what their challenges keep of the decision. -/
def Redacted (db db' : Db) : Prop :=
  ∃ challenges, TablesAlike db.mfaChallenges challenges ∧
    db' = { db with mfaChallenges := challenges }

/-- Two answers that look alike once they are redacted. -/
def PublicAlike (response response' : LoginResponse) : Prop :=
  publicResponse response = publicResponse response'

theorem Redacted.refl (db : Db) : Redacted db db := by
  refine ⟨db.mfaChallenges, fun challengeId => ?_, rfl⟩
  cases db.mfaChallenges.get challengeId with
  | none => exact .none
  | some c => exact .some ⟨_, _, _, rfl, rfl⟩

/-- What is read elsewhere than in the challenges is the same. -/
theorem Redacted.read {α : Type} {f : Db → α} {db db' : Db} (h : Redacted db db')
    (hf : ∀ challenges, f db = f { db with mfaChallenges := challenges }) : f db = f db' := by
  obtain ⟨challenges, -, rfl⟩ := h
  exact hf challenges

/-! ## Statements -/

variable {challenges challenges' : Table MfaChallenge MfaChallenge.challengeId}

/-- A challenge is in both tables or in neither. -/
theorem TablesAlike.get (h : TablesAlike challenges challenges') (challengeId : String) :
    (challenges.get challengeId = none ∧ challenges'.get challengeId = none) ∨
      ∃ c c', challenges.get challengeId = some c ∧ challenges'.get challengeId = some c' ∧
        c.Alike c' := by
  have hrel := h challengeId
  generalize challenges.get challengeId = found at hrel ⊢
  generalize challenges'.get challengeId = found' at hrel ⊢
  cases hrel with
  | none => exact Or.inl ⟨rfl, rfl⟩
  | some halike => exact Or.inr ⟨_, _, rfl, rfl, halike⟩

theorem TablesAlike.insert (h : TablesAlike challenges challenges') {row row' : MfaChallenge}
    (hrow : row.Alike row') : TablesAlike (challenges.insert row) (challenges'.insert row') := by
  intro challengeId
  have hkey : row'.challengeId = row.challengeId := by
    obtain ⟨_, _, _, -, rfl⟩ := hrow
    rfl
  rw [Table.get_insert, Table.get_insert, hkey]
  obtain ⟨hnone, hnone'⟩ | ⟨c, c', hc, hc', halike⟩ := h.get challengeId
  · rw [hnone, hnone', Option.none_or, Option.none_or]
    by_cases hnew : row.challengeId = challengeId
    · rw [if_pos hnew, if_pos hnew]
      exact .some hrow
    · rw [if_neg hnew, if_neg hnew]
      exact .none
  · rw [hc, hc', Option.some_or, Option.some_or]
    exact .some halike

/-- An update that does not look at what may differ. -/
theorem TablesAlike.modify (h : TablesAlike challenges challenges') {updated : String}
    {f : MfaChallenge → MfaChallenge} {hf : ∀ r, (f r).challengeId = r.challengeId}
    (hkeep : ∀ c c', c.Alike c' → (f c).Alike (f c')) :
    TablesAlike (challenges.modify (fun r => r.challengeId == updated) f hf)
      (challenges'.modify (fun r => r.challengeId == updated) f hf) := by
  intro challengeId
  rw [Table.get_modify, Table.get_modify]
  obtain ⟨hnone, hnone'⟩ | ⟨c, c', hc, hc', halike⟩ := h.get challengeId
  · rw [hnone, hnone']
    exact .none
  · rw [hc, hc', Option.map_some, Option.map_some, Table.key_of_get hc, Table.key_of_get hc']
    refine .some ?_
    split
    · exact hkeep _ _ halike
    · exact halike

/-- A challenge is inserted on both sides, for decisions that may differ. -/
theorem redacted_insertChallenge {row row' : MfaChallenge} (hrow : row.Alike row') {db db' : Db}
    (h : Redacted db db') :
    Statement.violates (Write.artefact (.insertChallenge row)) db =
        Statement.violates (Write.artefact (.insertChallenge row')) db' ∧
      Redacted (Statement.effect (Write.artefact (.insertChallenge row)) db)
        (Statement.effect (Write.artefact (.insertChallenge row')) db') := by
  obtain ⟨challenges, halike, rfl⟩ := h
  refine ⟨?_, challenges.insert row', halike.insert hrow, rfl⟩
  obtain ⟨_, _, _, -, rfl⟩ := hrow
  simp only [violates_artefact, ArtefactWrite.violates]
  obtain ⟨hnone, hnone'⟩ | ⟨c, c', hc, hc', -⟩ := halike.get row.challengeId
  · rw [hnone, hnone']
  · rw [hc, hc']
    rfl

/-- An update of a challenge finds its row on both sides. -/
theorem redacted_update {db : Db} (h : TablesAlike db.mfaChallenges challenges)
    (challengeId : String) :
    (db.mfaChallenges.get challengeId).isNone = (challenges.get challengeId).isNone := by
  obtain ⟨hnone, hnone'⟩ | ⟨c, c', hc, hc', -⟩ := h.get challengeId
  · rw [hnone, hnone']
  · rw [hc, hc']
    rfl

theorem MfaChallenge.Alike.refl (c : MfaChallenge) : c.Alike c := ⟨_, _, _, rfl, rfl⟩

/-- Every statement is accepted, or refused, on both sides. -/
theorem redacted_statement (w : Write) (db db' : Db) (h : Redacted db db') :
    Statement.violates w db = Statement.violates w db' ∧
      Redacted (Statement.effect w db) (Statement.effect w db') := by
  have hredacted := h
  obtain ⟨challenges, halike, rfl⟩ := h
  cases w with
  | directory w => exact ⟨rfl, challenges, halike, rfl⟩
  | artefact w =>
      cases w with
      | insertChallenge row => exact redacted_insertChallenge (.refl row) hredacted
      | consumeChallenge challengeId now =>
          refine ⟨redacted_update halike challengeId, _, halike.modify ?_, rfl⟩
          rintro c _ ⟨riskScore, riskLevel, reasons, hreasons, rfl⟩
          exact ⟨riskScore, riskLevel, reasons, hreasons, rfl⟩
      | setChallengeNonce challengeId nonce mode =>
          refine ⟨redacted_update halike challengeId, _, halike.modify ?_, rfl⟩
          rintro c _ ⟨riskScore, riskLevel, reasons, hreasons, rfl⟩
          exact ⟨riskScore, riskLevel, reasons, hreasons, rfl⟩
      | _ => exact ⟨rfl, challenges, halike, rfl⟩

/-! ## Requests that answer no login -/

theorem keeps_redacted_read {α : Type} {f : Db → α}
    (hf : ∀ db challenges, f db = f { db with mfaChallenges := challenges }) :
    Keeps Redacted (Program.read f : App α) :=
  keeps_read fun db _ h => h.read (hf db)

theorem keeps_redacted_execute (w : Write) :
    Keeps Redacted (Program.execute w : App Unit) :=
  keeps_execute (redacted_statement w)

theorem standing_redacted : Standing Redacted where
  read hf _ _ h := h.read (hf _)
  execute w _ := redacted_statement w

theorem keeps_serve {request : Request} (hopens : request.opens = false)
    (hoptions : ∀ body, request ≠ .webauthnOptions body) :
    Keeps Redacted (serve env d request) := by
  cases request with
  | login | consoleLogin | verifyMfa | verifyWebauthn => cases hopens
  | webauthnOptions body => exact absurd rfl (hoptions body)
  | admin op call => exact standing_redacted.serveAdmin
  | _ =>
      simp only [serve, answer, exchangeCode, getSession, loadSession, logout, sessionOptions,
        sessionVerify, enrollingSession, activationOptions, activationVerify, storeCredential,
        verifyPassword, onArtefacts]
      repeat' with_reducible first
        | exact keeps_pure
        | exact keeps_raise
        | exact keeps_require
        | exact keeps_raiseIf
        | exact keeps_call
        | exact keeps_redacted_execute _
        | refine keeps_transaction ?_
        | refine keeps_bind ?_ fun _ => ?_
        | refine keeps_ifSome fun _ => ?_
        | split
        | exact keeps_redacted_read fun _ _ => rfl

/-! ## Step-ups -/

theorem relates_openChallenge {challengeId : String} :
    Relates Redacted (openChallenge d challengeId) (openChallenge d challengeId)
      MfaChallenge.Alike := by
  simp only [openChallenge]
  refine relates_bind (W := Option.Rel MfaChallenge.Alike) (relates_read ?_) fun c c' hrel => ?_
  · rintro db _ ⟨challenges, halike, rfl⟩
    exact halike challengeId
  refine relates_bind (relates_require hrel) fun c c' halike => ?_
  obtain ⟨riskScore, riskLevel, reasons, hreasons, rfl⟩ := halike
  exact relates_bind (W := Eq) keeps_raiseIf fun _ _ _ =>
    relates_pure ⟨riskScore, riskLevel, reasons, hreasons, rfl⟩

/-- A challenge is redacted in an answer like the decision it was opened for. -/
theorem publicAlike_challengeRisk {c c' : MfaChallenge} (h : c.Alike c')
    (response : LoginResponse) :
    PublicAlike (challengeRisk c response) (challengeRisk c' response) := by
  obtain ⟨riskScore, riskLevel, reasons, hreasons, rfl⟩ := h
  simp [PublicAlike, publicResponse, challengeRisk, hreasons]

theorem keeps_persistSession {userId applicationId : String} {mayEnroll : Bool} :
    Keeps Redacted (persistSession env d userId applicationId mayEnroll) := by
  simp only [persistSession, onDirectory, onArtefacts]
  refine keeps_bind (keeps_redacted_read fun _ _ => rfl) fun user => ?_
  refine keeps_bind (keeps_ifSome fun _ => keeps_redacted_execute _) fun _ => ?_
  exact keeps_bind (keeps_redacted_execute _) fun _ => keeps_pure

theorem keeps_persistCallback {userId applicationId sessionHash : String}
    {requested registered : Option String} :
    Keeps Redacted
      (persistCallback env d userId applicationId sessionHash requested registered) := by
  unfold persistCallback
  split
  · exact keeps_pure
  · exact keeps_bind (keeps_redacted_execute _) fun _ => keeps_bind keeps_raiseIf fun _ =>
      keeps_pure

theorem relates_finishChallenge {c c' : MfaChallenge} (h : c.Alike c')
    (redirectUri : Option String) :
    Relates Redacted (finishChallenge env d c redirectUri) (finishChallenge env d c' redirectUri)
      PublicAlike := by
  have hrisk := publicAlike_challengeRisk h
  obtain ⟨riskScore, riskLevel, reasons, hreasons, rfl⟩ := h
  simp only [finishChallenge, onArtefacts]
  refine relates_bind (W := Eq) (keeps_redacted_read fun _ _ => rfl) ?_
  rintro access _ rfl
  split
  · refine relates_bind (W := Eq) (keeps_redacted_read fun _ _ => rfl) ?_
    rintro app _ rfl
    refine relates_bind (W := Eq) (keeps_redacted_execute _) fun _ _ _ => ?_
    refine relates_bind (W := Eq) keeps_persistSession ?_
    rintro token _ rfl
    refine relates_bind (W := Eq) keeps_persistCallback ?_
    rintro redirectTo _ rfl
    exact relates_pure (hrisk _)
  · exact relates_pure (hrisk _)

/-- What a step-up's transaction gives: an answer, and a tenant to confirm it for. -/
def ResultAlike (result result' : LoginResponse × Option String) : Prop :=
  PublicAlike result.1 result'.1 ∧ result.2 = result'.2

theorem ResultAlike.refl (result : LoginResponse × Option String) : ResultAlike result result :=
  ⟨rfl, rfl⟩

variable (env d) in
theorem relates_finish {c c' : MfaChallenge} (h : c.Alike c') (redirectUri : Option String) :
    Relates Redacted
      (do
        let result ← finishChallenge env d c redirectUri
        let tenantId ← challengeTenant c
        pure (result, tenantId))
      (do
        let result ← finishChallenge env d c' redirectUri
        let tenantId ← challengeTenant c'
        pure (result, tenantId)) ResultAlike := by
  refine relates_bind (relates_finishChallenge h redirectUri) fun result result' halike => ?_
  have htenant : challengeTenant c' = challengeTenant c := by
    obtain ⟨riskScore, riskLevel, reasons, -, rfl⟩ := h
    rfl
  rw [htenant, challengeTenant]
  refine relates_bind (W := Eq) (keeps_redacted_read fun _ _ => rfl) ?_
  rintro tenantId _ rfl
  exact relates_pure ⟨halike, rfl⟩

/-- What is confirmed of an answer is in its public part. -/
theorem PublicAlike.confirmed {response response' : LoginResponse}
    (h : PublicAlike response response') :
    response.outcome = response'.outcome ∧ response.eventId = response'.eventId := by
  have houtcome := congrArg LoginResponse.outcome h
  have hevent := congrArg LoginResponse.eventId h
  exact ⟨houtcome, hevent⟩

theorem relates_confirmed {m : App (LoginResponse × Option String)}
    (h : Relates Redacted m m ResultAlike) :
    Relates Redacted
      (do
        let (result, tenantId) ← m
        confirmStepUp d result tenantId
        pure result)
      (do
        let (result, tenantId) ← m
        confirmStepUp d result tenantId
        pure result) PublicAlike := by
  refine relates_bind h ?_
  rintro ⟨result, tenantId⟩ ⟨result', _⟩ ⟨halike, rfl⟩
  obtain ⟨houtcome, hevent⟩ : result.outcome = result'.outcome ∧
      result.eventId = result'.eventId := halike.confirmed
  have hsame : confirmStepUp d result' tenantId = confirmStepUp d result tenantId := by
    simp only [confirmStepUp, houtcome, hevent]
  simp only [hsame]
  refine relates_bind (W := Eq) ?_ fun _ _ _ => relates_pure halike
  refine keeps_when (keeps_ifSome fun _ => keeps_ifSome fun _ => keeps_attempt ?_)
  exact keeps_bind keeps_call fun _ => keeps_raiseIf

theorem relates_verifyMfa (body : MfaVerifyRequest) :
    Relates Redacted (verifyMfa env d body) (verifyMfa env d body) PublicAlike := by
  refine relates_bind (W := Eq) keeps_raiseIf fun _ _ _ => relates_confirmed ?_
  refine relates_transaction (relates_bind relates_openChallenge fun c c' halike => ?_)
  split
  · exact relates_finish env d halike body.redirectUri
  · exact relates_pure (.refl _)

theorem relates_verifyWebauthn (body : MfaWebAuthnVerifyRequest) :
    Relates Redacted (verifyWebauthn env d body) (verifyWebauthn env d body) PublicAlike := by
  refine relates_confirmed (relates_transaction ?_)
  refine relates_bind relates_openChallenge fun c c' halike => ?_
  have hfinish := relates_finish env d halike body.redirectUri
  obtain ⟨riskScore, riskLevel, reasons, hreasons, rfl⟩ := halike
  refine relates_bind (W := Eq) keeps_require ?_
  rintro nonce _ rfl
  refine relates_bind (W := Eq) keeps_raiseIf fun _ _ _ => ?_
  refine relates_bind (W := Eq) (keeps_redacted_read fun _ _ => rfl) ?_
  rintro verified _ rfl
  cases verified with
  | none => exact relates_pure (.refl _)
  | some verified =>
      exact relates_bind (W := Eq) (keeps_redacted_execute _) fun _ _ _ => hfinish

theorem keeps_webauthnOptions (body : MfaWebAuthnOptionsRequest) :
    Keeps Redacted (webauthnOptions d body) := by
  refine relates_transaction (relates_bind relates_openChallenge ?_)
  rintro c _ ⟨riskScore, riskLevel, reasons, hreasons, rfl⟩
  refine relates_bind (W := Eq) (keeps_redacted_read fun _ _ => rfl) ?_
  rintro credIds _ rfl
  refine relates_bind (W := Eq) keeps_raiseIf fun _ _ _ => ?_
  exact relates_bind (W := Eq) (keeps_redacted_execute _) fun _ _ _ => relates_pure rfl

/-! ## Logins -/

/-- A decision the engine made, or none because it is off. -/
def DecisionsAlike (decision decision' : Option RiskEvaluateResponse) : Prop :=
  Option.Rel RepliesAlike decision decision'

theorem RepliesAlike.beq_allow {r r' : RiskEvaluateResponse} (h : RepliesAlike r r') :
    (r.action == .ALLOW) = (r'.action == .ALLOW) := by
  rw [Bool.eq_iff_iff, beq_iff_eq, beq_iff_eq]
  exact h.allow

theorem DecisionsAlike.judgedUsual {decision decision' : Option RiskEvaluateResponse}
    (h : DecisionsAlike decision decision') : judgedUsual decision = judgedUsual decision' := by
  cases h with
  | none => rfl
  | some h => simp only [RbaIdp.judgedUsual, h.fallback, h.beq_allow]

theorem relates_createChallenge {decision decision' : Option RiskEvaluateResponse}
    (h : DecisionsAlike decision decision') {userId applicationId : String} {action : Action}
    {deniedReason : Option String} :
    Relates Redacted (createChallenge env d userId applicationId action decision deniedReason)
      (createChallenge env d userId applicationId action decision' deniedReason) Eq := by
  have hrow : (challengeRow env d userId applicationId action decision deniedReason).Alike
      (challengeRow env d userId applicationId action decision' deniedReason) := by
    cases h with
    | none => exact .refl _
    | @some r r' h =>
        exact ⟨some r'.riskScore, some r'.riskLevel, r'.reasons, h.reasons, by
          simp [challengeRow, h.eventId]⟩
  refine relates_bind (W := Eq) (relates_transaction (relates_execute rfl fun db db' hdb => ?_))
    fun _ _ _ => relates_pure rfl
  exact redacted_insertChallenge hrow hdb

theorem keeps_hasPasskey {userId : String} : Keeps Redacted (hasPasskey userId) :=
  keeps_transaction (keeps_redacted_read fun _ _ => rfl)

/-- Decisions that may differ are carried out alike. -/
theorem relates_enforce {decision decision' : Option RiskEvaluateResponse}
    (h : DecisionsAlike decision decision') (userId : String) (attempt : Attempt)
    {action action' : Action} (haction : action = action') :
    Relates Redacted (enforce env d userId attempt action decision)
      (enforce env d userId attempt action' decision') PublicAlike := by
  subst haction
  have hsecondFactor : Keeps Redacted (hasSecondFactor env userId) := by
    unfold hasSecondFactor
    split
    · exact keeps_pure
    · exact keeps_hasPasskey
  have hasks : ∀ step : Action, step = .REQUIRE_MFA ∨ step = .REAUTHENTICATE →
      Relates Redacted (enforce env d userId attempt step decision)
        (enforce env d userId attempt step decision') PublicAlike := by
    rintro step (rfl | rfl) <;>
    · simp only [enforce]
      refine relates_bind (W := Eq) hsecondFactor ?_
      rintro secondFactor _ rfl
      cases secondFactor with
      | true =>
          refine relates_bind (W := Eq) (relates_createChallenge h) ?_
          rintro challengeId _ rfl
          refine relates_pure ?_
          cases h with
          | none => rfl
          | some h =>
              simp [PublicAlike, publicResponse, enforcedResponse, h.eventId, h.reasons,
                h.fallback, bne, h.beq_allow]
      | false =>
          refine relates_bind (W := Eq) (relates_createChallenge h) fun _ _ _ => relates_pure ?_
          cases h with
          | none => rfl
          | some h => simp [PublicAlike, publicResponse, h.eventId]
  cases action with
  | ALLOW =>
      simp only [enforce, passkeyOffer, ← h.judgedUsual]
      refine relates_bind (W := Eq) ?_ ?_
      · split
        · exact keeps_bind keeps_hasPasskey fun _ => keeps_pure
        · exact keeps_pure
      · rintro offer _ rfl
        refine relates_bind (W := Eq) (keeps_transaction ?_) ?_
        · exact keeps_bind keeps_persistSession fun _ =>
            keeps_bind keeps_persistCallback fun _ => keeps_pure
        · rintro ⟨token, redirectTo⟩ _ rfl
          refine relates_pure ?_
          cases h with
          | none => rfl
          | some h => simp [PublicAlike, publicResponse, enforcedResponse, h.eventId, h.reasons]
  | REQUIRE_MFA => exact hasks _ (Or.inl rfl)
  | REAUTHENTICATE => exact hasks _ (Or.inr rfl)
  | BLOCK =>
      refine relates_pure ?_
      cases h with
      | none => rfl
      | some h => simp [PublicAlike, publicResponse, enforcedResponse, h.eventId, h.reasons]

/-- Where the reply of the risk engine goes: nowhere but into the decision. -/
theorem enforce_withReply {pdp : Option RiskEvaluateResponse} (userId : String)
    (attempt : Attempt) (action : Action) (decision : Option RiskEvaluateResponse) :
    enforce env { d with pdp := pdp } userId attempt action decision =
      enforce env d userId attempt action decision := by
  cases action <;> rfl

theorem keeps_checkCredentials {attempt : Attempt} :
    Keeps Redacted (checkCredentials env attempt) := by
  simp only [checkCredentials, verifyPassword]
  repeat' with_reducible first
    | exact keeps_pure
    | exact keeps_call
    | refine keeps_transaction ?_
    | refine keeps_bind ?_ fun _ => ?_
    | split
    | exact keeps_redacted_read fun _ _ => rfl

/-- Without a reply both runs degrade alike. -/
theorem RepliesAlike.getD {reply reply' : Option RiskEvaluateResponse}
    (h : Option.Rel RepliesAlike reply reply') (degraded : RiskEvaluateResponse) :
    RepliesAlike (reply.getD degraded) (reply'.getD degraded) := by
  cases h with
  | none => exact .refl degraded
  | some h => exact h

theorem relates_authenticate {d' : Draws} (hdraws : DrawsAlike d d') (attempt : Attempt) :
    Relates Redacted (authenticate env d attempt) (authenticate env d' attempt) PublicAlike := by
  obtain ⟨pdp, hreply, rfl⟩ := hdraws
  simp only [authenticate, enforce_withReply]
  refine relates_bind (W := Eq) keeps_checkCredentials ?_
  rintro checked _ rfl
  cases checked with
  | answered response => exact relates_pure rfl
  | wrongPassword userId =>
      refine relates_bind (W := Eq) (relates_when ?_ rfl) fun _ _ _ => relates_pure rfl
      exact relates_when (relates_call rfl) rfl
  | passed userId alwaysPasskey =>
      cases d.policy.filter fun policy => policy.engineMode == .OFF with
      | some policy => exact relates_enforce .none userId attempt rfl
      | none =>
          refine relates_bind (W := Eq) (relates_call rfl) fun _ _ _ => ?_
          have hdecision := RepliesAlike.getD hreply
            (degradedDecision env d ((d.policy.map TenantPolicy.engineMode).getD .ACTIVE))
          exact relates_enforce (.some hdecision) userId attempt
            (congrArg (fun action => floor action alwaysPasskey) hdecision.enforcedAction)

theorem relates_login {d' : Draws} (hdraws : DrawsAlike d d') (body : LoginRequest)
    (deviceCookie : Option String) :
    Relates Redacted (login env d body deviceCookie) (login env d' body deviceCookie)
      PublicAlike := by
  refine relates_bind (W := Eq) (keeps_transaction ?_) ?_
  · exact keeps_bind (keeps_redacted_read fun _ _ => rfl) fun _ => keeps_require
  · rintro app _ rfl
    exact relates_authenticate hdraws _

theorem relates_consoleLogin {d' : Draws} (hdraws : DrawsAlike d d') (body : ConsoleLoginRequest)
    (deviceCookie : Option String) :
    Relates Redacted (consoleLogin env d body deviceCookie) (consoleLogin env d' body deviceCookie)
      PublicAlike := by
  refine relates_bind (W := Eq) (keeps_transaction ?_) ?_
  · exact keeps_bind (keeps_redacted_read fun _ _ => rfl) fun _ =>
      keeps_bind (keeps_redacted_read fun _ _ => rfl) fun _ => keeps_pure
  · rintro found _ rfl
    split
    · exact relates_authenticate hdraws _
    · exact relates_bind (W := Eq) (keeps_bind keeps_call fun _ => keeps_pure)
        fun _ _ _ => relates_pure rfl

/-! ## A browser's requests -/

/-- What a browser can send: a login or a step-up, whose answer is redacted, or
another request. -/
inductive Visit where
  | login (http : HttpRequest) (body : WebLogin)
  | mfaVerify (body : MfaVerifyRequest)
  | mfaWebauthnVerify (body : MfaWebAuthnVerifyRequest)
  | other (request : Request) (h : request.opens = false)

variable (env d) in
def Visit.serve : Visit → App Answer
  | login http body => answer (body.post env d http) .login
  | mfaVerify body => answer (postMfaVerify env d body) .login
  | mfaWebauthnVerify body => answer (postMfaWebauthnVerify env d body) .login
  | other request _ => RbaIdp.serve env d request

/-- An answer to a login, redacted. -/
theorem relates_public {m m' : App LoginResponse} (h : Relates Redacted m m' PublicAlike) :
    Relates Redacted (m >>= fun result => (pure (publicResponse result) : App LoginResponse))
      (m' >>= fun result => pure (publicResponse result)) Eq :=
  relates_bind h fun _ _ halike => relates_pure halike

theorem relates_answer {m m' : App LoginResponse} (h : Relates Redacted m m' Eq)
    (f : LoginResponse → Answer) : Relates Redacted (answer m f) (answer m' f) Eq :=
  relates_bind h fun _ _ hsame => relates_pure (congrArg f hsame)

theorem keeps_observed {http : HttpRequest} {signals : ClientSignals} {ticket : Option String} :
    Keeps Redacted (observed env http signals ticket) := by
  unfold observed verifyTicket
  split
  · exact keeps_pure
  · exact keeps_bind keeps_require fun _ => keeps_pure

theorem keeps_resolveClient {body : LoginBody} : Keeps Redacted (resolveClient body) := by
  unfold resolveClient
  split
  · exact keeps_pure
  · exact keeps_bind (keeps_transaction (keeps_redacted_read fun _ _ => rfl)) fun _ => keeps_pure

/-- A reply of the risk engine matters to logins only. -/
theorem serve_withReply {pdp : Option RiskEvaluateResponse} {request : Request}
    (h : request.opens = false) :
    serve env { d with pdp := pdp } request = serve env d request := by
  cases request with
  | login | consoleLogin | verifyMfa | verifyWebauthn => cases h
  | _ => rfl

variable (env) in
/-- Whatever is sent is answered alike. -/
theorem relates_visit {d' : Draws} (hdraws : DrawsAlike d d') (visit : Visit) :
    Relates Redacted (visit.serve env d) (visit.serve env d') Eq := by
  cases visit with
  | login http body =>
      refine relates_answer ?_ _
      cases body with
      | app body =>
          refine relates_bind (W := Eq) keeps_resolveClient ?_
          rintro resolved _ rfl
          refine relates_bind (W := Eq) keeps_observed ?_
          rintro signals _ rfl
          exact relates_public (relates_login hdraws _ _)
      | console body =>
          refine relates_bind (W := Eq) keeps_observed ?_
          rintro signals _ rfl
          exact relates_public (relates_consoleLogin hdraws _ _)
  | mfaVerify body =>
      obtain ⟨pdp, -, rfl⟩ := hdraws
      exact relates_answer (relates_public (relates_verifyMfa body)) _
  | mfaWebauthnVerify body =>
      obtain ⟨pdp, -, rfl⟩ := hdraws
      exact relates_answer (relates_public (relates_verifyWebauthn body)) _
  | other request hopens =>
      obtain ⟨pdp, -, rfl⟩ := hdraws
      simp only [Visit.serve, serve_withReply hopens]
      by_cases hoptions : ∃ body, request = .webauthnOptions body
      · obtain ⟨body, rfl⟩ := hoptions
        exact keeps_bind (keeps_webauthnOptions body) fun _ => keeps_pure
      · exact keeps_serve hopens fun body hrequest => hoptions ⟨body, hrequest⟩

variable (env) in
/-- Serve what browsers send, latest first: the answers they get, and the state. -/
def visits (start : Db) :
    List (Visit × Draws) → List (Except (Failure HTTPException) Answer) × Db
  | [] => ([], start)
  | (visit, draws) :: earlier =>
      let (answers, db) := visits start earlier
      let (answer, world) := (visit.serve env draws).run ⟨db, [], []⟩
      (answer :: answers, world.db)

/-- The same requests, and draws alike. -/
def VisitsAlike (history history' : List (Visit × Draws)) : Prop :=
  List.Forall₂ (fun v v' => v.1 = v'.1 ∧ DrawsAlike v.2 v'.2) history history'

/-- **The browser learns nothing about the score.**  Requests that are sent to the
same state, and differ only in what the risk engine replies besides what it
enforces, are answered alike, all of them: the logins, and every step-up after them. -/
theorem visits_alike (start : Db) {history history' : List (Visit × Draws)}
    (h : VisitsAlike history history') :
    (visits env start history).1 = (visits env start history').1 ∧
      Redacted (visits env start history).2 (visits env start history').2 := by
  induction h with
  | nil => exact ⟨rfl, .refl start⟩
  | @cons v v' earlier earlier' hv _ ih =>
      obtain ⟨visit, draws⟩ := v
      obtain ⟨_, draws'⟩ := v'
      obtain ⟨rfl, hdraws⟩ := hv
      obtain ⟨hanswers, hdb⟩ := ih
      have hvisit := relates_visit env hdraws visit
      simp only [visits]
      exact ⟨congrArg₂ List.cons (hvisit.answer hdb) hanswers, hvisit.db hdb⟩

/-! Ana is asked for a second factor, mistypes it and types it again. -/

def Env.withOtp : Env :=
  { Env.standIn with settings := { Settings.default with mockOtpEnabled := true } }

/-- A verdict that asks for a second factor. -/
def verdict (riskScore : ℚ) (riskLevel : RiskLevel) (action : Action) (signal : String) :
    RiskEvaluateResponse where
  eventId := "event-1"
  riskScore := riskScore
  riskLevel := riskLevel
  action := action
  enforcedAction := .REQUIRE_MFA
  engineMode := .ACTIVE
  reasons := [⟨signal, signal, none, "differs"⟩]
  fallback := false

def asksAna (reply : RiskEvaluateResponse) : List (Visit × Draws) :=
  [(.mfaVerify ⟨"challenge-1", "000000", none⟩, .numbered 3),
    (.mfaVerify ⟨"challenge-1", "123456", none⟩, .numbered 2),
    (.login fromAbroad (claimsHome "clave"), { Draws.numbered 1 with pdp := some reply })]

theorem visitsAlike_asksAna : VisitsAlike
    (asksAna (verdict (1 / 2) .MEDIUM .REQUIRE_MFA "new_device"))
    (asksAna (verdict (9 / 10) .CRITICAL .BLOCK "impossible_travel")) := by
  have hsame : ∀ d : Draws, d.pdp = none → DrawsAlike d d := by
    rintro d hpdp
    refine ⟨none, ?_, by rw [← hpdp]⟩
    rw [hpdp]
    exact .none
  refine .cons ⟨rfl, hsame _ rfl⟩ (.cons ⟨rfl, hsame _ rfl⟩ (.cons ⟨rfl, ?_⟩ .nil))
  exact ⟨some (verdict (9 / 10) .CRITICAL .BLOCK "impossible_travel"),
    .some ⟨rfl, by simp [verdict], rfl, rfl, by decide⟩, rfl⟩

/-- Neither verdict shows. -/
theorem visits_alike_asked :
    (visits .withOtp .standIn
      (asksAna (verdict (1 / 2) .MEDIUM .REQUIRE_MFA "new_device"))).1 =
    (visits .withOtp .standIn
      (asksAna (verdict (9 / 10) .CRITICAL .BLOCK "impossible_travel"))).1 :=
  (visits_alike .standIn visitsAlike_asksAna).1

end RbaIdp
