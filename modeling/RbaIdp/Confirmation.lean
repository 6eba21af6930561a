import RbaIdp.Admission
import RbaIdp.Effects.Calls

/-!
# Completed step-ups

A login that asks for more leaves a challenge row, and the row is all that the
step-up minutes later knows of the decision.  `ConfirmationLaw` follows the
decision through it: the answer to a completed step-up reports what the answer to
the login reported, and the risk engine is told once, for the tenant of the
application, that it was completed.

What is carried through the run is that every open challenge was asked for by a
login that answered (`asked_run`).
-/

namespace RbaIdp

open Relational Program

variable {env : Env} {start db : Db} {hist : List Served} {s : Served}

/-- What an answer reports of the decision behind it. -/
structure Reported where
  eventId : Option String
  action : Option Action
  riskScore : Option ℚ
  riskLevel : Option RiskLevel
  reasons : List Reason

def LoginResponse.reported (response : LoginResponse) : Reported :=
  ⟨response.eventId, response.action, response.riskScore, response.riskLevel, response.reasons⟩

def MfaChallenge.reported (challenge : MfaChallenge) : Reported :=
  ⟨challenge.eventId, some challenge.action, challenge.riskScore, challenge.riskLevel,
    challenge.reasons⟩

/-- A step-up answers that it is completed. -/
structure CompletesStepUp (env : Env) (s : Served) (challengeId : String)
    (response : LoginResponse) :
    Prop where
  request : stepUpChallenge s.request = some challengeId
  answer : s.answer env = .ok (.login response)
  authenticated : response.outcome = .AUTHENTICATED

/-- A login answers that it asks for more. -/
structure Asks (env : Env) (p : Served) (a : Attempt) (challengeId : String)
    (response : LoginResponse) : Prop where
  attempt : attemptOf env p.before.toDirectory p.request = some a
  answer : p.answer env = .ok (.login response)
  challengeId : response.challengeId = some challengeId
  -- with the engine off there is no decision, and no event
  eventId : response.eventId = (decisionOf env p.draws).map RiskEvaluateResponse.eventId

/-- Whatever becomes of the confirmation of a step-up. -/
def Served.withConfirmed (s : Served) (confirmed : Bool) : Served :=
  { s with draws := { s.draws with confirmed := confirmed } }

/-- Step-ups and what the risk engine hears of them, in a history. -/
structure ConfirmationLaw (env : Env) (hist : List Served) : Prop where
  kept : ∀ later s earlier, hist = later ++ s :: earlier → ∀ challengeId response,
    CompletesStepUp env s challengeId response →
    ∃ p ∈ earlier, ∃ a opening, Asks env p a challengeId opening ∧
      response.reported = opening.reported ∧
      s.before.applicationTenant a.applicationId = some a.tenantId ∧
      s.draws.now < p.draws.now + seconds env.settings.challengeTtlSeconds ∧
      s.calls env = confirmation opening.eventId (some a.tenantId)
  only : ∀ s ∈ hist, ∀ r, .confirm r ∈ s.calls env →
    ∃ challengeId response, CompletesStepUp env s challengeId response
  once : ∀ later p earlier, hist = later ++ p :: earlier → ∀ challengeId response,
    CompletesStepUp env p challengeId response →
    ∀ s ∈ later, ∀ response', ¬ CompletesStepUp env s challengeId response'
  refused : ∀ later p earlier, hist = later ++ p :: earlier → ∀ c,
    .artefact (.insertChallenge c) ∈ p.writes env → c.deniedReason.isSome →
    ∀ s ∈ later, ∀ response, ¬ CompletesStepUp env s c.challengeId response
  quiet : ∀ s ∈ hist, ∀ challengeId, stepUpChallenge s.request = some challengeId →
    ∀ r reply, .evaluate r reply ∉ s.calls env
  bestEffort : ∀ s ∈ hist, ∀ confirmed,
    (s.withConfirmed confirmed).answer env = s.answer env ∧
      (s.withConfirmed confirmed).after env = s.after env

/-! ## One step-up -/

/-- A step-up is completed and confirmed, or makes no call. -/
theorem Served.stepUp (env : Env) {s : Served} {challengeId : String}
    (hrequest : stepUpChallenge s.request = some challengeId) :
    (∃ challenge target, StepsUp env s challenge ∧ challenge.challengeId = challengeId ∧
      s.answer env = .ok (.login (finishResponse env s.draws challenge target)) ∧
      .artefact (.consumeChallenge challengeId s.draws.now) ∈ s.writes env ∧
      s.calls env = stepUpCalls s.before.toDirectory challenge) ∨
    (∀ response, ¬ CompletesStepUp env s challengeId response) ∧ s.calls env = [] := by
  rcases houtcome : s.outcome env with ⟨e | a, t'⟩
  · have hsilent := wp_of_error (wp_serve_stepUp env s.draws s.before hrequest) houtcome
    refine Or.inr ⟨fun response hcompletes => ?_, ?_⟩
    · have hanswer := hcompletes.answer
      rw [Served.answer, houtcome] at hanswer
      cases hanswer
    · rw [Served.calls, houtcome]
      exact hsilent.calls
  · obtain ⟨response, rfl, hends⟩ :=
      wp_of_ok (wp_serve_stepUp env s.draws s.before hrequest) houtcome
    have hanswer : s.answer env = .ok (.login response) := congrArg Prod.fst houtcome
    have hcalls : s.calls env = t'.calls := by rw [Served.calls, houtcome]
    have hwrites : s.writes env = t'.writes := by rw [Served.writes, houtcome]
    have hdone : ∀ response', CompletesStepUp env s challengeId response' →
        response.outcome = .AUTHENTICATED := by
      intro response' hcompletes
      cases hcompletes.answer.symm.trans hanswer
      exact hcompletes.authenticated
    cases hends with
    | completed hchallenge hopen hfactor haccess hcalled hwritten =>
        cases hrequest.symm.trans hchallenge
        obtain rfl := Table.key_of_get hopen.found
        refine Or.inl ⟨_, _, ⟨⟨_, hanswer⟩, hrequest, hopen, by simp [hfactor], haccess⟩, rfl,
          hanswer, ?_, hcalls.trans hcalled⟩
        rw [hwrites, hwritten]
        simp [finishWrites]
    | denied _ _ _ hcalled =>
        refine Or.inr ⟨fun response' hcompletes => ?_, hcalls.trans hcalled⟩
        simpa [accessDenied, challengeRisk] using hdone response' hcompletes
    | wrong hsilent =>
        refine Or.inr ⟨fun response' hcompletes => ?_, hcalls.trans hsilent.calls⟩
        cases hdone response' hcompletes

/-- A completed step-up: the challenge it was for, its answer, and its calls. -/
theorem CompletesStepUp.stepsUp {challengeId : String} {response : LoginResponse}
    (h : CompletesStepUp env s challengeId response) :
    ∃ challenge, StepsUp env s challenge ∧ challenge.challengeId = challengeId ∧
      response.reported = challenge.reported ∧
      .artefact (.consumeChallenge challengeId s.draws.now) ∈ s.writes env ∧
      s.calls env = stepUpCalls s.before.toDirectory challenge := by
  rcases Served.stepUp env h.request with
    ⟨challenge, target, event, hkey, hanswer, hwrites, hcalls⟩ | ⟨hnot, -⟩
  · have hsame := h.answer.symm.trans hanswer
    cases hsame
    exact ⟨challenge, event, hkey, rfl, hwrites, hcalls⟩
  · exact absurd h (hnot response)

/-- A challenge has been used, or was refused when it was opened. -/
def Used (challengeId : String) (db : Db) : Prop :=
  ∃ c, db.mfaChallenges.get challengeId = some c ∧ c.consumedAt ≠ none

theorem CompletesStepUp.used {challengeId : String} {response : LoginResponse}
    (h : CompletesStepUp env s challengeId response) : Used challengeId (s.after env) := by
  obtain ⟨-, -, -, -, hwrites, -⟩ := h.stepsUp
  refine commit_establishes (fun w _ => consumedChallenge_invariant w) (fun db haccepted => ?_)
    hwrites (s.commit_writes env)
  exact Table.exists_of_modify (by exact fun _ => rfl) haccepted (by simp) (by simp)

/-- A used challenge completes no step-up any more. -/
theorem not_completes_of_used {later earlier : List Served} {p : Served} {challengeId : String}
    (run : Run env start (later ++ p :: earlier) db) (h : Used challengeId (p.after env)) :
    ∀ s ∈ later, ∀ response, ¬ CompletesStepUp env s challengeId response := by
  intro s hs response hcompletes
  obtain ⟨c, hget, hused⟩ := (run.since (fun m _ hm =>
    commit_invariant consumedChallenge_invariant (m.commit_writes env) hm) h).2 s hs
  obtain ⟨challenge, event, rfl, -⟩ := hcompletes.stepsUp
  obtain rfl := Option.some.inj (event.opened.found.symm.trans hget)
  exact hused event.opened.unconsumed

/-- The challenge of a user without a second factor is used from the start. -/
theorem used_of_denied {c : MfaChallenge} (h : .artefact (.insertChallenge c) ∈ s.writes env)
    (hdenied : c.deniedReason.isSome) : Used c.challengeId (s.after env) := by
  have hused : c.consumedAt ≠ none := by
    cases Served.executes h with
    | challenged event =>
        obtain ⟨deniedReason, rfl⟩ := event.challenge
        simpa [challengeRow, Option.isSome_iff_ne_none] using hdenied
  refine commit_establishes (fun w _ => consumedChallenge_invariant w) (fun db haccepted => ?_)
    h (s.commit_writes env)
  have hfree : db.mfaChallenges.get c.challengeId = none := by
    simp only [violates_artefact, ArtefactWrite.violates, Bool.or_eq_false_iff] at haccepted
    simpa using haccepted.1
  exact ⟨c, by simp [ArtefactWrite.effect, hfree], hused⟩

/-! ## The login behind a challenge -/

/-- A login that leaves an open challenge hands it out, and reports its decision. -/
theorem asks_of_insert {c : MfaChallenge} (h : .artefact (.insertChallenge c) ∈ s.writes env)
    (hopen : c.consumedAt = none) :
    ∃ a opening, Asks env s a c.challengeId opening ∧ c.applicationId = a.applicationId ∧
      opening.reported = c.reported ∧
      c.expiresAt = s.draws.now + seconds env.settings.challengeTtlSeconds := by
  obtain ⟨answer, hanswer, heffect⟩ := Served.effect_of_mem h
  obtain ⟨a, user, event⟩ : ∃ a user, AsksForMore env s a user c := by
    cases Served.executes h with
    | challenged event => exact ⟨_, _, event⟩
  have hattempt := event.attempt
  generalize hrequest : s.request = request at heffect hattempt
  generalize s.writes env = ws at heffect h
  cases heffect with
  | login _ hlogin =>
      generalize hsame : attemptOf env s.before.toDirectory request = attempt at hlogin
      cases hlogin with
      | refused | blocked => cases h
      | allowed => simp [sessionWrites] at h
      | denied =>
          simp only [List.mem_singleton, Write.artefact.injEq,
            ArtefactWrite.insertChallenge.injEq] at h
          rw [h] at hopen
          cases hopen
      | challenged hattempt' hadmitted haction =>
          simp only [List.mem_singleton, Write.artefact.injEq,
            ArtefactWrite.insertChallenge.injEq] at h
          subst h
          rw [← hrequest, hattempt'] at hsame
          exact ⟨_, _, ⟨hsame, hanswer, rfl, rfl⟩, rfl, rfl, rfl⟩
  | steppedUp hstep => cases request <;> simp [attemptOf, stepUpChallenge] at hattempt hstep
  | stepUpDenied hstep => cases request <;> simp [attemptOf, stepUpChallenge] at hattempt hstep
  | silent => cases h
  | _ => cases hattempt

/-- An open challenge was open before a request, or the request inserts it. -/
theorem openChallenges_after {c : MfaChallenge} (hc : c ∈ (s.after env).mfaChallenges)
    (hopen : c.consumedAt = none) :
    (∃ old ∈ s.before.mfaChallenges, old.consumedAt = none ∧ old.asOpened = c.asOpened) ∨
      .artefact (.insertChallenge c.asOpened) ∈ s.writes env := by
  have path := Path.of_commit (P := fun _ w => w ∈ s.writes env) (s.commit_writes env)
    fun w hw _ => hw
  refine path.invariant (I := fun mid => ∀ c ∈ mid.mfaChallenges, c.consumedAt = none →
    (∃ old ∈ s.before.mfaChallenges, old.consumedAt = none ∧ old.asOpened = c.asOpened) ∨
      .artefact (.insertChallenge c.asOpened) ∈ s.writes env)
    (fun mid w hmid hw _ c hc hopen => ?_) (fun c hc hopen => Or.inl ⟨c, hc, hopen, rfl⟩) c hc hopen
  cases w with
  | directory w => exact hmid c hc hopen
  | artefact w =>
      rcases openChallenges_effect hc hopen with ⟨old, hold, holdOpen, hsame⟩ | rfl
      · rw [← hsame]
        exact hmid old hold holdOpen
      · cases Served.executes hw with
        | challenged event =>
            -- a row is inserted as it is opened
            obtain ⟨deniedReason, rfl⟩ := event.challenge
            have hsame : (challengeRow env s.draws _ _ _ _ deniedReason).consumedAt = none := hopen
            refine Or.inr ?_
            rw [MfaChallenge.asOpened, ← hsame]
            exact hw

/-- Every open challenge was asked for by a login that answered. -/
theorem asked_run (hstart : ∀ c, c ∉ start.mfaChallenges) (run : Run env start hist db) :
    ∀ c ∈ db.mfaChallenges, c.consumedAt = none → ∃ p ∈ hist, ∃ a opening,
      Asks env p a c.challengeId opening ∧ opening.reported = c.reported ∧
      c.applicationId = a.applicationId ∧ db.applicationTenant a.applicationId = some a.tenantId ∧
      c.expiresAt = p.draws.now + seconds env.settings.challengeTtlSeconds := by
  induction run with
  | nil => exact fun c hc => absurd hc (hstart c)
  | @cons hist db init request draws ih =>
      intro c hc hopen
      have hkept : ∀ {applicationId tenantId : String},
          db.applicationTenant applicationId = some tenantId →
          (Served.after env ⟨db, request, draws⟩).applicationTenant applicationId = some tenantId :=
        fun h => commit_invariant applicationTenant_invariant (Served.commit_writes env _) h
      rcases openChallenges_after hc hopen with ⟨old, hold, holdOpen, hsame⟩ | hinsert
      · obtain ⟨p, hp, a, opening, hasks, hreported, happ, htenant, hexpires⟩ :=
          ih old hold holdOpen
        simp only [MfaChallenge.asOpened, MfaChallenge.mk.injEq] at hsame
        obtain ⟨hid, -, happ', hevent, haction, hscore, hlevel, hreasons, hexpires', -⟩ := hsame
        refine ⟨p, List.mem_cons_of_mem _ hp, a, opening, hid ▸ hasks, ?_, happ' ▸ happ,
          hkept htenant, hexpires' ▸ hexpires⟩
        rw [hreported, MfaChallenge.reported, hevent, haction, hscore, hlevel, hreasons]
        rfl
      · obtain ⟨a, opening, hasks, happ, hreported, hexpires⟩ := asks_of_insert hinsert rfl
        exact ⟨_, List.mem_cons_self .., a, opening, hasks, hreported, happ,
          hkept (application_of_attempt hasks.attempt).2, hexpires⟩

/-! ## The confirmation is best effort -/

/-- Swallowing what the client raises leaves the call. -/
theorem attempt_confirm {d : Draws} {r : LoginConfirmRequest} :
    attempt (confirm d r) = Program.call (.confirm r) := by
  have hrun : ∀ t,
      (attempt (confirm d r)).run t = (Program.call (.confirm r) : App Unit).run t := by
    intro t
    cases hconfirmed : d.confirmed <;>
      simp [attempt, confirm, run_bind, raiseIf, Program.call, hconfirmed]
  exact Program.ext (funext hrun)

theorem confirmStepUp_withConfirmed {d : Draws} (confirmed : Bool) (result : LoginResponse)
    (tenantId : Option String) :
    confirmStepUp { d with confirmed := confirmed } result tenantId =
      confirmStepUp d result tenantId := by
  simp only [confirmStepUp, attempt_confirm]

/-- No request answers, writes or calls otherwise when a confirmation fails. -/
theorem serve_withConfirmed {d : Draws} (confirmed : Bool) (request : Request) :
    serve env { d with confirmed := confirmed } request = serve env d request := by
  cases request with
  | verifyMfa body =>
      simp only [serve, verifyMfa, confirmStepUp_withConfirmed]
      rfl
  | verifyWebauthn body =>
      simp only [serve, verifyWebauthn, confirmStepUp_withConfirmed]
      rfl
  | _ => rfl

theorem Served.outcome_withConfirmed (s : Served) (confirmed : Bool) :
    (s.withConfirmed confirmed).outcome env = s.outcome env := by
  simp only [Served.outcome, Served.withConfirmed, serve_withConfirmed]

/-! ## Any run -/

/-- **A completed step-up keeps its decision and is confirmed exactly once.** -/
theorem confirmation_law (hstart : ∀ c, c ∉ start.mfaChallenges) (run : Run env start hist db) :
    ConfirmationLaw env hist where
  kept := by
    rintro later s earlier rfl challengeId response hcompletes
    obtain ⟨challenge, event, rfl, hreported, -, hcalls⟩ := hcompletes.stepsUp
    obtain ⟨p, hp, a, opening, hasks, hopening, happ, htenant, hexpires⟩ :=
      asked_run hstart run.split challenge (Table.mem_of_get event.opened.found)
        event.opened.unconsumed
    refine ⟨p, hp, a, opening, hasks, hreported.trans hopening.symm, htenant, ?_, ?_⟩
    · rw [← hexpires]
      exact event.opened.unexpired
    · have hevent : opening.eventId = challenge.eventId := congrArg Reported.eventId hopening
      rw [hcalls, stepUpCalls, hevent, happ]
      exact congrArg (confirmation challenge.eventId) htenant
  only := by
    intro s _ r hr
    obtain ⟨challengeId, hrequest⟩ : ∃ challengeId,
        stepUpChallenge s.request = some challengeId := by
      cases Served.mayCall hr with
      | confirm h => exact ⟨_, h⟩
    rcases Served.stepUp env hrequest with
      ⟨challenge, target, event, rfl, hanswer, -, -⟩ | ⟨-, hcalls⟩
    · exact ⟨_, _, hrequest, hanswer, rfl⟩
    · rw [hcalls] at hr
      cases hr
  once := by
    rintro later p earlier rfl challengeId response hcompletes
    exact not_completes_of_used run hcompletes.used
  refused := by
    rintro later p earlier rfl c hc hdenied
    exact not_completes_of_used run (used_of_denied hc hdenied)
  quiet := by
    intro s _ challengeId hrequest r reply hcall
    cases Served.mayCall hcall with
    | evaluate hlogin => exact stepUpChallenge_of_isLogin hlogin hrequest
  bestEffort := by
    intro s _ confirmed
    simp only [Served.answer, Served.after, Served.outcome_withConfirmed, and_self]

/-- Ana's step-up, asked for while the risk engine was down, is confirmed to it. -/
theorem anaAnswers_calls :
    (anaAnswers anaIsAsked).calls .standIn = [.confirm ⟨"event-4", "acme"⟩] := by
  decide +kernel

theorem confirmation_law_asked : ∃ hist, ConfirmationLaw .standIn (anaAnswers anaIsAsked :: hist) ∧
    .confirm ⟨"event-4", "acme"⟩ ∈ (anaAnswers anaIsAsked).calls .standIn :=
  ⟨_, confirmation_law Table.not_mem_empty (run_anaAnswers anaIsAsked), by
    simp [anaAnswers_calls]⟩

end RbaIdp
