import RbaIdp.Decision
import RbaIdp.Effects.After

/-!
# Where passkeys come from

Two doors, and no third: a passkey is stored through a session that a usual login
of a user without one opened, or through an activation code that an operator
issued.  The rows a door leaves on its way (the offer and the nonce of a session,
an activation code and its nonce) carry their history: `Offered` and `Issued` are
invariants of runs, and what a request checks on a row is then a fact about the
requests before it.

Histories are latest first: in `between ++ l :: rest`, what is in `between` came
after `l`.
-/

namespace RbaIdp

open Relational

variable {env : Env} {start db : Db} {hist : List Served}

/-! ## The first door -/

/-- A login of a user that the risk engine judged usual and that was let in, when
the user had no passkey. -/
structure UsualLogin (env : Env) (l : Served) (a : Attempt) (user : User)
    (decision : RiskEvaluateResponse) : Prop where
  signsIn : SignsIn env l a user
  engine : engineOff l.draws.policy = false
  answered : l.draws.pdp = some decision
  usual : decision.action = .ALLOW
  enforced : decision.enforcedAction = .ALLOW
  optional : ¬ AlwaysPasskey l.before.toDirectory user a.applicationId
  judged : decision.fallback = false
  first : l.before.hasPasskey user.userId = false

theorem usualLogin_of_offers {l : Served} {a : Attempt} {user : User} (event : SignsIn env l a user)
    (h : offersPasskey env l.draws l.before.toArtefacts user.userId = true) :
    ∃ decision, UsualLogin env l a user decision := by
  simp only [offersPasskey, Bool.and_eq_true, Bool.not_eq_true'] at h
  obtain ⟨husual, hfirst⟩ := h
  have haction := event.action
  cases hengine : engineOff l.draws.policy with
  | true =>
      -- nobody judges a login while the engine is off
      simp [decisionOf, hengine, judgedUsual] at husual
  | false =>
      have hfilter : (l.draws.policy.filter fun policy => policy.engineMode == .OFF) = none := by
        cases hpolicy : l.draws.policy with
        | none => rfl
        | some policy =>
            rw [hpolicy, engineOff, beq_eq_false_iff_ne] at hengine
            simpa using hengine
      cases hpdp : l.draws.pdp with
      | none =>
          -- the decision that stands in for a silent engine is a fallback
          simp [decisionOf, hengine, hpdp, judgedUsual, degradedDecision] at husual
      | some decision =>
          simp only [decisionOf, hengine, Bool.false_eq_true, if_false, hpdp, Option.getD_some,
            judgedUsual, Bool.and_eq_true, beq_iff_eq, Bool.not_eq_true'] at husual
          simp only [enforcedAction, actionOf, hfilter, hpdp] at haction
          obtain ⟨henforced, hasks⟩ := floor_eq_allow.mp haction
          have hoptional : ¬ AlwaysPasskey l.before.toDirectory user a.applicationId :=
            mt asksForPasskey_iff.mpr (Bool.eq_false_iff.mp hasks)
          exact ⟨decision, event, hengine, hpdp, husual.1, henforced, hoptional, husual.2, hfirst⟩

/-- The offer of a session was made by a login. -/
structure Offered (env : Env) (l : Served) (r : IdpSession) (enrollUntil : Time) : Prop where
  login : ∃ a user decision, UsualLogin env l a user decision ∧ user.userId = r.userId
  session : ∃ row, .artefact (.insertSession row) ∈ l.writes env ∧
    row.tokenHash = r.tokenHash ∧ row.userId = r.userId ∧ row.enrollUntil = some enrollUntil

/-- No session is created in the middle of a ceremony. -/
theorem webauthnChallenge_of_created {s : Served} {r : IdpSession} (h : Served.Created env s r) :
    r.webauthnChallenge = none := by
  cases h <;> rfl

/-- What stands behind the offer and the nonce of a session. -/
def OfferStory (env : Env) (hist : List Served) (r : IdpSession) : Prop :=
  ∀ enrollUntil, r.enrollUntil = some enrollUntil → ∃ between l rest,
    hist = between ++ l :: rest ∧ Offered env l r enrollUntil ∧
    (r.webauthnChallenge ≠ none → ∃ o ∈ between, ∃ opened, OpensSession env o opened ∧
      opened.tokenHash = r.tokenHash ∧ opened.userId = r.userId ∧ o.draws.now < enrollUntil)

theorem offerStory_run (hstart : ∀ r, r ∉ start.sessions) (run : Run env start hist db) :
    ∀ r ∈ db.sessions, OfferStory env hist r := by
  induction run with
  | nil => exact fun r hr => absurd hr (hstart r)
  | @cons hist db init request draws ih =>
      intro r hr enrollUntil huntil
      -- an untouched row keeps its story, a new one starts it, a call for options adds the nonce
      -- and an enrollment ends the offer
      rcases Served.sessions_after hr with hold | hinsert | ⟨row, event, rfl⟩ | ⟨row, _, -, rfl⟩
      · obtain ⟨between, l, rest, rfl, hoffered, hopened⟩ := ih r hold enrollUntil huntil
        refine ⟨_ :: between, l, rest, rfl, hoffered, fun hnonce => ?_⟩
        obtain ⟨o, ho, hrest⟩ := hopened hnonce
        exact ⟨o, List.mem_cons_of_mem _ ho, hrest⟩
      · refine ⟨[], _, hist, rfl, ?_, fun hnonce => ?_⟩
        · cases Served.created hinsert with
          | signedIn event =>
              rename_i a user
              simp only [sessionRow, Option.ite_none_right_eq_some] at huntil
              obtain ⟨decision, hlogin⟩ := usualLogin_of_offers event huntil.1
              refine ⟨⟨a, user, decision, hlogin, rfl⟩, _, hinsert, rfl, rfl, ?_⟩
              simpa [sessionRow] using huntil
          | steppedUp => simp [sessionRow] at huntil
          | redeemed => cases huntil
        · exact absurd (webauthnChallenge_of_created (Served.created hinsert)) hnonce
      · obtain ⟨_, hrequest, henrolling⟩ := event.request
        obtain ⟨between, l, rest, rfl, hoffered, -⟩ := ih row henrolling.mem enrollUntil huntil
        refine ⟨_ :: between, l, rest, rfl, ⟨hoffered.login, hoffered.session⟩, fun _ => ?_⟩
        obtain ⟨offered, hsame, hopen⟩ := henrolling.offered
        have huntil' : row.enrollUntil = some enrollUntil := huntil
        rw [hsame, Option.some.injEq] at huntil'
        exact ⟨_, List.mem_cons_self .., row, event, rfl, rfl, huntil' ▸ hopen⟩
      · cases huntil

/-! ## The second door -/

/-- What stands behind an activation code that can still be used, and its nonce:
it was issued, no later one was, and its ceremony was begun with the code itself
and the user's password. -/
def CodeStory (env : Env) (hist : List Served) (r : ActivationCode) : Prop :=
  ∃ between i rest issuedBy, hist = between ++ i :: rest ∧ Issues env i r.userId issuedBy ∧
    r.codeHash = hashCode env (newActivationCode i.draws.code) ∧
    (∀ j ∈ between, ∀ issuedBy, ¬ Issues env j r.userId issuedBy) ∧
    (r.webauthnChallenge ≠ none → ∃ o ∈ between, ∃ opened, OpensCode env o opened ∧
      opened.codeHash = r.codeHash ∧ opened.userId = r.userId)

theorem codeStory_run (hstart : ∀ r, r ∉ start.activationCodes) (run : Run env start hist db) :
    ∀ r ∈ db.activationCodes, r.consumedAt = none → CodeStory env hist r := by
  induction run with
  | nil => exact fun r hr => absurd hr (hstart r)
  | @cons hist db init request draws ih =>
      intro r hr hunconsumed
      rcases Served.activationCodes_after hr hunconsumed with ⟨hold, hnone⟩ |
        ⟨issuedBy, event, hrow⟩
        | ⟨row, event, rfl⟩
      · obtain ⟨between, i, rest, issuedBy, rfl, hissues, hcode, hlatest, hopened⟩ :=
          ih r hold hunconsumed
        refine ⟨_ :: between, i, rest, issuedBy, rfl, hissues, hcode,
          List.forall_mem_cons.mpr ⟨hnone, hlatest⟩, fun hnonce => ?_⟩
        obtain ⟨o, ho, hrest⟩ := hopened hnonce
        exact ⟨o, List.mem_cons_of_mem _ ho, hrest⟩
      · refine ⟨[], _, hist, issuedBy, rfl, event, by rw [hrow]; rfl, by simp, fun hnonce => ?_⟩
        rw [hrow] at hnonce
        exact absurd rfl hnonce
      · obtain ⟨body, user, hrequest, hopen, -⟩ := event.request
        obtain ⟨between, i, rest, issuedBy, rfl, hissues, hcode, hlatest, -⟩ :=
          ih row (Table.mem_of_get hopen.found) hopen.unconsumed
        refine ⟨_ :: between, i, rest, issuedBy, rfl, hissues, hcode,
          List.forall_mem_cons.mpr ⟨fun issuedBy other => ?_, hlatest⟩,
          fun _ => ⟨_, List.mem_cons_self .., row, event, rfl, rfl⟩⟩
        -- the request is a call for options, so it issues nothing
        obtain ⟨op, hissue, -⟩ := other.request
        rw [hrequest] at hissue
        cases hissue

/-! ## No third -/

/-- The passkey of a user was stored through one of the two doors. -/
inductive Enrolled (env : Env) (s : Served) (earlier : List Served) (userId credentialId : String) :
    Prop where
  | throughLogin {row : IdpSession} {verified : VerifiedRegistration} {enrollUntil : Time}
      {between rest : List Served} {l o : Served} {opened : IdpSession}
      (stored : EnrollsSession env s row verified) (user : row.userId = userId)
      (credential : verified.credentialId = credentialId) (order : earlier = between ++ l :: rest)
      (offered : Offered env l row enrollUntil) (inTime : s.draws.now < enrollUntil)
      (options : o ∈ between) (ceremony : OpensSession env o opened)
      (session : opened.tokenHash = row.tokenHash ∧ opened.userId = userId)
      (openedInTime : o.draws.now < enrollUntil)
  | throughCode {row : ActivationCode} {verified : VerifiedRegistration} {issuedBy : String}
      {between rest : List Served} {i o : Served} {opened : ActivationCode}
      (stored : EnrollsCode env s row verified) (user : row.userId = userId)
      (credential : verified.credentialId = credentialId) (order : earlier = between ++ i :: rest)
      (issued : Issues env i userId issuedBy)
      (code : row.codeHash = hashCode env (newActivationCode i.draws.code))
      (latest : ∀ j ∈ between, ∀ issuedBy, ¬ Issues env j userId issuedBy)
      (options : o ∈ between) (ceremony : OpensCode env o opened)
      (sameCode : opened.codeHash = row.codeHash) (sameUser : opened.userId = userId)

theorem enrolled_of_mem (hsessions : ∀ r, r ∉ start.sessions)
    (hcodes : ∀ r, r ∉ start.activationCodes) {s : Served} (run : Run env start hist s.before)
    {c : WebAuthnCredential} (h : .artefact (.insertCredential c) ∈ s.writes env) :
    Enrolled env s hist c.userId c.credentialId := by
  rcases Served.enrolls_of_mem h with ⟨row, verified, event, rfl⟩ | ⟨row, verified, event, rfl⟩
  · obtain ⟨authorization, body, nonce, hrequest, henrolling, hnonce, hstorable⟩ := event.request
    obtain ⟨enrollUntil, huntil, hopen⟩ := henrolling.offered
    obtain ⟨between, l, rest, horder, hoffered, hopened⟩ :=
      offerStory_run hsessions run row henrolling.mem enrollUntil huntil
    obtain ⟨o, ho, opened, hevent, hsession, huser, htime⟩ := hopened (by simp [hnonce])
    exact .throughLogin event rfl rfl horder hoffered hopen ho hevent ⟨hsession, huser⟩ htime
  · obtain ⟨body, nonce, hrequest, hopen, hnonce, hstorable⟩ := event.request
    obtain ⟨between, i, rest, issuedBy, horder, hissues, hcode, hlatest, hopened⟩ :=
      codeStory_run hcodes run row (Table.mem_of_get hopen.found) hopen.unconsumed
    obtain ⟨o, ho, opened, hevent, hsame, huser⟩ := hopened (by simp [hnonce])
    exact .throughCode event rfl rfl horder hissues hcode hlatest ho hevent hsame huser

/-- **Two doors.**  In a run from a state without sign-in artefacts, every
statement that stores a passkey, and every passkey there is at the end, comes
from a request that enrolled it through a usual login's session in time, or
through the latest activation code of its user. -/
theorem passkey_provenance (hstart : start.toArtefacts = .empty) (run : Run env start hist db) :
    (∀ later s earlier, hist = later ++ s :: earlier → ∀ c,
      .artefact (.insertCredential c) ∈ s.writes env →
      Enrolled env s earlier c.userId c.credentialId) ∧
    ∀ c ∈ db.webauthnCredentials, ∃ later s earlier, hist = later ++ s :: earlier ∧
      Enrolled env s earlier c.userId c.credentialId := by
  have hsessions : ∀ r, r ∉ start.sessions := by
    rw [hstart]
    exact Table.not_mem_empty
  have hcodes : ∀ r, r ∉ start.activationCodes := by
    rw [hstart]
    exact Table.not_mem_empty
  refine ⟨fun later s earlier hsplit c h => ?_, ?_⟩
  · subst hsplit
    exact enrolled_of_mem hsessions hcodes run.split h
  · induction run with
    | nil =>
        rw [hstart]
        exact fun c hc => absurd hc (Table.not_mem_empty c)
    | @cons hist db init request draws ih =>
        intro c hc
        rcases Served.credentials_after hc with ⟨old, hold, hid, huser⟩ | ⟨new, hnew, hid, huser⟩
        · obtain ⟨later, s, earlier, rfl, henrolled⟩ := ih old hold
          rw [hid, huser] at henrolled
          exact ⟨_ :: later, s, earlier, rfl, henrolled⟩
        · have henrolled := enrolled_of_mem hsessions hcodes
            (s := ⟨db, request, draws⟩) init hnew
          rw [hid, huser] at henrolled
          exact ⟨[], _, hist, rfl, henrolled⟩

/-- A usual login enrolls a passkey: the options, then the verification. -/
def enrolledOnce : List Served × Db :=
  play .standIn .standIn [(.sessionVerify (bearer 1) ⟨⟨some "key-1", ""⟩⟩, .usual 3),
    (.sessionOptions (bearer 1), .usual 2), (anaLogsIn, .usual 1)]

theorem passkey_provenance_once : ∃ c ∈ enrolledOnce.2.webauthnCredentials,
    c.credentialId = "key-1" ∧
    ∃ later s earlier, enrolledOnce.1 = later ++ s :: earlier ∧
      Enrolled .standIn s earlier c.userId c.credentialId := by
  have hstored : (enrolledOnce.2.webauthnCredentials.get "key-1").isSome := by decide +kernel
  obtain ⟨c, hc⟩ := Option.isSome_iff_exists.mp hstored
  exact ⟨c, Table.mem_of_get hc, Table.key_of_get hc,
    (passkey_provenance rfl (run_play _)).2 c (Table.mem_of_get hc)⟩

/-! ## The first passkey

A session is asked for a nonce only while its user has no passkey.  Between the
nonce and the passkey other requests are served, and `session_verify` does not
look again. -/

/-- A request stores a passkey for a user. -/
def Stores (env : Env) (s : Served) (userId : String) : Prop :=
  ∃ c, .artefact (.insertCredential c) ∈ s.writes env ∧ c.userId = userId

theorem hasPasskey_of_stores {s : Served} {userId : String} (h : Stores env s userId) :
    (s.after env).hasPasskey userId = true := by
  obtain ⟨c, hc, huser⟩ := h
  refine commit_establishes (fun w _ => hasPasskey_invariant w) (fun db haccepted => ?_) hc
    (s.commit_writes env)
  simp only [violates_artefact, ArtefactWrite.violates, Bool.or_eq_false_iff,
    Option.isSome_eq_false_iff, Option.isNone_iff_eq_none] at haccepted
  have hstored := (Table.mem_insert haccepted.1).mpr (Or.inr rfl)
  exact Artefacts.hasPasskey_eq_true.mpr ⟨c, hstored, huser⟩

theorem stores_of_hasPasskey {s : Served} {userId : String}
    (hbefore : s.before.hasPasskey userId = false)
    (hafter : (s.after env).hasPasskey userId = true) :
    Stores env s userId := by
  obtain ⟨c, hc, huser⟩ := Artefacts.hasPasskey_eq_true.mp hafter
  rcases Served.credentials_after hc with ⟨old, hold, -, hsame⟩ | ⟨new, hnew, -, hsame⟩
  · exact absurd (hsame.trans huser) (Artefacts.hasPasskey_eq_false.mp hbefore old hold)
  · exact ⟨new, hnew, hsame.trans huser⟩

/-- Who has a passkey had it before some requests or got it from one of them. -/
theorem hasPasskey_since {later earlier : List Served} {s : Served} {userId : String}
    (run : Run env start (later ++ s :: earlier) db) (h : db.hasPasskey userId = true) :
    s.before.hasPasskey userId = true ∨ ∃ m ∈ later ++ [s], Stores env m userId := by
  induction later generalizing db with
  | nil =>
      cases run with
      | cons init request draws =>
          cases hbefore : Artefacts.hasPasskey _ userId with
          | true => exact Or.inl rfl
          | false =>
              have hstores : Stores env ⟨_, request, draws⟩ userId := stores_of_hasPasskey hbefore h
              exact Or.inr ⟨_, List.mem_singleton.mpr rfl, hstores⟩
  | cons m later ih =>
      cases run with
      | cons init request draws =>
          rename_i mid
          cases hbefore : mid.hasPasskey userId with
          | true =>
              refine (ih init hbefore).imp_right fun ⟨m, hm, hstores⟩ => ?_
              exact ⟨m, List.mem_cons_of_mem _ hm, hstores⟩
          | false =>
              have hstores : Stores env ⟨mid, request, draws⟩ userId :=
                stores_of_hasPasskey hbefore h
              exact Or.inr ⟨_, List.mem_cons_self .., hstores⟩

/-- A request that stored a passkey gave its user one, whatever came after. -/
theorem hasPasskey_of_mem {s : Served} {userId : String} (run : Run env start hist db)
    (hs : s ∈ hist) (h : Stores env s userId) : db.hasPasskey userId = true := by
  induction run with
  | nil => cases hs
  | cons init request draws ih =>
      rcases List.mem_cons.mp hs with rfl | hs
      · exact hasPasskey_of_stores h
      · exact commit_invariant hasPasskey_invariant (Served.commit_writes env _) (ih hs)

/-- **When the first door adds a first passkey.**  In any run, when a session
stores a passkey, its user had none before if and only if nothing was stored for
the user since that session was given its nonce. -/
theorem first_passkey_iff (hstart : ∀ r, r ∉ start.sessions) {s : Served}
    (run : Run env start hist s.before) {row : IdpSession} {verified : VerifiedRegistration}
    (event : EnrollsSession env s row verified) :
    s.before.hasPasskey row.userId = false ↔
      ∃ between o rest opened, hist = between ++ o :: rest ∧ OpensSession env o opened ∧
        opened.tokenHash = row.tokenHash ∧ opened.userId = row.userId ∧
        ∀ m ∈ between, ¬ Stores env m row.userId := by
  constructor
  · intro hnone
    obtain ⟨_, _, nonce, -, henrolling, hnonce, -⟩ := event.request
    obtain ⟨enrollUntil, huntil, -⟩ := henrolling.offered
    obtain ⟨between, l, rest, rfl, -, hopened⟩ :=
      offerStory_run hstart run row henrolling.mem enrollUntil huntil
    obtain ⟨o, ho, opened, hopens, hsession, huser, -⟩ := hopened (by simp [hnonce])
    -- what was stored since the options would still be there
    obtain ⟨recent, older, rfl⟩ := List.append_of_mem ho
    refine ⟨recent, o, older ++ l :: rest, opened, by simp, hopens, hsession, huser,
      fun m hm hstores => ?_⟩
    have hsome := hasPasskey_of_mem run (List.mem_append_left _ (List.mem_append_left _ hm)) hstores
    rw [hnone] at hsome
    cases hsome
  · rintro ⟨between, o, rest, opened, rfl, hopens, -, huser, hquiet⟩
    by_contra hsome
    rcases hasPasskey_since run (by simpa using hsome) with hbefore | ⟨m, hm, hstores⟩
    · rw [← huser, hopens.none] at hbefore
      cases hbefore
    · rcases List.mem_append.mp hm with hm | hm
      · exact hquiet m hm hstores
      · -- asking for a nonce stores nothing
        rw [List.mem_singleton.mp hm] at hstores
        obtain ⟨c, hc, -⟩ := hstores
        obtain ⟨_, hrequest, -⟩ := hopens.request
        rcases Served.enrolls_of_mem hc with ⟨_, _, other, -⟩ | ⟨_, _, other, -⟩
        · obtain ⟨_, _, _, hverify, -⟩ := other.request
          rw [hrequest] at hverify
          cases hverify
        · obtain ⟨_, _, hverify, -⟩ := other.request
          rw [hrequest] at hverify
          cases hverify

/-- One tab: the login and the options came first. -/
def oneTab : List Served × Db :=
  play .standIn .standIn [(.sessionOptions (bearer 1), .usual 2), (anaLogsIn, .usual 1)]

def oneTabVerified : Served :=
  ⟨oneTab.2, .sessionVerify (bearer 1) ⟨⟨some "key-1", ""⟩⟩, .usual 3⟩

theorem first_passkey_oneTab : ∃ row verified, EnrollsSession .standIn oneTabVerified row verified ∧
    ∃ between o rest opened, oneTab.1 = between ++ o :: rest ∧ OpensSession .standIn o opened ∧
      opened.tokenHash = row.tokenHash ∧ opened.userId = row.userId ∧
      ∀ m ∈ between, ¬ Stores .standIn m row.userId := by
  have hevaluated : (oneTabVerified.writes .standIn).length = 3 ∧
      oneTab.2.webauthnCredentials.rows = [] := by decide +kernel
  obtain ⟨hlength, hempty⟩ := hevaluated
  rcases Served.writes_sessionVerify .standIn (show oneTabVerified.request = _ from rfl) with
    hnothing | ⟨row, verified, event, -⟩
  · rw [hnothing] at hlength
    cases hlength
  · refine ⟨row, verified, event, (first_passkey_iff Table.not_mem_empty (run_play _) event).mp ?_⟩
    refine Artefacts.hasPasskey_eq_false.mpr fun c hc => ?_
    have hmem : c ∈ oneTab.2.webauthnCredentials.rows := hc
    rw [hempty] at hmem
    cases hmem

/-- Two tabs: both sessions have their nonce before either stores its passkey. -/
def twoTabs : List Served × Db :=
  play .standIn .standIn [(.sessionVerify (bearer 1) ⟨⟨some "key-1", ""⟩⟩, .usual 5),
    (.sessionOptions (bearer 2), .usual 4), (.sessionOptions (bearer 1), .usual 3),
    (anaLogsIn, .usual 2), (anaLogsIn, .usual 1)]

def twoTabsVerified : Served :=
  ⟨twoTabs.2, .sessionVerify (bearer 2) ⟨⟨some "key-2", ""⟩⟩, .usual 6⟩

/-- The second session stores a passkey for a user who has one. -/
theorem not_first_passkey : ∃ (hist : List Served) (s : Served),
    Run .standIn .standIn hist s.before ∧
    (∃ authorization body, s.request = .sessionVerify authorization body) ∧
    ∃ c ∈ (s.after .standIn).webauthnCredentials,
      (∀ old ∈ s.before.webauthnCredentials, old.credentialId ≠ c.credentialId) ∧
      s.before.hasPasskey c.userId = true := by
  have hevaluated : ((twoTabsVerified.after .standIn).webauthnCredentials.get "key-2").map
        WebAuthnCredential.userId = some "usr_ana" ∧
      twoTabs.2.webauthnCredentials.get "key-2" = none ∧
      twoTabs.2.hasPasskey "usr_ana" = true := by decide +kernel
  obtain ⟨hafter, hnew, hpasskey⟩ := hevaluated
  obtain ⟨c, hc, huser⟩ := Option.map_eq_some_iff.mp hafter
  have hkey : c.credentialId = "key-2" := Table.key_of_get hc
  refine ⟨twoTabs.1, twoTabsVerified, run_play _, ⟨_, _, rfl⟩, c, Table.mem_of_get hc, ?_, ?_⟩
  · rw [hkey]
    exact Table.get_eq_none.mp hnew
  · rw [huser]
    exact hpasskey

end RbaIdp
