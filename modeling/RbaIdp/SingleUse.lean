import RbaIdp.Lineage
import RbaIdp.Relational.Interleaving

/-!
# Single use

Challenges, callback codes, activation codes and enrollment offers are each good
for one session or one passkey.  A request checks that they are unused in the
state it reads, and marks them in the transaction it commits; no lock is taken in
between.  So the law holds as long as no two requests for one of them overlap,
and breaks when they do.
-/

namespace RbaIdp

open Relational Program

variable {env : Env} {start db : Db} {s t : Served}

/-- What is good for one use. -/
inductive Artefact where
  | challenge (challengeId : String)
  | authCode (codeHash : String)
  | activationCode (codeHash : String)
  | offer (tokenHash : String)

/-- A request got a session or a passkey out of an artefact. -/
inductive Yields (env : Env) (s : Served) : Artefact → Prop where
  | challenge {challengeId : String} {r : IdpSession}
      (request : stepUpChallenge s.request = some challengeId)
      (created : .artefact (.insertSession r) ∈ s.writes env) :
      Yields env s (.challenge challengeId)
  | authCode {body : CallbackTokenRequest} {r : IdpSession}
      (request : s.request = .exchangeCode body)
      (created : .artefact (.insertSession r) ∈ s.writes env) :
      Yields env s (.authCode (hashSessionToken env body.code))
  | activationCode {body : ActivationVerifyRequest} {c : WebAuthnCredential}
      (request : s.request = .activationVerify body)
      (stored : .artefact (.insertCredential c) ∈ s.writes env) :
      Yields env s (.activationCode (hashCode env body.code))
  | offer {authorization : Option String} {body : PasskeyVerifyRequest} {raw : String}
      {c : WebAuthnCredential} (request : s.request = .sessionVerify authorization body)
      (token : bearerToken env authorization = some raw)
      (stored : .artefact (.insertCredential c) ∈ s.writes env) :
      Yields env s (.offer (hashSessionToken env raw))

/-- The state a request reads passes its checks on an artefact. -/
inductive Accepts (env : Env) (s : Served) : Artefact → Prop where
  | challenge {challenge : MfaChallenge}
      (request : stepUpChallenge s.request = some challenge.challengeId)
      (opened : OpenChallenge s.before.toArtefacts s.draws.now challenge.challengeId challenge)
      (factor : (factor env s.before.toArtefacts challenge s.request).isSome)
      (access : hasApplicationAccess s.before.toDirectory challenge.userId
        challenge.applicationId = true) : Accepts env s (.challenge challenge.challengeId)
  | authCode {body : CallbackTokenRequest} {row : AuthCode} {stored : IdpSession} {user : User}
      (request : s.request = .exchangeCode body)
      (redeemable : Redeemable env s.before s.draws.now body.code row stored user) :
      Accepts env s (.authCode (hashSessionToken env body.code))
  | activationCode {body : ActivationVerifyRequest} {row : ActivationCode} {nonce : Bytes}
      {verified : VerifiedRegistration} (request : s.request = .activationVerify body)
      (opened : OpenCode env s.before.toArtefacts s.draws.now body.code row)
      (started : row.webauthnChallenge = some nonce)
      (storable : Storable env s.before.toArtefacts body.credential nonce verified) :
      Accepts env s (.activationCode (hashCode env body.code))
  | offer {authorization : Option String} {body : PasskeyVerifyRequest} {raw : String}
      {row : IdpSession} {nonce : Bytes} {verified : VerifiedRegistration}
      (request : s.request = .sessionVerify authorization body)
      (token : bearerToken env authorization = some raw)
      (enrolling : Enrolling env s.before.toArtefacts s.draws.now authorization row)
      (started : row.webauthnChallenge = some nonce)
      (storable : Storable env s.before.toArtefacts body.credential nonce verified) :
      Accepts env s (.offer (hashSessionToken env raw))

/-- An artefact is marked as used. -/
def Artefact.Spent : Artefact → Db → Prop
  | challenge challengeId, db =>
      ∃ c, db.mfaChallenges.get challengeId = some c ∧ c.consumedAt ≠ none
  | authCode codeHash, db => ∃ c, db.authCodes.get codeHash = some c ∧ c.consumedAt ≠ none
  | activationCode codeHash, db =>
      ∃ c, db.activationCodes.get codeHash = some c ∧ c.consumedAt ≠ none
  | offer tokenHash, db => ∀ r ∈ db.sessions, r.tokenHash = tokenHash → r.enrollUntil = none

/-! ## One request -/

theorem accepts_of_yields {x : Artefact} (h : Yields env s x) : Accepts env s x := by
  cases h with
  | challenge hrequest hcreated =>
      obtain ⟨challenge, event, rfl, -⟩ := Served.stepsUp_of_created hrequest hcreated
      exact .challenge hrequest event.opened event.factor event.access
  | authCode hrequest hcreated =>
      obtain ⟨row, stored, user, -, hredeemable⟩ := Served.redeems_of_created hrequest hcreated
      exact .authCode hrequest hredeemable
  | activationCode hrequest hstored =>
      rcases Served.enrolls_of_mem hstored with ⟨_, _, event, -⟩ | ⟨_, _, event, -⟩
      · obtain ⟨_, _, _, hother, -⟩ := event.request
        rw [hrequest] at hother
        cases hother
      · obtain ⟨_, _, hother, hopened, hstarted, hstorable⟩ := event.request
        obtain rfl := Request.activationVerify.inj (hrequest.symm.trans hother)
        exact .activationCode hrequest hopened hstarted hstorable
  | offer hrequest htoken hstored =>
      rcases Served.enrolls_of_mem hstored with ⟨_, _, event, -⟩ | ⟨_, _, event, -⟩
      · obtain ⟨_, _, _, hother, henrolling, hstarted, hstorable⟩ := event.request
        obtain ⟨rfl, rfl⟩ := Request.sessionVerify.inj (hrequest.symm.trans hother)
        exact .offer hrequest htoken henrolling hstarted hstorable
      · obtain ⟨_, _, hother, -⟩ := event.request
        rw [hrequest] at hother
        cases hother

theorem not_spent_of_accepts {x : Artefact} (h : Accepts env s x) : ¬ x.Spent s.before := by
  intro hspent
  cases h with
  | challenge _ hopened =>
      obtain ⟨c, hget, hconsumed⟩ := hspent
      obtain rfl := Option.some.inj (hopened.found.symm.trans hget)
      exact hconsumed hopened.unconsumed
  | authCode _ hredeemable =>
      obtain ⟨c, hget, hconsumed⟩ := hspent
      obtain rfl := Option.some.inj (hredeemable.found.symm.trans hget)
      exact hconsumed hredeemable.unconsumed
  | activationCode _ hopened =>
      obtain ⟨c, hget, hconsumed⟩ := hspent
      obtain rfl := Option.some.inj (hopened.found.symm.trans hget)
      exact hconsumed hopened.unconsumed
  | offer _ htoken henrolling =>
      obtain ⟨raw, hraw, hget⟩ := henrolling.token
      obtain rfl := Option.some.inj (hraw.symm.trans htoken)
      obtain ⟨enrollUntil, hsome, -⟩ := henrolling.offered
      rw [hspent _ (Table.mem_of_get hget) (Table.key_of_get hget)] at hsome
      cases hsome

/-! ## One statement -/

/-- What is used stays used, unless a session is created under its digest. -/
theorem spent_effect {x : Artefact} {w : Write} (haccepted : Statement.violates w db = false)
    (hnot : ∀ r, x = .offer r.tokenHash → w ≠ .artefact (.insertSession r)) (h : x.Spent db) :
    x.Spent (Statement.effect w db) := by
  cases x with
  | challenge challengeId => exact consumedChallenge_invariant w db haccepted h
  | authCode codeHash => exact consumed_invariant w db haccepted h
  | activationCode codeHash => exact consumedActivation_invariant w db haccepted h
  | offer tokenHash =>
      cases w with
      | directory w => exact h
      | artefact w =>
          intro r hr hkey
          rcases mem_sessions_effect hr with hold | rfl | ⟨old, hold, nonce, -, rfl⟩ |
            ⟨old, hold, -, rfl⟩
          · exact h r hold hkey
          · exact absurd rfl (hnot r (by rw [hkey]))
          · exact h old hold hkey
          · rfl

/-- A request that gets something out of an artefact marks it. -/
theorem spends_of_yields {x : Artefact} (h : Yields env s x) :
    ∃ w ∈ s.writes env, ∀ db : Db, Statement.violates w db = false →
      x.Spent (Statement.effect w db) := by
  cases h with
  | challenge hrequest hcreated =>
      refine ⟨_, Served.consumes_of_stepUp hrequest hcreated, fun db haccepted => ?_⟩
      exact Table.exists_of_modify (by exact fun _ => rfl) haccepted (by simp) (by simp)
  | authCode hrequest hcreated =>
      obtain ⟨row, stored, user, event, hredeemable⟩ :=
        Served.redeems_of_created hrequest hcreated
      refine ⟨.artefact (.consumeAuthCode row.codeHash s.draws.now), ?_, fun db haccepted => ?_⟩
      · simp [Served.writes_of_redeems event, exchangeWrites]
      · rw [← Table.key_of_get hredeemable.found]
        exact Table.exists_of_modify (by exact fun _ => rfl) haccepted (by simp) (by simp)
  | activationCode hrequest hstored =>
      rcases Served.writes_activationVerify env hrequest with hnothing | ⟨row, _, -, hkey, hwrites⟩
      · rw [hnothing] at hstored
        cases hstored
      · refine ⟨.artefact (.consumeActivationCode row.codeHash s.draws.later), ?_,
          fun db haccepted => ?_⟩
        · simp [hwrites, activationVerifyWrites]
        · rw [← hkey]
          exact Table.exists_of_modify (by exact fun _ => rfl) haccepted (by simp) (by simp)
  | offer hrequest htoken hstored =>
      rcases Served.writes_sessionVerify env hrequest with hnothing | ⟨row, _, event, hwrites⟩
      · rw [hnothing] at hstored
        cases hstored
      · obtain ⟨_, _, _, hother, henrolling, -⟩ := event.request
        obtain ⟨rfl, rfl⟩ := Request.sessionVerify.inj (hrequest.symm.trans hother)
        obtain ⟨_, hraw, hget⟩ := henrolling.token
        obtain rfl := Option.some.inj (hraw.symm.trans htoken)
        refine ⟨.artefact (.lapseOffer row.tokenHash), ?_, fun db _ r hr hkey => ?_⟩
        · simp [hwrites, sessionVerifyWrites]
        · simp only [effect_artefact, ArtefactWrite.effect, Artefacts.updateSession,
            Table.mem_modify] at hr
          obtain ⟨old, -, rfl⟩ := hr
          rw [← Table.key_of_get hget] at hkey
          by_cases hold : old.tokenHash = row.tokenHash
          · simp [hold]
          · simp [hold] at hkey

/-- An offer is taken by a request that creates no session. -/
theorem no_session_of_offer {x : Artefact} (h : Yields env s x) {tokenHash : String}
    (hx : x = .offer tokenHash) (r : IdpSession) : .artefact (.insertSession r) ∉ s.writes env := by
  intro hcreated
  cases h with
  | offer hrequest =>
      rcases Served.request_of_created hcreated with hopens | ⟨_, hother⟩
      · rw [hrequest] at hopens
        cases hopens
      · rw [hrequest] at hother
        cases hother
  | _ => cases hx

/-! ## Any interleaving -/

/-- The token of a request is not the one of a request that is not done, or of one
that has committed. -/
def FreshToken (env : Env) (sys : System Db Served) (t : Served) : Prop :=
  ∀ u ∈ sys.inFlight ++ sys.committed,
    hashSessionToken env t.draws.token ≠ hashSessionToken env u.draws.token

/-- Nobody else in flight has passed the checks on the same artefact. -/
def Alone (env : Env) (others : List Served) (t : Served) : Prop :=
  ∀ x, Accepts env t x → ∀ u ∈ others, ¬ Accepts env u x

/-- Requests overlap: each reads the committed state, and commits later. -/
abbrev Interleaved (env : Env) (ends : List Served → Served → Prop) (start : Db) :
    System Db Served → Prop :=
  Interleaving Served.before (Served.writes env) (FreshToken env) ends start

variable {ends : List Served → Served → Prop} {sys : System Db Served}

/-- No artefact is good for two sessions, or for two passkeys. -/
structure SingleUseLaw (env : Env) (committed : List Served) : Prop where
  once : UsedOnce (Yields env) committed
  session : ∀ s ∈ committed, ∀ r r', .artefact (.insertSession r) ∈ s.writes env →
    .artefact (.insertSession r') ∈ s.writes env → r = r'
  passkey : ∀ s ∈ committed, ∀ c c', .artefact (.insertCredential c) ∈ s.writes env →
    .artefact (.insertCredential c') ∈ s.writes env → c = c'

/-- The session a digest is of was created by a request that has committed. -/
theorem born_interleaved (hstart : ∀ r, r ∉ start.sessions) (run : Interleaved env ends start sys) :
    (∀ r ∈ sys.db.sessions, ∃ u ∈ sys.committed,
      hashSessionToken env u.draws.token = r.tokenHash) ∧
    ∀ t ∈ sys.inFlight ++ sys.committed, ∀ r ∈ t.before.sessions, ∃ u ∈ sys.committed,
      hashSessionToken env u.draws.token = r.tokenHash := by
  induction run with
  | start => exact ⟨fun r hr => absurd hr (hstart r), by simp⟩
  | read _ t hreads _ ih =>
      refine ⟨ih.1, fun t' ht' r hr => ?_⟩
      rcases List.mem_cons.mp ht' with rfl | ht'
      · rw [hreads] at hr
        exact ih.1 r hr
      · exact ih.2 t' ht' r hr
  | @commit _ _ before after committed t _ _ hcommit ih =>
      refine ⟨fun r hr => ?_, fun t' ht' r hr => ?_⟩
      · rcases Served.digest_of_commit hcommit hr with ⟨old, hold, hkey⟩ | ⟨new, hnew, hkey⟩
        · obtain ⟨u, hu, hdigest⟩ := ih.1 old hold
          exact ⟨u, List.mem_cons_of_mem _ hu, hdigest.trans hkey⟩
        · refine ⟨t, List.mem_cons_self .., ?_⟩
          rw [← hkey, Served.tokenHash_of_mem hnew]
      · have hbefore : t' ∈ (before ++ t :: after) ++ committed := by
          simp only [List.mem_append, List.mem_cons] at ht' ⊢
          tauto
        obtain ⟨u, hu, hdigest⟩ := ih.2 t' hbefore r hr
        exact ⟨u, List.mem_cons_of_mem _ hu, hdigest⟩
  | @abort _ before after committed t _ _ ih =>
      refine ⟨ih.1, fun t' ht' => ih.2 t' ?_⟩
      simp only [List.mem_append, List.mem_cons] at ht' ⊢
      tauto

/-- A session is created under a digest once. -/
theorem not_inserted_again (hstart : ∀ r, r ∉ start.sessions)
    (run : Interleaved env ends start sys) (ht : t ∈ sys.inFlight) {u : Served}
    (hu : u ∈ sys.committed) {x : Artefact} (hyields : Yields env u x) {r : IdpSession}
    (hx : x = .offer r.tokenHash) : .artefact (.insertSession r) ∉ t.writes env := by
  intro hcreated
  cases accepts_of_yields hyields with
  | offer hrequest htoken henrolling =>
      -- the offer's session was created by a committed request, which drew its token
      obtain ⟨raw, hraw, hget⟩ := henrolling.token
      obtain rfl := Option.some.inj (hraw.symm.trans htoken)
      obtain ⟨v, hv, hdigest⟩ := (born_interleaved hstart run).2 u (List.mem_append_right _ hu) _
        (Table.mem_of_get hget)
      rw [Table.key_of_get hget, Artefact.offer.inj hx, Served.tokenHash_of_mem hcreated] at hdigest
      have hdistinct := run.pairwise (fun h => h.symm) fun _ _ hfresh => hfresh
      exact (List.pairwise_append.mp hdistinct).2.2 t ht v hv hdigest.symm
  | _ => cases hx

/-- **Single use, without overlap.**  In any interleaving of reads and commits in
which a request commits the use of an artefact only while nobody else in flight
has passed the checks on it, every challenge yields at most one session, every
callback code is exchanged for at most one, and every activation code and every
enrollment offer stores at most one passkey. -/
theorem single_use (hstart : ∀ r, r ∉ start.sessions)
    (run : Interleaved env (Alone env) start sys) : SingleUseLaw env sys.committed where
  session s _ r r' := Served.insertSession_unique
  passkey s _ c c' := Served.insertCredential_unique
  once := by
    refine Interleaving.usedOnce (fun t x => accepts_of_yields) (fun t x => not_spent_of_accepts)
      (fun t x hyields db db' hcommit => ?_)
      (fun db before t after committed init u hu x hyields db' hcommit hspent => ?_)
      (fun others t halone => halone) run
    · -- one statement of a use marks the artefact, and the ones after it leave the mark
      obtain ⟨w, hw, hspends⟩ := spends_of_yields hyields
      refine commit_establishes (fun v hv db haccepted hspent => ?_) hspends hw hcommit
      refine spent_effect haccepted (fun r hx hinsert => ?_) hspent
      rw [hinsert] at hv
      exact no_session_of_offer hyields hx r hv
    · -- so do the statements of the others
      refine commit_relation (R := fun a b => x.Spent a → x.Spent b) (fun _ h => h)
        (fun h h' => h' ∘ h) (fun v hv db haccepted => ?_) hcommit hspent
      refine spent_effect haccepted fun r hx hinsert => ?_
      rw [hinsert] at hv
      exact not_inserted_again hstart init (List.mem_append_right _ (List.mem_cons_self ..)) hu
        hyields hx hv

/-! ## One at a time, and two at once -/

/-- Requests that are served one at a time are never in flight together. -/
theorem interleaved_of_run {hist : List Served} (run : Run env start hist db)
    (hfresh : FreshTokens env hist) : Interleaved env (Alone env) start ⟨db, [], hist⟩ := by
  induction run with
  | nil => exact .start
  | @cons hist db _ request draws ih =>
      obtain ⟨hnew, hfresh⟩ := List.nodup_cons.mp hfresh
      have hread : Interleaved env (Alone env) start
          ⟨db, [] ++ ⟨db, request, draws⟩ :: [], hist⟩ := by
        refine .read (ih hfresh) ⟨db, request, draws⟩ rfl fun u hu hsame => hnew ?_
        exact List.mem_map.mpr ⟨u, by simpa using hu, hsame.symm⟩
      exact .commit hread (by simp [Alone]) (Served.commit_writes env _)

/-- Ana has logged in twice. -/
def anaTwice : List Served × Db :=
  play .standIn .standIn [(anaLogsIn, .usual 2), (anaLogsIn, .usual 1)]

/-- Each of her codes is sent while the other is. -/
def codeOfTwo (n : ℕ) : Served :=
  ⟨anaTwice.2, .exchangeCode ⟨"code-" ++ toString n⟩, .usual (n + 2)⟩

/-- Does a request create a session? -/
def createsSession (s : Served) : Bool :=
  (s.writes .standIn).any fun w => match w with
    | .artefact (.insertSession _) => true
    | _ => false

theorem accepts_exchange {body : CallbackTokenRequest} {x : Artefact}
    (hrequest : s.request = .exchangeCode body) (h : Accepts env s x) :
    x = .authCode (hashSessionToken env body.code) := by
  cases h with
  | authCode request => rw [Request.exchangeCode.inj (hrequest.symm.trans request)]
  | challenge request | activationCode request | offer request =>
      rw [hrequest] at request
      cases request

/-- Both exchanges are in flight at once, and each gets the session of its own code. -/
theorem single_use_exchanged :
    SingleUseLaw .standIn (codeOfTwo 2 :: codeOfTwo 1 :: anaTwice.1) ∧
      createsSession (codeOfTwo 1) = true ∧ createsSession (codeOfTwo 2) = true := by
  have hevaluated : createsSession (codeOfTwo 1) = true ∧ createsSession (codeOfTwo 2) = true ∧
      (commit ((codeOfTwo 2).writes .standIn) ((codeOfTwo 1).after .standIn)).isSome ∧
      ((codeOfTwo 2 :: codeOfTwo 1 :: anaTwice.1).map fun s =>
        hashSessionToken .standIn s.draws.token).Nodup := by
    decide +kernel
  obtain ⟨hfirst, hsecond, hcommit, hfresh⟩ := hevaluated
  obtain ⟨db, hcommit⟩ := Option.isSome_iff_exists.mp hcommit
  obtain ⟨hnew₂, hfresh⟩ := List.nodup_cons.mp hfresh
  obtain ⟨hnew₁, hfresh⟩ := List.nodup_cons.mp hfresh
  have hloggedIn : Interleaved .standIn (Alone .standIn) .standIn ⟨anaTwice.2, [], anaTwice.1⟩ :=
    interleaved_of_run (run_play _) hfresh
  have hread : Interleaved .standIn (Alone .standIn) .standIn
      ⟨anaTwice.2, [codeOfTwo 2] ++ codeOfTwo 1 :: [], anaTwice.1⟩ := by
    refine .read (.read hloggedIn (codeOfTwo 1) rfl ?_) (codeOfTwo 2) rfl ?_
    · exact fun u hu hsame => hnew₁ (List.mem_map.mpr ⟨u, by simpa using hu, hsame.symm⟩)
    · exact fun u hu hsame => hnew₂ (List.mem_map.mpr ⟨u, by simpa using hu, hsame.symm⟩)
  have halone : Alone .standIn ([codeOfTwo 2] ++ []) (codeOfTwo 1) := by
    intro x hx u hu hx'
    obtain rfl : u = codeOfTwo 2 := by simpa using hu
    have hsame := (accepts_exchange rfl hx).symm.trans (accepts_exchange rfl hx')
    revert hsame
    simp only [Artefact.authCode.injEq]
    decide +kernel
  have hone : Interleaved .standIn (Alone .standIn) .standIn
      ⟨(codeOfTwo 1).after .standIn, [codeOfTwo 2] ++ [], codeOfTwo 1 :: anaTwice.1⟩ :=
    .commit hread halone (Served.commit_writes _ _)
  have hcommitted : Interleaved .standIn (Alone .standIn) .standIn
      ⟨db, [] ++ [], codeOfTwo 2 :: codeOfTwo 1 :: anaTwice.1⟩ :=
    .commit hone (by simp [Alone]) hcommit
  exact ⟨single_use Table.not_mem_empty hcommitted, hfirst, hsecond⟩

/-- Ana has logged in, and the `n`th request is for her code. -/
def codeSent (n : ℕ) : Served := ⟨anaFirst.after .standIn, .exchangeCode ⟨"code-1"⟩, .usual n⟩

theorem yields_codeSent {n : ℕ} (h : createsSession (codeSent n) = true) :
    Yields .standIn (codeSent n) (.authCode (hashSessionToken .standIn "code-1")) := by
  obtain ⟨w, hmem, hw⟩ := List.any_eq_true.mp h
  split at hw
  · exact .authCode (s := codeSent n) rfl hmem
  · cases hw

/-- Both are answered before either is committed, and each gets a session. -/
theorem not_single_use : ∃ sys, Interleaved .standIn (fun _ _ => True) .standIn sys ∧
    ¬ SingleUseLaw .standIn sys.committed := by
  have hevaluated : createsSession (codeSent 2) = true ∧ createsSession (codeSent 3) = true ∧
      (commit ((codeSent 3).writes .standIn) ((codeSent 2).after .standIn)).isSome ∧
      ([codeSent 3, codeSent 2, anaFirst].map fun s =>
        hashSessionToken .standIn s.draws.token).Nodup := by
    decide +kernel
  obtain ⟨hsecond, hthird, hcommit, hfresh⟩ := hevaluated
  obtain ⟨db, hcommit⟩ := Option.isSome_iff_exists.mp hcommit
  have hloggedIn : Interleaved .standIn (fun _ _ => True) .standIn
      ⟨anaFirst.after .standIn, [] ++ [], [anaFirst]⟩ :=
    .commit (.read .start anaFirst rfl (by simp [FreshToken])) trivial (Served.commit_writes _ _)
  have hread : Interleaved .standIn (fun _ _ => True) .standIn
      ⟨anaFirst.after .standIn, [] ++ codeSent 2 :: [codeSent 3], [anaFirst]⟩ := by
    simp only [List.map_cons, List.map_nil, List.nodup_cons, List.mem_cons, List.not_mem_nil,
      or_false, not_or] at hfresh
    obtain ⟨⟨hne, hne₃⟩, hne₂, -⟩ := hfresh
    refine .read (.read hloggedIn (codeSent 3) rfl ?_) (codeSent 2) rfl ?_
    · simpa [FreshToken] using hne₃
    · simpa [FreshToken] using ⟨Ne.symm hne, hne₂⟩
  have hfirst : Interleaved .standIn (fun _ _ => True) .standIn
      ⟨(codeSent 2).after .standIn, [] ++ codeSent 3 :: [], [codeSent 2, anaFirst]⟩ :=
    .commit hread trivial (Served.commit_writes _ _)
  have hboth : Interleaved .standIn (fun _ _ => True) .standIn
      ⟨db, [] ++ [], [codeSent 3, codeSent 2, anaFirst]⟩ := .commit hfirst trivial hcommit
  refine ⟨_, hboth, fun hlaw => ?_⟩
  have hpair := (List.pairwise_cons.mp hlaw.once).1 (codeSent 2) (List.mem_cons_self ..)
  exact hpair _ (yields_codeSent hthird) (yields_codeSent hsecond)

end RbaIdp
