import RbaIdp.Passkeys

/-!
# An offer that was to lapse

`session_options` clears the enrollment offer of a session whose user has a passkey
meanwhile, and raises in the same transaction.  `session_scope` rolls back what a
raising block did, so the offer stays as it was (`offer_survives`): a nonce of an
earlier call still enrolls, and once the user has no passkey the session may enroll
again.
-/

namespace RbaIdp

open Relational Program

variable {env : Env}

/-- A `session_options` call that finds a passkey of the session's user. -/
structure FindsPasskey (env : Env) (s : Served) (authorization : Option String)
    (row : IdpSession) (user : User) : Prop where
  request : s.request = .sessionOptions authorization
  enrolling : Enrolling env s.before.toArtefacts s.draws.now authorization row
  owner : s.before.users.get row.userId = some user
  enabled : user.enabled = true
  enrolled : s.before.hasPasskey user.userId = true

/-! ## What was to hold after it -/

/-- The offer is cleared on the session's row. -/
def OfferCleared (tokenHash : String) (db : Db) : Prop :=
  ∀ row, db.sessions.get tokenHash = some row → row.enrollUntil = none

/-- The user's passkeys are taken away, which no request does. -/
def removePasskeys (userId : String) (db : Db) : Db :=
  { db with webauthnCredentials := db.webauthnCredentials.erase fun c => c.userId == userId }

/-- What may happen after the call. -/
inductive Happening where
  | request (request : Request) (draws : Draws)
  | removal (userId : String)

def Happening.after (env : Env) (db : Db) : Happening → Db
  | Happening.request asked draws => Served.after env ⟨db, asked, draws⟩
  | removal userId => removePasskeys userId db

/-- Whatever happens, the token enrolls nothing and is not asked to. -/
def StaysRefused (env : Env) (authorization : Option String) (db : Db) : Prop :=
  ∀ (later : List Happening) (d : Draws) (a : Answer),
    Served.answer env ⟨later.foldl (Happening.after env) db, .sessionOptions authorization, d⟩ ≠
        .ok a ∧
      ∀ body : PasskeyVerifyRequest,
        Served.answer env
          ⟨later.foldl (Happening.after env) db, .sessionVerify authorization body, d⟩ ≠ .ok a

/-! ## What holds after it -/

variable {d : Draws} {t : World} {authorization : Option String} {row : IdpSession} {user : User}

/-- An open offer is found by its token. -/
theorem run_enrollingSession (h : Enrolling env t.db.toArtefacts d.now authorization row) :
    (enrollingSession env d authorization).run t = (.ok row, t) := by
  obtain ⟨⟨raw, hraw, hget⟩, hlive, enrollUntil, huntil, hopen⟩ := h
  have hfound : (enrollingSession env d authorization).wp (fun r t' => r = row ∧ t' = t)
      (fun _ => False) t := by
    simp only [enrollingSession, wp_bind, wp_read, wp_require, wp_raiseIf, wp_pure, hraw]
    refine ⟨by simp, fun r hr => ?_⟩
    obtain rfl := Option.some.inj hr
    simp [hget, huntil, hlive, hopen]
  rcases hrun : (enrollingSession env d authorization).run t with ⟨e | r, t'⟩
  · exact (wp_of_error hfound hrun).elim
  · obtain ⟨rfl, rfl⟩ := wp_of_ok hfound hrun
    rfl

/-- The session of an open offer is stored under the hash of its token. -/
theorem Enrolling.get {db : Artefacts} {now : Time}
    (h : Enrolling env db now authorization row) : db.sessions.get row.tokenHash = some row :=
  Table.get_of_mem h.mem

theorem Enrolling.stored {db : Artefacts} {now : Time}
    (h : Enrolling env db now authorization row) : (db.sessions.get row.tokenHash).isSome := by
  rw [h.get]
  rfl

/-- Statements about a stored session are accepted. -/
theorem violates_session {db : Db} {tokenHash : String} (h : (db.sessions.get tokenHash).isSome) :
    (ArtefactWrite.lapseOffer tokenHash).violates db = false ∧
      ∀ nonce, (ArtefactWrite.setSessionNonce tokenHash nonce).violates db = false := by
  simp only [ArtefactWrite.violates, Option.isNone_eq_false_iff]
  exact ⟨h, fun _ => h⟩

/-- The call raises, and leaves the state it found. -/
theorem FindsPasskey.outcome {s : Served} (h : FindsPasskey env s authorization row user) :
    s.outcome env = (.error (.raised NO_ENROLLMENT), ⟨s.before, [], []⟩) := by
  obtain ⟨before, request, d⟩ := s
  obtain ⟨hrequest, henrolling, howner, henabled, henrolled⟩ := h
  simp only at hrequest henrolling howner henrolled
  subst hrequest
  have hfilter : (before.users.get row.userId).filter User.enabled = some user := by
    simp [howner, henabled]
  have hrun := run_enrollingSession (t := ⟨before, [], []⟩) henrolling
  have hlapse := (violates_session henrolling.stored).1
  simp [Served.outcome, serve, answer, sessionOptions, transaction, run_bind, hrun, hfilter,
    Program.require, henrolled, onArtefacts, execute, hlapse]

/-- An open offer of an enabled user without a passkey is taken up. -/
theorem answer_sessionOptions {db : Db} (henrolling : Enrolling env db.toArtefacts d.now
    authorization row) (howner : db.users.get row.userId = some user)
    (henabled : user.enabled = true) (hnone : db.hasPasskey user.userId = false) :
    Served.answer env ⟨db, .sessionOptions authorization, d⟩ =
      .ok (.creationOptions ⟨⟨d.nonce, user.userId, user.email⟩⟩) := by
  have hfilter : (db.users.get row.userId).filter User.enabled = some user := by
    simp [howner, henabled]
  have hrun := run_enrollingSession (t := ⟨db, [], []⟩) henrolling
  have hnonce := (violates_session henrolling.stored).2
  simp [Served.answer, Served.outcome, serve, answer, sessionOptions, transaction, run_bind, hrun,
    hfilter, Program.require, hnone, onArtefacts, execute, hnonce]

theorem wp_onArtefacts_accepted {w : ArtefactWrite} {Q : Unit → World → Prop}
    (haccepted : w.violates t.db = false) (h : Q () (t.exec (.artefact w))) :
    (onArtefacts w).wp Q (fun _ => False) t := by
  rw [onArtefacts, wp_execute]
  exact ⟨fun hviolates => by simp [haccepted] at hviolates, fun _ => h⟩

theorem wp_require_some {α : Type} {o : Option α} {e : HTTPException} {Q : α → World → Prop}
    {E : World → Prop} {a : α} (ho : o = some a) (h : Q a t) :
    (Program.require o e : App α).wp Q E t := by
  subst ho
  simpa using h

/-- A registration that verifies against the nonce of an open offer is stored. -/
theorem wp_sessionVerify_stores {nonce : Bytes} {body : PasskeyVerifyRequest}
    {verified : VerifiedRegistration}
    (henrolling : Enrolling env t.db.toArtefacts d.now authorization row)
    (howner : t.db.users.get row.userId = some user) (hnonce : row.webauthnChallenge = some nonce)
    (hstorable : Storable env t.db.toArtefacts body.credential nonce verified) :
    (sessionVerify env d authorization body).wp
      (fun _ t' => credentialRow row.userId verified ∈ t'.db.webauthnCredentials)
      (fun _ => False) t := by
  have hinsert : (ArtefactWrite.insertCredential (credentialRow row.userId verified)).violates
      t.db = false := by
    simp [ArtefactWrite.violates, credentialRow, hstorable.new, howner]
  have hstored := henrolling.stored
  rw [sessionVerify, wp_transaction, wp_bind, wp, run_enrollingSession henrolling]
  simp only [outcome_ok, wp_bind]
  refine wp_require_some hnonce ?_
  simp only [storeCredential, wp_bind, wp_read, wp_raiseIf]
  refine wp_require_some hstorable.verifies ⟨fun hused => by simp [hstorable.new] at hused,
    fun _ => ?_⟩
  refine wp_onArtefacts_accepted hinsert ?_
  refine wp_onArtefacts_accepted (violates_session hstored).1 ?_
  refine wp_onArtefacts_accepted ((violates_session ?_).2 none) ?_
  · simpa [ArtefactWrite.effect, Artefacts.updateSession] using hstored
  · exact (Table.mem_insert hstorable.new).mpr (Or.inr rfl)

/-- An offer that was to lapse survives.  The row keeps it; the session enrolls again
as soon as its user has no passkey; and a nonce of an earlier call still stores one
beside those the user has. -/
theorem offer_survives {s : Served} (h : FindsPasskey env s authorization row user) :
    s.answer env = .error (.raised NO_ENROLLMENT) ∧ s.after env = s.before ∧
      ¬ OfferCleared row.tokenHash (s.after env) ∧
      ¬ StaysRefused env authorization (s.after env) ∧
      ∀ (nonce : Bytes) (body : PasskeyVerifyRequest) (verified : VerifiedRegistration),
        row.webauthnChallenge = some nonce →
        Storable env s.before.toArtefacts body.credential nonce verified →
        credentialRow row.userId verified ∈
          (Served.after env
            ⟨s.after env, .sessionVerify authorization body, s.draws⟩).webauthnCredentials := by
  have hafter : s.after env = s.before := by rw [Served.after, h.outcome]
  rw [Served.answer, h.outcome, hafter]
  refine ⟨rfl, rfl, fun hcleared => ?_, fun hrefused => ?_,
    fun nonce body verified hnonce hnew => ?_⟩
  · obtain ⟨enrollUntil, huntil, -⟩ := h.enrolling.offered
    rw [hcleared row h.enrolling.get] at huntil
    cases huntil
  · -- nothing but the passkey stands in the way of another call
    let cleared : Db := removePasskeys user.userId s.before
    have hnone : cleared.hasPasskey user.userId = false := by
      simp [cleared, removePasskeys, Artefacts.hasPasskey_eq_false]
    have henrolling : Enrolling env cleared.toArtefacts s.draws.now authorization row :=
      ⟨h.enrolling.token, h.enrolling.live, h.enrolling.offered⟩
    exact (hrefused [.removal user.userId] s.draws _).1
      (answer_sessionOptions henrolling h.owner h.enabled hnone)
  · have hwp := wp_sessionVerify_stores (t := ⟨s.before, [], []⟩) h.enrolling h.owner hnonce hnew
    rcases hrun : (sessionVerify env s.draws authorization body).run ⟨s.before, [], []⟩ with
      ⟨e | _, t'⟩
    · exact (wp_of_error hwp hrun).elim
    · have hserved : Served.after env ⟨s.before, .sessionVerify authorization body, s.draws⟩ =
          t'.db := by
        simp [Served.after, Served.outcome, serve, answer, run_bind, hrun]
      rw [hserved]
      exact wp_of_ok hwp hrun

/-! In one tab the first passkey was stored; the other, which has a nonce, asks again. -/

def secondTab : IdpSession :=
  ⟨"sha256:token-2", "usr_ana", "portal", 28802000000, some 602000000, some [4]⟩

def secondTabAsks : Served := ⟨twoTabs.2, .sessionOptions (bearer 2), .usual 6⟩

theorem findsPasskey_secondTab : ∃ user,
    FindsPasskey .standIn secondTabAsks (bearer 2) secondTab user := by
  have hevaluated : bearerToken .standIn (bearer 2) = some "token-2" ∧
      twoTabs.2.sessions.get (hashSessionToken .standIn "token-2") = some secondTab ∧
      (twoTabs.2.users.get "usr_ana").any User.enabled = true ∧
      twoTabs.2.hasPasskey "usr_ana" = true := by decide +kernel
  obtain ⟨htoken, hget, huser, hpasskey⟩ := hevaluated
  obtain ⟨user, howner, henabled⟩ := (Option.any_eq_true _ _).mp huser
  have hid : user.userId = "usr_ana" := Table.key_of_get howner
  exact ⟨user, rfl, ⟨⟨_, htoken, hget⟩, by decide, _, rfl, by decide⟩, howner, henabled,
    by rw [hid]; exact hpasskey⟩

theorem offer_survives_secondTab :
    secondTabAsks.answer .standIn = .error (.raised NO_ENROLLMENT) ∧
      ¬ OfferCleared secondTab.tokenHash (secondTabAsks.after .standIn) ∧
      ¬ StaysRefused .standIn (bearer 2) (secondTabAsks.after .standIn) := by
  obtain ⟨user, h⟩ := findsPasskey_secondTab
  have hsurvives := offer_survives h
  exact ⟨hsurvives.1, hsurvives.2.2.1, hsurvives.2.2.2.1⟩

/-- The call is refused, and the session stores a second passkey with the nonce it had. -/
theorem not_offer_lapses :
    ¬ ∀ (env : Env) (s : Served) (authorization : Option String) (row : IdpSession) (user : User),
      FindsPasskey env s authorization row user →
        OfferCleared row.tokenHash (s.after env) ∧
          StaysRefused env authorization (s.after env) := by
  intro h
  obtain ⟨user, hfinds⟩ := findsPasskey_secondTab
  have hrefused := (h _ _ _ _ _ hfinds).2 [] (.usual 6) .done
  have hverifies : Served.answer .standIn ⟨secondTabAsks.after .standIn,
      .sessionVerify (bearer 2) ⟨⟨some "key-2", ""⟩⟩, .usual 6⟩ = .ok .done := by
    decide +kernel
  exact hrefused.2 _ hverifies

end RbaIdp
