import RbaIdp.Lineage

/-!
# Disabled users

Most doors look at the user's `enabled` flag when they are used: the logins, the
exchange of a code, the options of both enrollments and the issue of a code.
Four do not, and go on with what an earlier request began: the two step-ups and
the two enrollments of a passkey.  `Completes` is what these four check.

Once a user is disabled, every request that does not complete a ceremony of the
user is closed to them, whatever was outstanding.
-/

namespace RbaIdp

open Relational Program

variable {env : Env} {start db : Db} {hist : List Served} {userId : String}

/-- A patch turned the user off. -/
structure Disables (env : Env) (m : Served) (userId : String) : Prop where
  answered : Answered env m
  request : ∃ op body, m.request = .admin op (.patchUser userId body) ∧ body.enabled = some false

/-- A patch turned the user on. -/
structure Enables (env : Env) (m : Served) (userId : String) : Prop where
  answered : Answered env m
  request : ∃ op body, m.request = .admin op (.patchUser userId body) ∧ body.enabled = some true

/-- A request does nothing for a user: no session, no sign-in, no passkey. -/
structure Closed (env : Env) (m : Served) (userId : String) : Prop where
  sessions : ∀ r, .artefact (.insertSession r) ∈ m.writes env → r.userId ≠ userId
  signIns : ∀ a, m.answer env = .ok a → a.authenticated ≠ some userId
  passkeys : ∀ c, .artefact (.insertCredential c) ∈ m.writes env → c.userId ≠ userId

/-- A request passes the checks of a door that does not look at the user's flag,
for a ceremony of the user. -/
inductive Completes (env : Env) (m : Served) : String → Prop where
  | stepUp {challenge : MfaChallenge}
      (request : stepUpChallenge m.request = some challenge.challengeId)
      (opened : OpenChallenge m.before.toArtefacts m.draws.now challenge.challengeId challenge)
      (factor : (factor env m.before.toArtefacts challenge m.request).isSome)
      (access : hasApplicationAccess m.before.toDirectory challenge.userId
        challenge.applicationId = true) : Completes env m challenge.userId
  | session {authorization : Option String} {body : PasskeyVerifyRequest} {row : IdpSession}
      {nonce : Bytes} {verified : VerifiedRegistration}
      (request : m.request = .sessionVerify authorization body)
      (enrolling : Enrolling env m.before.toArtefacts m.draws.now authorization row)
      (started : row.webauthnChallenge = some nonce)
      (storable : Storable env m.before.toArtefacts body.credential nonce verified) :
      Completes env m row.userId
  | code {body : ActivationVerifyRequest} {row : ActivationCode} {nonce : Bytes}
      {verified : VerifiedRegistration} (request : m.request = .activationVerify body)
      (opened : OpenCode env m.before.toArtefacts m.draws.now body.code row)
      (started : row.webauthnChallenge = some nonce)
      (storable : Storable env m.before.toArtefacts body.credential nonce verified) :
      Completes env m row.userId

/-! ## The flag -/

theorem disabled_after {m : Served} (h : Disables env m userId) :
    (m.after env).userEnabled userId = some false := by
  obtain ⟨a, hanswer⟩ := h.answered
  obtain ⟨op, body, hrequest, hbody⟩ := h.request
  obtain ⟨db, request, d⟩ := m
  subst hrequest
  exact wp_of_ok (Q := fun _ t => t.db.userEnabled userId = some false)
    (wp_answer (wp_patchUser_enabled hbody)) (Prod.ext hanswer rfl)

/-- Only a patch turns a user on again. -/
theorem disabled_kept {m : Served} (hbefore : m.before.userEnabled userId = some false)
    (hnot : ¬ Enables env m userId) : (m.after env).userEnabled userId = some false := by
  cases hanswer : m.answer env with
  | error e => rwa [Served.after_of_error hanswer]
  | ok a =>
      refine (Served.path env m).invariant (I := fun db => db.userEnabled userId = some false)
        (fun db w hdb hallows _ => ?_) hbefore
      cases hallows with
      | artefact w => exact hdb
      | lastLogin => exact userEnabled_effect nofun hdb
      | @edit op call edit hrequest _ hscoped =>
          refine userEnabled_effect (fun enabled hedit => ?_) hdb
          subst hedit
          obtain ⟨body, rfl, hbody⟩ := hscoped
          cases enabled with
          | false => rfl
          -- the one edit that turns a user on is a patch that says so
          | true => exact absurd ⟨⟨a, hanswer⟩, op, body, hrequest, hbody⟩ hnot
      | found _ hfounds =>
          refine userEnabled_effect (fun enabled hedit => ?_) hdb
          rw [hedit] at hfounds
          exact hfounds.elim

theorem Admitted.userEnabled {db : Directory} {attempt : Attempt} {user : User}
    (h : Admitted env db attempt user) : db.userEnabled user.userId = some true := by
  simp [Directory.userEnabled, h.get_user.1, h.enabled]

/-! ## One request -/

/-- A request that finds the user disabled, and does not complete a ceremony of
theirs, is closed to them. -/
theorem closed_of_disabled (hsessions : ∀ r, r ∉ start.sessions)
    (hcodes : ∀ c, c ∉ start.authCodes) {m : Served} (run : Run env start hist m.before)
    (hfresh : FreshTokens env hist) (hdisabled : m.before.userEnabled userId = some false)
    (hnot : ¬ Completes env m userId) : Closed env m userId := by
  constructor
  case sessions =>
    rintro r hr rfl
    cases Served.created hr with
    | signedIn event =>
        have henabled := event.admitted.userEnabled
        simp only [sessionRow] at hdisabled
        rw [hdisabled] at henabled
        cases henabled
    | steppedUp event => exact hnot (.stepUp event.request event.opened event.factor event.access)
    | redeemed event =>
        -- the exchange looks at the code's user, the new session has the old one's
        obtain ⟨_, -, hredeemable⟩ := event.request
        have howner := hredeemable.owner
        rw [owner_of_redeems hsessions hcodes run hfresh event] at howner
        simp [rotatedSession, Directory.userEnabled, howner, hredeemable.enabled] at hdisabled
  case signIns =>
    intro a hanswer hsigned
    rcases Served.authenticated hanswer hsigned with ⟨_, user, hadmitted, rfl⟩ | ⟨_, event, rfl⟩
    · have henabled := hadmitted.userEnabled
      rw [hdisabled] at henabled
      cases henabled
    · exact hnot (.stepUp event.request event.opened event.factor event.access)
  case passkeys =>
    rintro c hc rfl
    rcases Served.enrolls_of_mem hc with ⟨row, verified, event, rfl⟩ | ⟨row, verified, event, rfl⟩
    · obtain ⟨_, _, _, hrequest, henrolling, hnonce, hstorable⟩ := event.request
      exact hnot (.session hrequest henrolling hnonce hstorable)
    · obtain ⟨_, _, hrequest, hopen, hnonce, hstorable⟩ := event.request
      exact hnot (.code hrequest hopen hnonce hstorable)

/-! ## Any run -/

/-- **Disabling closes the doors that look.**  In any run, once a patch has
disabled a user and while none enables them, every request that does not
complete a ceremony of the user is closed to them. -/
theorem disabled_closed (hsessions : ∀ r, r ∉ start.sessions) (hcodes : ∀ c, c ∉ start.authCodes)
    {later earlier : List Served} {p : Served} (run : Run env start (later ++ p :: earlier) db)
    (hfresh : FreshTokens env (later ++ p :: earlier)) (hpatch : Disables env p userId)
    (hkept : ∀ m ∈ later, ¬ Enables env m userId) :
    ∀ m ∈ later, ¬ Completes env m userId → Closed env m userId := by
  intro m hm hnot
  have hdisabled := (run.since (I := fun db => db.userEnabled userId = some false)
    (fun x hx hbefore => disabled_kept hbefore (hkept x hx)) (disabled_after hpatch)).2 m hm
  obtain ⟨recent, between, rfl⟩ := List.append_of_mem hm
  have hsplit : (recent ++ m :: between) ++ p :: earlier =
      recent ++ m :: (between ++ p :: earlier) := by simp
  rw [hsplit] at run hfresh
  exact closed_of_disabled hsessions hcodes run.split hfresh.earlier hdisabled hnot

/-- A login completes nothing. -/
theorem not_completes_of_login {m : Served} (hlogin : m.request.isLogin = true) :
    ¬ Completes env m userId := by
  intro h
  cases h with
  | stepUp request =>
      cases hrequest : m.request <;>
        simp [hrequest, Request.isLogin, stepUpChallenge] at hlogin request
  | session request | code request =>
      rw [request] at hlogin
      cases hlogin

/-- Ana has asked for the options of an enrollment. -/
def anaEnrolls : List Served × Db :=
  play .standIn .standIn [(.sessionOptions (bearer 1), .usual 2), (anaLogsIn, .usual 1)]

/-- An operator of her tenant disables her. -/
def anaDisabled : Served :=
  ⟨anaEnrolls.2, .admin ⟨"usr_op", "acme", "acme", ∅, false⟩
    (.patchUser "usr_ana" { enabled := some false }), .usual 3⟩

/-- Then she makes another request. -/
def anaReturns (request : Request) : Served := ⟨anaDisabled.after .standIn, request, .usual 4⟩

def anaVerifies : Request := .sessionVerify (bearer 1) ⟨⟨some "key-1", ""⟩⟩

theorem run_anaReturns (request : Request) : Run .standIn .standIn
    ([anaReturns request] ++ anaDisabled :: anaEnrolls.1) ((anaReturns request).after .standIn) :=
  ((run_play _).cons _ _).cons _ _

theorem anaDisabled_evaluated : (anaDisabled.answer .standIn).isOk = true ∧
    (([anaReturns anaVerifies] ++ anaDisabled :: anaEnrolls.1).map fun s =>
      hashSessionToken .standIn s.draws.token).Nodup ∧
    (anaReturns anaVerifies).before.hasPasskey "usr_ana" = false ∧
    ((anaReturns anaVerifies).after .standIn).hasPasskey "usr_ana" = true := by
  decide +kernel

theorem disables_anaDisabled : Disables .standIn anaDisabled "usr_ana" :=
  ⟨Served.answer_of_isOk .standIn anaDisabled_evaluated.1, _, _, rfl, rfl⟩

/-- If she logs in again, nothing happens. -/
theorem disabled_closed_login : Closed .standIn (anaReturns anaLogsIn) "usr_ana" := by
  refine disabled_closed Table.not_mem_empty Table.not_mem_empty (run_anaReturns anaLogsIn)
    anaDisabled_evaluated.2.1 disables_anaDisabled (fun m hm h => ?_) _
    (List.mem_singleton.mpr rfl) (not_completes_of_login rfl)
  rw [List.mem_singleton.mp hm] at h
  obtain ⟨_, _, hrequest, -⟩ := h.request
  cases hrequest

/-- If she goes on with the enrollment, she gets her passkey. -/
theorem not_disabled_closed : ∃ later p earlier db m,
    Run .standIn .standIn (later ++ p :: earlier) db ∧
    FreshTokens .standIn (later ++ p :: earlier) ∧ Disables .standIn p "usr_ana" ∧
    (∀ m ∈ later, ¬ Enables .standIn m "usr_ana") ∧ m ∈ later ∧ ¬ Closed .standIn m "usr_ana" := by
  obtain ⟨-, hfresh, hbefore, hafter⟩ := anaDisabled_evaluated
  refine ⟨_, _, _, _, anaReturns anaVerifies, run_anaReturns anaVerifies, hfresh,
    disables_anaDisabled, fun m hm h => ?_, List.mem_singleton.mpr rfl, fun hclosed => ?_⟩
  · rw [List.mem_singleton.mp hm] at h
    obtain ⟨_, _, hrequest, -⟩ := h.request
    cases hrequest
  · obtain ⟨c, hc, huser⟩ := Artefacts.hasPasskey_eq_true.mp hafter
    rcases Served.credentials_after hc with ⟨old, hold, -, hsame⟩ | ⟨new, hnew, -, hsame⟩
    · exact Artefacts.hasPasskey_eq_false.mp hbefore old hold (hsame.trans huser)
    · exact hclosed.passkeys new hnew (hsame.trans huser)

end RbaIdp
