import RbaIdp.Lineage

/-!
# Sessions and the applications they are for

A session is for a user and an application.  `Admits` says when the application
admits the user: both are of one tenant, the application is enabled, and the user
holds a role on it.  A login checks all of it in the state in which it creates the
session.  A step-up comes later, and checks the role again; that both are of one
tenant is a fact about the run, and whether the application is still enabled is
not looked at.
-/

namespace RbaIdp

open Relational Program

variable {env : Env} {start db : Db} {hist : List Served} {s : Served}

/-- An application admits a user. -/
structure Admits (db : Directory) (userId applicationId : String) : Prop where
  enabled : db.applicationEnabled applicationId = some true
  oneTenant : ∃ tenantId, db.userTenant userId = some tenantId ∧
    db.applicationTenant applicationId = some tenantId
  role : ∃ r ∈ db.roles, r.applicationId = applicationId ∧
    ∃ gr ∈ db.groupRoles, gr.roleId = r.roleId ∧
      ∃ m ∈ db.groupMemberships, m.groupId = gr.groupId ∧ m.userId = userId

/-! ## Logins -/

/-- The attempt of a login is for an enabled application of the tenant it looks
for the user in. -/
theorem application_of_attempt {db : Directory} {request : Request} {a : Attempt}
    (h : attemptOf env db request = some a) :
    db.applicationEnabled a.applicationId = some true ∧
      db.applicationTenant a.applicationId = some a.tenantId := by
  cases request with
  | login body deviceCookie =>
      obtain ⟨app, hfound, rfl⟩ := Option.map_eq_some_iff.mp h
      obtain ⟨hget, henabled⟩ := Option.filter_eq_some_iff.mp hfound
      simp [Directory.applicationEnabled, Directory.applicationTenant, loginAttempt, hget, henabled]
  | consoleLogin body deviceCookie =>
      obtain ⟨tenant, -, hrest⟩ := Option.bind_eq_some_iff.mp h
      obtain ⟨console, hconsole, rfl⟩ := Option.map_eq_some_iff.mp hrest
      simp only [consoleOf, Option.bind_some] at hconsole
      obtain ⟨consoleId, -, hfound⟩ := Option.bind_eq_some_iff.mp hconsole
      obtain ⟨app, hfilter, rfl⟩ := Option.map_eq_some_iff.mp hfound
      obtain ⟨hget, hok⟩ := Option.filter_eq_some_iff.mp hfilter
      simp only [Bool.and_eq_true, beq_iff_eq] at hok
      have hkey : app.applicationId = consoleId := Table.key_of_get hget
      simp [Directory.applicationEnabled, Directory.applicationTenant, consoleAttempt, hkey, hget,
        hok]
  | _ => cases h

theorem oneTenant_of_admitted {db : Directory} {request : Request} {a : Attempt} {user : User}
    (hattempt : attemptOf env db request = some a) (hadmitted : Admitted env db a user) :
    db.userTenant user.userId = some a.tenantId ∧
      db.applicationTenant a.applicationId = some a.tenantId := by
  obtain ⟨hget, htenant⟩ := hadmitted.get_user
  exact ⟨by simp [Directory.userTenant, hget, htenant], (application_of_attempt hattempt).2⟩

theorem role_of_access {db : Directory} {userId applicationId : String}
    (h : hasApplicationAccess db userId applicationId = true) :
    ∃ r ∈ db.roles, r.applicationId = applicationId ∧
      ∃ gr ∈ db.groupRoles, gr.roleId = r.roleId ∧
        ∃ m ∈ db.groupMemberships, m.groupId = gr.groupId ∧ m.userId = userId := by
  obtain ⟨r, hr, happ, hholds⟩ := hasApplicationAccess_iff.mp h
  exact ⟨r, hr, happ, holdsRole_iff.mp hholds⟩

/-! ## Challenges -/

/-- A challenge is for a user and an application of one tenant. -/
theorem oneTenant_run (hstart : ∀ c, c ∉ start.mfaChallenges) (run : Run env start hist db) :
    ∀ c ∈ db.mfaChallenges, ∃ tenantId, db.userTenant c.userId = some tenantId ∧
      db.applicationTenant c.applicationId = some tenantId := by
  induction run with
  | nil => exact fun c hc => absurd hc (hstart c)
  | @cons hist db init request draws ih =>
      intro c hc
      have hkept : ∀ {userId applicationId tenantId : String},
          OneTenant userId applicationId tenantId db →
          OneTenant userId applicationId tenantId (Served.after env ⟨db, request, draws⟩) :=
        fun h => commit_invariant oneTenant_invariant (Served.commit_writes env _) h
      rcases Served.challenges_after hc with ⟨old, hold, -, huser, happ⟩ |
        ⟨a, user, challenge, event, -, huser, happ⟩
      · obtain ⟨tenantId, htenant⟩ := ih old hold
        rw [huser, happ] at htenant
        exact ⟨tenantId, hkept htenant⟩
      · obtain ⟨_, rfl⟩ := event.challenge
        rw [← huser, ← happ]
        exact ⟨a.tenantId, hkept (oneTenant_of_admitted event.attempt event.admitted)⟩

/-! ## Any run -/

/-- The application of the step-up a request completes, if it does complete one,
is enabled. -/
def StepsUpEnabled (s : Served) : Prop :=
  ∀ challengeId challenge, stepUpChallenge s.request = some challengeId →
    s.before.mfaChallenges.get challengeId = some challenge →
    s.before.applicationEnabled challenge.applicationId = some true

/-- A login completes no step-up. -/
theorem stepUpChallenge_of_isLogin {request : Request} (h : request.isLogin = true)
    {challengeId : String} : stepUpChallenge request ≠ some challengeId := by
  cases request <;> simp [Request.isLogin, stepUpChallenge] at h ⊢

theorem admits_iff (hstart : ∀ c, c ∉ start.mfaChallenges) (run : Run env start hist s.before)
    {r : IdpSession} (h : Opens env s r) :
    Admits s.before.toDirectory r.userId r.applicationId ↔ StepsUpEnabled s := by
  cases Served.created h.created with
  | signedIn event =>
      have happ := application_of_attempt event.attempt
      refine iff_of_true ⟨happ.1, ⟨_, oneTenant_of_admitted event.attempt event.admitted⟩,
        role_of_access event.admitted.access⟩ fun _ _ hstep _ => ?_
      exact absurd hstep (stepUpChallenge_of_isLogin event.isLogin)
  | steppedUp event =>
      constructor
      · intro hadmits challengeId challenge hstep hget
        obtain rfl := Option.some.inj (event.request.symm.trans hstep)
        obtain rfl := Option.some.inj (event.opened.found.symm.trans hget)
        exact hadmits.enabled
      · intro henabled
        refine ⟨henabled _ _ event.request event.opened.found, ?_, role_of_access event.access⟩
        exact oneTenant_run hstart run _ (Table.mem_of_get event.opened.found)
  | redeemed event =>
      obtain ⟨_, hrequest, -⟩ := event.request
      rcases h.event with ⟨_, _, other⟩ | ⟨_, other⟩
      · have hlogin := other.isLogin
        rw [hrequest] at hlogin
        cases hlogin
      · have hstep := other.request
        rw [hrequest] at hstep
        cases hstep

/-- A session a step-up creates is for the user and the application of its
challenge. -/
theorem session_of_stepsUp {challengeId : String} {challenge : MfaChallenge}
    (hstep : stepUpChallenge s.request = some challengeId)
    (hget : s.before.mfaChallenges.get challengeId = some challenge) {r : IdpSession}
    (h : .artefact (.insertSession r) ∈ s.writes env) :
    r.userId = challenge.userId ∧ r.applicationId = challenge.applicationId := by
  obtain ⟨completed, event, rfl, huser, happ⟩ := Served.stepsUp_of_created hstep h
  obtain rfl := Option.some.inj (event.opened.found.symm.trans hget)
  exact ⟨huser, happ⟩

/-- **Sessions are for applications that admit the user, but for those disabled
during a step-up.**  In any run, a login or a step-up creates a session for an
application that admits the user exactly if the application of the step-up, where
it is one, is enabled; and a challenge never yields a session for anyone else, or
for anything else, than it was opened for. -/
theorem session_admitted_iff (hstart : ∀ c, c ∉ start.mfaChallenges) (run : Run env start hist db) :
    (∀ m ∈ hist, m.request.opens = true → ∀ r, .artefact (.insertSession r) ∈ m.writes env →
      (Admits m.before.toDirectory r.userId r.applicationId ↔ StepsUpEnabled m)) ∧
    ∀ later p earlier, hist = later ++ p :: earlier →
      ∀ c, .artefact (.insertChallenge c) ∈ p.writes env →
      ∀ m ∈ later, stepUpChallenge m.request = some c.challengeId →
      ∀ r, .artefact (.insertSession r) ∈ m.writes env →
        r.userId = c.userId ∧ r.applicationId = c.applicationId := by
  constructor
  · intro m hm hrequest r hr
    obtain ⟨later, earlier, rfl⟩ := List.append_of_mem hm
    exact admits_iff hstart run.split (opens_of_mem hrequest hr)
  · rintro later p earlier rfl c hc m hm hstep r hr
    have hopened : ChallengeFor c.challengeId c.userId c.applicationId (p.after env) :=
      commit_establishes (fun v _ => challenge_invariant v) (fun _ => challenge_of_insert) hc
        (p.commit_writes env)
    obtain ⟨row, hget, huser, happ⟩ := (run.since (fun x _ =>
      commit_invariant challenge_invariant (x.commit_writes env)) hopened).2 m hm
    rw [← huser, ← happ]
    exact session_of_stepsUp hstep hget hr

/-- Ana, who has a passkey, logs in while the risk engine is down and is asked
for it. -/
def anaIsAsked : List (Request × Draws) :=
  [(.webauthnOptions ⟨"challenge-4"⟩, .numbered 5), (anaLogsIn, .numbered 4),
    (.sessionVerify (bearer 1) ⟨⟨some "key-1", ""⟩⟩, .numbered 3),
    (.sessionOptions (bearer 1), .numbered 2), (anaLogsIn, .usual 1)]

/-- She answers with the passkey. -/
def anaAnswers (hist : List (Request × Draws)) : Served :=
  ⟨(play .standIn .standIn hist).2, .verifyWebauthn ⟨"challenge-4", ⟨some "key-1", ""⟩, none⟩,
    .numbered 7⟩

/-- In between, an operator disables the portal. -/
def portalDisabled : List (Request × Draws) :=
  (.admin ⟨"usr_op", "acme", "acme", ∅, false⟩
    (.patchApplication "portal" { enabled := some false }), .numbered 6) :: anaIsAsked

theorem anaAnswers_evaluated : ∀ hist ∈ [anaIsAsked, portalDisabled],
    (((anaAnswers hist).after .standIn).sessions.get "sha256:token-7").map
      IdpSession.applicationId = some "portal" ∧
    (anaAnswers hist).before.sessions.get "sha256:token-7" = none ∧
    ((anaAnswers hist).before.mfaChallenges.get "challenge-4").map MfaChallenge.applicationId =
      some "portal" ∧
    (anaAnswers hist).before.applicationEnabled "portal" = some (decide (hist.length = 5)) := by
  decide +kernel

theorem run_anaAnswers (hist : List (Request × Draws)) : Run .standIn .standIn
    (anaAnswers hist :: (play .standIn .standIn hist).1) ((anaAnswers hist).after .standIn) :=
  (run_play hist).cons _ _

/-- Either way her answer opens a session for the portal. -/
theorem opens_anaAnswers {hist : List (Request × Draws)}
    (hhist : hist ∈ [anaIsAsked, portalDisabled]) :
    ∃ r, Opens .standIn (anaAnswers hist) r ∧ r.applicationId = "portal" := by
  obtain ⟨hsession, hnew, -⟩ := anaAnswers_evaluated hist hhist
  obtain ⟨r, hr, happ⟩ := Option.map_eq_some_iff.mp hsession
  refine ⟨r, opens_of_new rfl (Table.mem_of_get hr) fun hmem => ?_, happ⟩
  exact Table.get_eq_none.mp hnew r hmem (Table.key_of_get hr)

/-- While the portal is enabled, it admits her. -/
theorem session_admitted_iff_asked : ∃ r, Opens .standIn (anaAnswers anaIsAsked) r ∧
    Admits (anaAnswers anaIsAsked).before.toDirectory r.userId r.applicationId := by
  obtain ⟨-, -, hchallenge, henabled⟩ := anaAnswers_evaluated anaIsAsked (by simp)
  obtain ⟨r, hopens, -⟩ := opens_anaAnswers (List.mem_cons_self ..)
  have hstepsUp : StepsUpEnabled (anaAnswers anaIsAsked) := by
    intro challengeId challenge hstep hget
    obtain rfl : "challenge-4" = challengeId := Option.some.inj hstep
    rw [hget, Option.map_some, Option.some.injEq] at hchallenge
    rw [hchallenge]
    exact henabled
  exact ⟨r, hopens, ((session_admitted_iff Table.not_mem_empty (run_anaAnswers anaIsAsked)).1 _
    (List.mem_cons_self ..) rfl r hopens.created).mpr hstepsUp⟩

/-- Once it is disabled, her answer opens a session for it all the same. -/
theorem not_session_admitted : ∃ hist m db r, Run .standIn .standIn hist db ∧ m ∈ hist ∧
    m.request.opens = true ∧ .artefact (.insertSession r) ∈ m.writes .standIn ∧
    ¬ Admits m.before.toDirectory r.userId r.applicationId := by
  obtain ⟨-, -, -, hdisabled⟩ := anaAnswers_evaluated portalDisabled (by simp)
  obtain ⟨r, hopens, happ⟩ := opens_anaAnswers (List.mem_cons_of_mem _ (List.mem_cons_self ..))
  refine ⟨_, anaAnswers portalDisabled, _, r, run_anaAnswers portalDisabled, List.mem_cons_self ..,
    rfl, hopens.created, fun hadmits => ?_⟩
  have henabled := hadmits.enabled
  rw [happ, hdisabled] at henabled
  cases henabled

end RbaIdp
