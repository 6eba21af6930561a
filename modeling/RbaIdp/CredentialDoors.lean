import RbaIdp.Effects.Serve

/-!
# The doors that take a password

A login at an application, a login at the console and the first step of an
enrollment by code check a password.  Each has many ways to fail and each way
leaves by its own exit; `Fails` lists them, door by door.  Whatever the exit, the
answer is the one refusal of the door, bcrypt has run once, and nothing is
written.
-/

namespace RbaIdp

open Relational Program

/-- One bcrypt comparison. -/
def Call.isCheckpw : Call → Bool
  | .checkpw _ _ => true
  | _ => false

/-- How often bcrypt has run. -/
def bcryptRuns (calls : List Call) : ℕ := calls.countP Call.isCheckpw

/-! ## Ways to fail -/

/-- An email and a password that name no enabled user of the tenant. -/
inductive WrongCredentials (env : Env) (db : Directory) (tenantId email password : String) : Prop
    where
  | unknownUser (huser : userByEmail env db tenantId email = none)
  | disabledUser {user : User} (huser : userByEmail env db tenantId email = some user)
      (hdisabled : user.enabled = false)
  | wrongPassword {user : User} (huser : userByEmail env db tenantId email = some user)
      (hpassword : passwordMatches env password (some user.passwordHash) = false)

/-- A console login that fails before the risk decision. -/
inductive ConsoleFails (env : Env) (db : Directory) (body : ConsoleLoginRequest) : Prop where
  | noDomain (hdomain : emailDomain env body.email = "")
  | unregisteredDomain (hdomain : db.tenantDomains.get (emailDomain env body.email) = none)
  | unknownTenant {row : TenantDomain}
      (hdomain : db.tenantDomains.get (emailDomain env body.email) = some row)
      (htenant : db.tenants.get row.tenantId = none)
  | noConsole {tenant : Tenant} (htenant : tenantForOperatorEmail env db body.email = some tenant)
      (hconsole : consoleOf db (some tenant) = none)
  | credentials {tenant : Tenant} (htenant : tenantForOperatorEmail env db body.email = some tenant)
      (hwrong : WrongCredentials env db tenant.tenantId body.email body.password)
  | noRole {tenant : Tenant} {console : String} {user : User}
      (htenant : tenantForOperatorEmail env db body.email = some tenant)
      (hconsole : consoleOf db (some tenant) = some console)
      (huser : userByEmail env db tenant.tenantId body.email = some user)
      (haccess : hasApplicationAccess db user.userId console = false)

/-- The use of a code that fails before the browser is asked for a passkey. -/
inductive ActivationFails (env : Env) (db : Db) (now : Time) (body : ActivationOptionsRequest) :
    Prop where
  | unknownCode (hcode : db.activationCodes.get (hashCode env body.code) = none)
  | consumedCode {row : ActivationCode}
      (hcode : db.activationCodes.get (hashCode env body.code) = some row)
      (hconsumed : row.consumedAt.isSome)
  | expiredCode {row : ActivationCode}
      (hcode : db.activationCodes.get (hashCode env body.code) = some row)
      (hexpired : row.expiresAt ≤ now)
  | unknownUser {row : ActivationCode}
      (hcode : db.activationCodes.get (hashCode env body.code) = some row)
      (huser : db.users.get row.userId = none)
  | disabledUser {row : ActivationCode} {user : User}
      (hcode : db.activationCodes.get (hashCode env body.code) = some row)
      (huser : db.users.get row.userId = some user) (hdisabled : user.enabled = false)
  | wrongPassword {row : ActivationCode} {user : User}
      (hcode : db.activationCodes.get (hashCode env body.code) = some row)
      (huser : db.users.get row.userId = some user)
      (hpassword : passwordMatches env body.password (some user.passwordHash) = false)

inductive Door where
  | console
  | application
  | activation

/-- A request that fails at a door. -/
inductive Fails (env : Env) (s : Served) : Door → Prop where
  | console {body : ConsoleLoginRequest} {deviceCookie : Option String}
      (hrequest : s.request = .consoleLogin body deviceCookie)
      (hfails : ConsoleFails env s.before.toDirectory body) : Fails env s .console
  | application {body : LoginRequest} {deviceCookie : Option String} {app : Application}
      (hrequest : s.request = .login body deviceCookie)
      (happ : s.before.applications.get body.applicationId = some app)
      (henabled : app.enabled = true)
      (hfails :
        WrongCredentials env s.before.toDirectory app.tenantId body.email body.password) :
      Fails env s .application
  | activation {body : ActivationOptionsRequest} (hrequest : s.request = .activationOptions body)
      (hfails : ActivationFails env s.before s.draws.now body) : Fails env s .activation

/-- How a door refuses. -/
def Door.refusal : Door → Except (Failure HTTPException) Answer
  | .console | .application => .ok (.login { outcome := .INVALID_CREDENTIALS })
  | .activation => .error (.raised ⟨400, "invalid or expired code"⟩)

variable {env : Env} {d : Draws}

/-- With wrong credentials, a user who is there and enabled has another password. -/
theorem WrongCredentials.mismatch {db : Directory} {tenantId email password : String} {user : User}
    (h : WrongCredentials env db tenantId email password)
    (huser : userByEmail env db tenantId email = some user) (henabled : user.enabled = true) :
    passwordMatches env password (some user.passwordHash) = false := by
  cases h with
  | unknownUser hnone => simp [huser] at hnone
  | disabledUser hfound hdisabled =>
      obtain rfl := Option.some.inj (huser.symm.trans hfound)
      simp [henabled] at hdisabled
  | wrongPassword hfound hpassword =>
      obtain rfl := Option.some.inj (huser.symm.trans hfound)
      exact hpassword

/-- No user of the tenant passes with wrong credentials. -/
theorem WrongCredentials.not_admitted {db : Directory} {a : Attempt} {user : User}
    (h : WrongCredentials env db a.tenantId a.email a.password) : ¬ Admitted env db a user := by
  intro hadmitted
  have hmismatch := h.mismatch hadmitted.found hadmitted.enabled
  exact Bool.false_ne_true (hmismatch.symm.trans hadmitted.password)

theorem tenantForOperatorEmail_eq_none {db : Directory} {email : String} :
    tenantForOperatorEmail env db email = none ↔
      emailDomain env email = "" ∨ db.tenantDomains.get (emailDomain env email) = none ∨
        ∃ row, db.tenantDomains.get (emailDomain env email) = some row ∧
          db.tenants.get row.tenantId = none := by
  unfold tenantForOperatorEmail
  by_cases hdomain : emailDomain env email = ""
  · simp [hdomain]
  · cases hrow : db.tenantDomains.get (emailDomain env email) <;> simp [hdomain, hrow]

/-- A login that gets as far as a console fails by its credentials, or for want of a role. -/
theorem ConsoleFails.at_console {db : Directory} {body : ConsoleLoginRequest} {tenant : Tenant}
    {console : String} (h : ConsoleFails env db body)
    (htenant : tenantForOperatorEmail env db body.email = some tenant)
    (hconsole : consoleOf db (some tenant) = some console) :
    WrongCredentials env db tenant.tenantId body.email body.password ∨
      ∃ user, userByEmail env db tenant.tenantId body.email = some user ∧
        hasApplicationAccess db user.userId console = false := by
  have hsome : ¬ tenantForOperatorEmail env db body.email = none := by simp [htenant]
  rw [tenantForOperatorEmail_eq_none] at hsome
  cases h with
  | noDomain hdomain => exact absurd (Or.inl hdomain) hsome
  | unregisteredDomain hdomain => exact absurd (Or.inr (Or.inl hdomain)) hsome
  | unknownTenant hdomain hnone => exact absurd (Or.inr (Or.inr ⟨_, hdomain, hnone⟩)) hsome
  | noConsole htenant' hnone =>
      obtain rfl := Option.some.inj (htenant.symm.trans htenant')
      simp [hconsole] at hnone
  | credentials htenant' hwrong =>
      obtain rfl := Option.some.inj (htenant.symm.trans htenant')
      exact Or.inl hwrong
  | noRole htenant' hconsole' huser haccess =>
      obtain rfl := Option.some.inj (htenant.symm.trans htenant')
      obtain rfl := Option.some.inj (hconsole.symm.trans hconsole')
      exact Or.inr ⟨_, huser, haccess⟩

/-! ## One way out -/

/-- Nothing was written, and bcrypt has run once more. -/
structure ComparedOnce (t t' : World) : Prop where
  writes : t'.writes = t.writes
  runs : bcryptRuns t'.calls = bcryptRuns t.calls + 1

theorem wp_authenticate_fails {attempt : Attempt} {Q : LoginResponse → World → Prop}
    {E : World → Prop} {t : World}
    (hfails : WrongCredentials env t.db.toDirectory attempt.tenantId attempt.email
        attempt.password ∨
      attempt.uniformFailures = true ∧ ∃ user,
        userByEmail env t.db.toDirectory attempt.tenantId attempt.email = some user ∧
          hasApplicationAccess t.db.toDirectory user.userId attempt.applicationId = false)
    (hok : ∀ t', ComparedOnce t t' → Q { outcome := .INVALID_CREDENTIALS } t') :
    (authenticate env d attempt).wp Q E t := by
  have hcompared : ∀ password digest, ComparedOnce t
      { t with calls := t.calls ++ [.checkpw password digest] } := fun _ _ =>
    ⟨rfl, by simp [bcryptRuns, Call.isCheckpw]⟩
  -- the report of a wrong password is no comparison
  have hreported : ∀ password digest request reply, ComparedOnce t
      { t with calls := t.calls ++ [.checkpw password digest] ++ [.evaluate request reply] } :=
    fun _ _ _ _ => ⟨rfl, by simp [bcryptRuns, List.countP_cons, Call.isCheckpw]⟩
  simp only [authenticate, wp_bind, checkCredentials, wp_transaction, wp_read]
  cases hfound : (userByEmail env t.db.toDirectory attempt.tenantId attempt.email).filter
      User.enabled with
  | none =>
      simp only [verifyPassword, wp_bind, wp_call, wp_pure]
      exact hok _ (hcompared _ _)
  | some user =>
      obtain ⟨huser, henabled⟩ := Option.filter_eq_some_iff.mp hfound
      simp only [verifyPassword, wp_bind, wp_call, wp_pure, wp_ite, wp_read, reportFailedLogin,
        wp_when]
      refine ⟨fun hmatched => ⟨fun haccess => ?_, fun _ => ⟨fun _ => hok _ (hcompared _ _),
        fun huniform => ?_⟩⟩, fun _ => ⟨fun _ => ⟨fun _ => hok _ (hreported _ _ _ _),
        fun _ => hok _ (hcompared _ _)⟩, fun _ => hok _ (hcompared _ _)⟩⟩
      all_goals exfalso
      · rcases hfails with hwrong | ⟨-, other, hother, hdenied⟩
        · exact hwrong.not_admitted ⟨huser, henabled, hmatched, haccess⟩
        · obtain rfl := Option.some.inj (huser.symm.trans hother)
          exact Bool.false_ne_true (hdenied.symm.trans haccess)
      · rcases hfails with hwrong | ⟨h, -⟩
        · have hmismatch := hwrong.mismatch huser henabled
          exact Bool.false_ne_true (hmismatch.symm.trans hmatched)
        · exact huniform h

theorem wp_login_fails {body : LoginRequest} {deviceCookie : Option String} {app : Application}
    {Q : LoginResponse → World → Prop} {E : World → Prop} {t : World}
    (happ : t.db.applications.get body.applicationId = some app) (henabled : app.enabled = true)
    (hfails : WrongCredentials env t.db.toDirectory app.tenantId body.email body.password)
    (hok : ∀ t', ComparedOnce t t' → Q { outcome := .INVALID_CREDENTIALS } t') :
    (login env d body deviceCookie).wp Q E t := by
  simp only [login, wp_bind, wp_transaction, wp_read, happ, Option.filter_some, henabled, if_true,
    wp_require]
  refine ⟨fun hnone => absurd hnone (Option.some_ne_none _), fun a ha => ?_⟩
  obtain rfl := Option.some.inj ha
  exact wp_authenticate_fails (Or.inl hfails) hok

theorem wp_consoleLogin_fails {body : ConsoleLoginRequest} {deviceCookie : Option String}
    {Q : LoginResponse → World → Prop} {E : World → Prop} {t : World}
    (hfails : ConsoleFails env t.db.toDirectory body)
    (hok : ∀ t', ComparedOnce t t' → Q { outcome := .INVALID_CREDENTIALS } t') :
    (consoleLogin env d body deviceCookie).wp Q E t := by
  have hnowhere : ∀ digest, ComparedOnce t
      { t with calls := t.calls ++ [.checkpw body.password digest] } := fun _ =>
    ⟨rfl, by simp [bcryptRuns, Call.isCheckpw]⟩
  simp only [consoleLogin, wp_bind, wp_transaction, wp_read, wp_pure]
  split
  · next tenant console hfound =>
      obtain ⟨htenant, hconsole⟩ := Prod.mk.inj hfound
      rw [htenant] at hconsole
      refine wp_authenticate_fails ?_ hok
      exact (hfails.at_console htenant hconsole).imp_right fun hdenied => ⟨rfl, hdenied⟩
  · simp only [verifyPassword, wp_bind, wp_call, wp_pure]
    exact hok _ (hnowhere _)

/-- The row of a code and its user, when both can still be used. -/
theorem ActivationFails.not_usable {db : Db} {body : ActivationOptionsRequest}
    (h : ActivationFails env db d.now body) {row : ActivationCode} {user : User}
    (hrow : openCode env d db.toArtefacts body.code = some row)
    (huser : (db.users.get row.userId).filter User.enabled = some user) :
    passwordMatches env body.password (some user.passwordHash) = false := by
  obtain ⟨hcode, hopen⟩ := Option.filter_eq_some_iff.mp hrow
  obtain ⟨huser, henabled⟩ := Option.filter_eq_some_iff.mp huser
  simp only [Bool.and_eq_true, Option.isNone_iff_eq_none, decide_eq_true_eq] at hopen
  have hsame : ∀ {row'}, db.activationCodes.get (hashCode env body.code) = some row' →
      row' = row := fun h => Option.some.inj (h.symm.trans hcode)
  cases h with
  | unknownCode h => simp [hcode] at h
  | consumedCode h hconsumed => simp [hsame h, hopen.1] at hconsumed
  | expiredCode h hexpired =>
      rw [hsame h] at hexpired
      exact absurd hopen.2 (not_lt.mpr hexpired)
  | unknownUser h hnone => simp [hsame h, huser] at hnone
  | disabledUser h huser' hdisabled =>
      rw [hsame h] at huser'
      obtain rfl := Option.some.inj (huser.symm.trans huser')
      simp [henabled] at hdisabled
  | wrongPassword h huser' hpassword =>
      rw [hsame h] at huser'
      obtain rfl := Option.some.inj (huser.symm.trans huser')
      exact hpassword

theorem run_activationOptions_fails {body : ActivationOptionsRequest} {t : World}
    (hfails : ActivationFails env t.db d.now body) :
    ∃ t', (activationOptions env d body).run t = (.error (.raised INVALID_CODE), t') ∧
      ComparedOnce t t' := by
  have hcompared : ∀ digest, ComparedOnce t
      { t with calls := t.calls ++ [.checkpw body.password digest] } := fun _ =>
    ⟨rfl, by simp [bcryptRuns, Call.isCheckpw]⟩
  refine ⟨_, ?_, hcompared (digestOf env (((openCode env d t.db.toArtefacts body.code).bind
    fun row => t.db.users.get row.userId).filter User.enabled |>.map User.passwordHash))⟩
  cases hrow : openCode env d t.db.toArtefacts body.code with
  | none => simp [activationOptions, transaction, run_bind, verifyPassword, call, hrow]
  | some row =>
      cases huser : (t.db.users.get row.userId).filter User.enabled with
      | none => simp [activationOptions, transaction, run_bind, verifyPassword, call, hrow, huser]
      | some user =>
          have hno := hfails.not_usable hrow huser
          simp [activationOptions, transaction, run_bind, verifyPassword, call, raiseIf, hrow,
            huser, hno]

/-! ## The law -/

/-- What two failures at one door have in common, and what the first one does. -/
structure RefusalLaw (env : Env) (door : Door) (s s' : Served) : Prop where
  alike : s.answer env = s'.answer env
  refused : s.answer env = door.refusal
  comparedOnce : bcryptRuns (s.calls env) = 1
  nothingWritten : s.writes env = []

theorem Fails.refused {door : Door} {s : Served} (h : Fails env s door) :
    s.answer env = door.refusal ∧ ComparedOnce ⟨s.before, [], []⟩ (s.outcome env).2 := by
  obtain ⟨db, request, draws⟩ := s
  have hlogin : ∀ {m : App LoginResponse}, serve env draws request = answer m .login →
      (∀ {Q E}, (∀ t', ComparedOnce ⟨db, [], []⟩ t' → Q { outcome := .INVALID_CREDENTIALS } t') →
        m.wp Q E ⟨db, [], []⟩) →
      Served.answer env ⟨db, request, draws⟩ =
          .ok (.login { outcome := .INVALID_CREDENTIALS }) ∧
        ComparedOnce ⟨db, [], []⟩ (Served.outcome env ⟨db, request, draws⟩).2 := by
    intro m hserve hm
    have hwp : (serve env draws request).wp
        (fun a t' => a = .login { outcome := .INVALID_CREDENTIALS } ∧
          ComparedOnce ⟨db, [], []⟩ t') (fun _ => False) ⟨db, [], []⟩ := by
      rw [hserve]
      exact wp_answer (hm fun t' ht' => ⟨rfl, ht'⟩)
    rcases hrun : (serve env draws request).run ⟨db, [], []⟩ with ⟨e | a, t'⟩
    · exact (wp_of_error hwp hrun).elim
    · obtain ⟨rfl, hcompared⟩ := wp_of_ok hwp hrun
      simp only [Served.answer, Served.outcome, hrun]
      exact ⟨trivial, hcompared⟩
  cases h with
  | console hrequest hfails =>
      cases hrequest
      exact hlogin rfl (wp_consoleLogin_fails hfails)
  | application hrequest happ henabled hfails =>
      cases hrequest
      exact hlogin rfl (wp_login_fails happ henabled hfails)
  | activation hrequest hfails =>
      cases hrequest
      obtain ⟨t', hrun, hcompared⟩ :=
        run_activationOptions_fails (t := ⟨db, [], []⟩) (d := draws) hfails
      simp only [Served.answer, Served.outcome, serve, answer, run_bind, hrun]
      exact ⟨rfl, hcompared⟩

/-- **No credential door is an oracle.**  Whatever the states, the requests and
the exits taken, two failures at one door are answered alike, each after exactly
one comparison and with nothing written. -/
theorem refusals_alike {door : Door} {s s' : Served} (h : Fails env s door)
    (h' : Fails env s' door) : RefusalLaw env door s s' where
  alike := h.refused.1.trans h'.refused.1.symm
  refused := h.refused.1
  comparedOnce := by simpa [bcryptRuns, Served.calls] using h.refused.2.runs
  nothingWritten := h.refused.2.writes

/-- A login at the portal as somebody else. -/
def portalLogin (email password : String) : Served :=
  ⟨.standIn, .login {
    ipAddress := "127.0.0.1"
    asn := none
    country := none
    deviceType := none
    os := none
    browser := none
    userAgent := none
    applicationId := "portal"
    email := email
    password := password
    redirectUri := none } none, .usual 1⟩

/-- An unknown user and a wrong password. -/
theorem refusals_alike_portal : RefusalLaw .standIn .application
    (portalLogin "eve@acme" "clave") (portalLogin "ana@acme" "llave") :=
  refusals_alike (.application rfl rfl rfl (.unknownUser (by decide +kernel)))
    (.application rfl rfl rfl (.wrongPassword rfl (by decide +kernel)))

end RbaIdp
