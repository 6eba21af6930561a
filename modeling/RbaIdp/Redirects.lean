import RbaIdp.Db.Rows
import RbaIdp.Effects.StepUp
import RbaIdp.HostedPage

/-!
# The page and the service on redirects

`match_redirect_uri` reads a redirect that is not asked for as the registered one.
The page asks for none when its query names another URI than the registered one, so
a login through the page goes where the service alone would not send it
(`page_redirects_iff`).  What the service does is said once, for any request that may
sign somebody in (`callsBack_of_post`).
-/

namespace RbaIdp

open Relational Program

variable {env : Env} {d : Draws} {request : HttpRequest} {t t' : World}

/-! ## The redirect asked for -/

/-- A registered URI, and a request for another one. -/
def AsksElsewhere (registered requested : Option String) : Prop :=
  ∃ uri other, registered = some uri ∧ requested = some other ∧ uri ≠ "" ∧ other ≠ "" ∧ other ≠ uri

/-- The service redirects to a registered URI unless another one is asked for. -/
theorem matchRedirectUri_isSome (registered requested : Option String) :
    (matchRedirectUri registered requested).isSome ↔
      (nonEmpty registered).isSome ∧ ¬ AsksElsewhere registered requested := by
  cases registered with
  | none => simp [matchRedirectUri, nonEmpty]
  | some uri =>
      by_cases huri : uri = ""
      · simp [matchRedirectUri, nonEmpty, huri]
      cases requested with
      | none => simp [matchRedirectUri, nonEmpty, AsksElsewhere, huri]
      | some other =>
          by_cases hother : other = "" ∨ other = uri
          · rcases hother with rfl | rfl <;> simp [matchRedirectUri, nonEmpty, AsksElsewhere, huri]
          · rw [not_or] at hother
            simp [matchRedirectUri, nonEmpty, AsksElsewhere, huri, hother]

/-- What the page posts asks for the registered URI or for none. -/
theorem matchRedirectUri_pageRedirect (registered requested : Option String) :
    matchRedirectUri registered (nonEmpty (pageRedirect registered requested)) =
      nonEmpty registered := by
  cases registered with
  | none => rfl
  | some uri =>
      by_cases huri : uri = ""
      · subst huri
        rfl
      · have hregistered : nonEmpty (some uri) = some uri := by simp [nonEmpty, huri]
        have hasked : pageRedirect (some uri) requested = some uri ∨
            pageRedirect (some uri) requested = none := by
          rw [pageRedirect, hregistered, Option.filter_some]
          split
          · exact Or.inl rfl
          · exact Or.inr rfl
        rcases hasked with hasked | hasked
        · simp [hasked, hregistered, matchRedirectUri, huri]
        · rw [hasked, hregistered]
          simp [nonEmpty, matchRedirectUri, huri]

/-! ## The application signed in to -/

/-- The application id a login goes by. -/
def resolvedId (db : Directory) (body : LoginBody) : String :=
  match body.clientId with
  | none => body.applicationId
  | some clientId =>
      (nonEmpty ((db.applications.first? fun app => app.clientId == some clientId).map
        Application.applicationId)).getD ("unknown:" ++ clientId)

/-- The application of a request, as the database has it. -/
def SignIn.application (db : Db) : SignIn → Option Application
  | login body => db.applications.get (resolvedId db.toDirectory body)
  | webauthn body =>
      (db.mfaChallenges.get body.challengeId).bind fun challenge =>
        db.applications.get challenge.applicationId
  | otp body =>
      (db.mfaChallenges.get body.challengeId).bind fun challenge =>
        db.applications.get challenge.applicationId

def SignIn.redirectUri : SignIn → Option String
  | login body => body.redirectUri
  | webauthn body => body.redirectUri
  | otp body => body.redirectUri

/-- The same request, asking for another redirect. -/
def SignIn.asking (redirectUri : Option String) : SignIn → SignIn
  | login body => .login { body with redirectUri := redirectUri }
  | webauthn body => .webauthn { body with redirectUri := redirectUri }
  | otp body => .otp { body with redirectUri := redirectUri }

theorem wp_resolveClient {body : LoginBody} {Q : LoginRequest → World → Prop} {E : World → Prop} :
    (resolveClient body).wp Q E t ↔
      Q { body.toLoginRequest with applicationId := resolvedId t.db.toDirectory body } t := by
  unfold resolveClient resolvedId
  cases body.clientId <;> simp

theorem wp_observed {signals : ClientSignals} {ticket : Option String}
    {Q : ClientSignals → World → Prop} {E : World → Prop} (hok : ∀ signals, Q signals t)
    (herror : E t) : (observed env request signals ticket).wp Q E t := by
  unfold observed
  split
  · exact hok _
  · simp only [verifyTicket, wp_bind, wp_require, wp_pure]
    exact ⟨fun _ => herror, fun _ _ => hok _⟩

/-- A login over HTTP that answers has the effect of one that answers. -/
theorem wp_postLogin {body : LoginBody} {Q : LoginResponse → World → Prop}
    (hok : ∀ signals response ws t',
      LoginEffect env d t.db
        (((t.db.applications.get (resolvedId t.db.toDirectory body)).filter
          Application.enabled).map (loginAttempt
            { body.toLoginRequest with
              toClientSignals := signals
              applicationId := resolvedId t.db.toDirectory body } (some request.deviceCookie)))
        response ws →
      t'.writes = t.writes ++ ws → Q (publicResponse response) t') :
    (postLogin env d request body).wp Q (fun _ => True) t := by
  rw [postLogin, wp_bind, wp_resolveClient, wp_bind]
  refine wp_observed (fun signals => ?_) trivial
  rw [wp_bind]
  exact wp_login (hok signals) fun _ _ _ => trivial

/-- The URI a request that signs in to an application of a database calls back. -/
def SignIn.target (signIn : SignIn) (db : Db) : Option String :=
  matchRedirectUri ((signIn.application db).bind Application.redirectUri) signIn.redirectUri

variable (d) in
/-- An answer redirects to the target of its request, where it comes with a session, and
codes are issued for that target only. -/
structure CallsBack (target : Option String) (response : LoginResponse) (ws : List Write) :
    Prop where
  redirectTo : response.session.isSome →
    response.redirectTo = target.map fun target => ⟨target, d.code⟩
  codes : ∀ row, .artefact (.insertAuthCode row) ∈ ws → target = some row.redirectUri

theorem target_of_mem_sessionWrites {userId applicationId : String} {mayEnroll : Bool}
    {target : Option String} {row : AuthCode}
    (h : Write.artefact (.insertAuthCode row) ∈
      sessionWrites env d userId applicationId mayEnroll target) :
    target = some row.redirectUri := by
  cases target with
  | none => simp [sessionWrites] at h
  | some target =>
      simp only [sessionWrites, Option.map_some, Option.toList_some, List.mem_append,
        List.mem_cons, List.not_mem_nil, or_false, reduceCtorEq, Write.artefact.injEq,
        ArtefactWrite.insertAuthCode.injEq, false_or] at h
      rw [h]
      rfl

/-- A login of an application calls back its target. -/
theorem callsBack_of_login {db : Db} {body : LoginBody} {signals : ClientSignals}
    {response : LoginResponse} {ws : List Write}
    (h : LoginEffect env d db (((db.applications.get (resolvedId db.toDirectory body)).filter
      Application.enabled).map (loginAttempt
        { body.toLoginRequest with
          toClientSignals := signals
          applicationId := resolvedId db.toDirectory body } (some request.deviceCookie)))
      response ws) :
    CallsBack d ((SignIn.login body).target db) response ws := by
  cases h with
  | refused _ hresponse =>
      refine ⟨fun hsession => ?_, by simp⟩
      rcases hresponse with rfl | ⟨_, rfl⟩ <;> cases hsession
  | allowed hattempt _ _ =>
      obtain ⟨app, happ, rfl⟩ := Option.map_eq_some_iff.mp hattempt
      have hget := (Option.filter_eq_some_iff.mp happ).1
      have htarget : (SignIn.login body).target db =
          matchRedirectUri app.redirectUri body.redirectUri := by
        simp only [SignIn.target, SignIn.application, hget, Option.bind_some]
        rfl
      rw [htarget]
      exact ⟨fun _ => rfl, fun _ => target_of_mem_sessionWrites⟩
  | challenged | denied | blocked =>
      refine ⟨fun hsession => ?_, by simp⟩
      cases hsession

/-- A step-up that is completed calls back the target of its challenge's application. -/
theorem callsBack_of_finish {db : Db} {challengeId : String} {challenge : MfaChallenge}
    {redirectUri : Option String} {request : Request} {pre : List Write}
    (hopen : OpenChallenge db.toArtefacts d.now challengeId challenge)
    (hfactor : factor env db.toArtefacts challenge request = some pre) :
    CallsBack d (matchRedirectUri (((db.mfaChallenges.get challengeId).bind fun challenge =>
        db.applications.get challenge.applicationId).bind Application.redirectUri) redirectUri)
      (finishResponse env d challenge (stepUpCallback db.toDirectory challenge redirectUri))
      (pre ++ finishWrites env d challenge
        (stepUpCallback db.toDirectory challenge redirectUri)) := by
  rw [hopen.found, Option.bind_some]
  refine ⟨fun _ => rfl, fun row hrow => ?_⟩
  have hmint : Write.artefact (.insertAuthCode row) ∈ sessionWrites env d challenge.userId
      challenge.applicationId false (stepUpCallback db.toDirectory challenge redirectUri) := by
    rcases List.mem_append.mp hrow with hpre | hfinish
    · obtain rfl | ⟨_, _, rfl⟩ := factor_writes hfactor <;> simp at hpre
    · simpa [finishWrites] using hfinish
  exact target_of_mem_sessionWrites hmint

/-- Without a session nothing is called back. -/
theorem callsBack_of_no_session {target : Option String} {response : LoginResponse}
    {challenge : MfaChallenge} {request : Request} {pre : List Write} {db : Artefacts}
    (hsession : response.session = none) (hfactor : factor env db challenge request = some pre) :
    CallsBack d target response pre := by
  refine ⟨fun h => ?_, fun row hrow => ?_⟩
  · rw [hsession] at h
    cases h
  obtain rfl | ⟨_, _, rfl⟩ := factor_writes hfactor <;> simp at hrow

/-- However a step-up ends, only its own target is called back. -/
theorem callsBack_of_ends {db : Db} {challengeId : String} {request : Request}
    {response : LoginResponse} (hrequest : stepUpChallenge request = some challengeId)
    (h : StepUpEnds env d ⟨db, [], []⟩ request response t') :
    CallsBack d (matchRedirectUri (((db.mfaChallenges.get challengeId).bind fun challenge =>
        db.applications.get challenge.applicationId).bind Application.redirectUri)
      (stepUpRedirect request)) response t'.writes := by
  cases h with
  | completed hchallenge hopen hfactor _ _ hwrites =>
      cases hrequest.symm.trans hchallenge
      rw [hwrites]
      exact callsBack_of_finish hopen hfactor
  | denied _ _ hfactor _ hwrites =>
      rw [hwrites]
      exact callsBack_of_no_session rfl hfactor
  | wrong hsilent =>
      rw [hsilent.writes]
      refine ⟨fun hsession => ?_, by simp⟩
      cases hsession

/-- **What the service calls back.**  A request redirects to what the registered URI of
its application and the URI it asks for match to, and issues codes for nothing else. -/
theorem callsBack_of_post {signIn : SignIn} {response : LoginResponse} {db : Db}
    (hrun : (signIn.post env d request).run ⟨db, [], []⟩ = (.ok response, t')) :
    CallsBack d (signIn.target db) response t'.writes := by
  cases signIn with
  | login body =>
      have hwp : (postLogin env d request body).wp (fun response t' =>
          CallsBack d ((SignIn.login body).target db) response t'.writes) (fun _ => True)
          ⟨db, [], []⟩ := by
        refine wp_postLogin fun signals response ws t' heffect hwrites => ?_
        rw [hwrites]
        obtain ⟨hredirect, hcodes⟩ := callsBack_of_login heffect
        exact ⟨hredirect, hcodes⟩
      exact wp_of_ok hwp hrun
  | webauthn body =>
      have hwp : ((SignIn.webauthn body).post env d request).wp (fun response t' =>
          CallsBack d ((SignIn.webauthn body).target db) response t'.writes) (fun _ => True)
          ⟨db, [], []⟩ := by
        rw [SignIn.post, postMfaWebauthnVerify, wp_bind]
        refine wp_mono wp_verifyWebauthn (fun response t' hends => ?_) fun _ _ => trivial
        rw [wp_pure]
        obtain ⟨hredirect, hcodes⟩ := callsBack_of_ends rfl hends
        exact ⟨hredirect, hcodes⟩
      exact wp_of_ok hwp hrun
  | otp body =>
      have hwp : ((SignIn.otp body).post env d request).wp (fun response t' =>
          CallsBack d ((SignIn.otp body).target db) response t'.writes) (fun _ => True)
          ⟨db, [], []⟩ := by
        rw [SignIn.post, postMfaVerify, wp_bind]
        refine wp_mono wp_verifyMfa (fun response t' hends => ?_) fun _ _ => trivial
        rw [wp_pure]
        obtain ⟨hredirect, hcodes⟩ := callsBack_of_ends rfl hends
        exact ⟨hredirect, hcodes⟩
      exact wp_of_ok hwp hrun

/-! ## Through the page -/

/-- What the page asks for where it has been built. -/
theorem redirectUri_of_boot {query : PageQuery} {boot : HostedBoot} {step : PageStep}
    (hbuilt : (hostedBoot env request query false).run t = (.ok boot, t')) :
    (step.signIn boot).redirectUri = nonEmpty (pageRedirect
      ((pageApplication t.db.toDirectory query false).bind Application.redirectUri)
      query.redirectUri) := by
  have hboot : (hostedBoot env request query false).wp (fun boot _ => boot.redirectUri =
      pageRedirect ((pageApplication t.db.toDirectory query false).bind Application.redirectUri)
        query.redirectUri) (fun _ => True) t := by
    simp only [hostedBoot, pageClaims, wp_bind, wp_transaction, wp_read, wp_pure]
    split
    · simp
    · simp [verifyTicket]
  rw [← wp_of_ok hboot hbuilt]
  cases step <;> rfl

/-- A person signs in through the page of an application: the page is built, and
later one of its steps ends in a session there. -/
structure PageVisit (env : Env) where
  get : HttpRequest
  query : PageQuery
  /-- the database the page is built from -/
  shown : Db
  app : Application
  isShown : pageApplication shown.toDirectory query false = some app
  boot : HostedBoot
  built : ((hostedBoot env get query false).run ⟨shown, [], []⟩).1 = .ok boot
  step : PageStep
  request : HttpRequest
  draws : Draws
  /-- the database the step finds -/
  db : Db
  response : LoginResponse
  answered : (((step.signIn boot).post env draws request).run ⟨db, [], []⟩).1 = .ok response
  session : response.session.isSome
  /-- The registered URI has not changed meanwhile. -/
  registered : ((step.signIn boot).application db).bind Application.redirectUri = app.redirectUri

namespace PageVisit

variable (v : PageVisit env)

/-- The page redirects as `match_redirect_uri` says of the URI in its query. -/
def Agrees : Prop :=
  v.response.redirectTo.isSome ↔ (matchRedirectUri v.app.redirectUri v.query.redirectUri).isSome

/-- Posting the URI of the query itself redirects as `match_redirect_uri` says. -/
def ServiceAgrees : Prop :=
  ∀ response, ((((v.step.signIn v.boot).asking v.query.redirectUri).post env v.draws
      v.request).run ⟨v.db, [], []⟩).1 = .ok response → response.session.isSome →
    (response.redirectTo.isSome ↔
      (matchRedirectUri v.app.redirectUri v.query.redirectUri).isSome)

theorem serviceAgrees : v.ServiceAgrees := by
  intro response hanswered hsession
  have happ : ((v.step.signIn v.boot).asking v.query.redirectUri).application v.db =
      (v.step.signIn v.boot).application v.db := by
    cases v.step <;> rfl
  have hasked : ((v.step.signIn v.boot).asking v.query.redirectUri).redirectUri =
      v.query.redirectUri := by
    cases v.step <;> rfl
  rw [(callsBack_of_post (Prod.ext hanswered rfl)).redirectTo hsession, Option.isSome_map,
    SignIn.target, happ, v.registered, hasked]

/-- Through the page every login to an application with a registered URI redirects. -/
theorem redirectTo_isSome :
    v.response.redirectTo.isSome ↔ (nonEmpty v.app.redirectUri).isSome := by
  rw [(callsBack_of_post (Prod.ext v.answered rfl)).redirectTo v.session, Option.isSome_map,
    SignIn.target, v.registered, redirectUri_of_boot (Prod.ext v.built rfl), v.isShown,
    Option.bind_some, matchRedirectUri_pageRedirect]

end PageVisit

/-- The page and the service agree on redirects exactly when the query of the page
does not name another URI than the registered one.  Where it does the service
redirects nowhere, and the page to the registered URI. -/
theorem page_redirects_iff (v : PageVisit env) :
    v.ServiceAgrees ∧ (v.Agrees ↔ ¬ AsksElsewhere v.app.redirectUri v.query.redirectUri) := by
  refine ⟨v.serviceAgrees, ?_⟩
  rw [PageVisit.Agrees, v.redirectTo_isSome, matchRedirectUri_isSome]
  constructor
  · intro hagrees hanother
    have hregistered : (nonEmpty v.app.redirectUri).isSome := by
      obtain ⟨uri, other, huri, -, hne, -⟩ := hanother
      simp [huri, nonEmpty, hne]
    exact (hagrees.mp hregistered).2 hanother
  · exact fun hsame => (and_iff_left hsame).symm

/-! Ana follows a link to the portal's page that names another redirect. -/

def elsewhere : PageQuery where
  clientId := some "rk_portal"
  redirectUri := some "https://evil.example"
  country := none
  asn := none
  simulationTicket := none
  next := none

def portalBoot : HostedBoot where
  console := false
  clientId := some "rk_portal"
  applicationName := some "Portal"
  tenantName := some "Acme"
  unknownApplication := false
  ipAddress := "192.0.2.50"
  country := some "JP"
  asn := some "2516"
  next := none
  redirectUri := none
  simulated := false
  simulationTicket := none
  mockOtp := false
  look := "rokusec"
  branding := some ⟨"Acme", none, "#1466E5", "#152953"⟩

def portalVisit : PageVisit .standIn where
  get := fromAbroad
  query := elsewhere
  shown := .standIn
  app := {
    applicationId := "portal"
    clientId := some "rk_portal"
    tenantId := "acme"
    name := "Portal"
    enabled := true
    redirectUri := some "https://portal"
    alwaysPasskey := none
    createdAt := 0 }
  isShown := by decide +kernel
  boot := portalBoot
  built := by decide +kernel
  step := .submit ⟨"ana@acme", "clave", none, none, none, none⟩
  request := fromAbroad
  draws := .usual 1
  db := .standIn
  response := {
    outcome := .AUTHENTICATED
    userId := some "usr_ana"
    eventId := some "event-1"
    session := some ⟨"token-1", seconds 28801⟩
    redirectTo := some ⟨"https://portal", "code-1"⟩
    passkeyOffer := true }
  answered := by decide +kernel
  session := rfl
  registered := by decide +kernel

/-- The same link, naming the URI that is registered. -/
def registeredVisit : PageVisit .standIn where
  get := fromAbroad
  query := { elsewhere with redirectUri := some "https://portal" }
  shown := .standIn
  app := portalVisit.app
  isShown := by decide +kernel
  boot := { portalBoot with redirectUri := some "https://portal" }
  built := by decide +kernel
  step := portalVisit.step
  request := fromAbroad
  draws := .usual 1
  db := .standIn
  response := portalVisit.response
  answered := by decide +kernel
  session := rfl
  registered := by decide +kernel

theorem page_redirects_iff_portal : registeredVisit.Agrees ∧
    portalVisit.ServiceAgrees ∧ ¬ portalVisit.Agrees := by
  have hsame : ¬ AsksElsewhere registeredVisit.app.redirectUri
      registeredVisit.query.redirectUri := by
    rintro ⟨uri, other, huri, hother, -, -, hne⟩
    exact hne (Option.some.inj (hother.symm.trans huri))
  have hanother : AsksElsewhere portalVisit.app.redirectUri portalVisit.query.redirectUri :=
    ⟨_, _, rfl, rfl, by decide, by decide, by decide⟩
  obtain ⟨hservice, hagrees⟩ := page_redirects_iff portalVisit
  exact ⟨(page_redirects_iff registeredVisit).2.mpr hsame, hservice,
    fun h => hagrees.mp h hanother⟩

/-- She is redirected, where the service would redirect nowhere. -/
theorem not_page_redirects_agree : ¬ ∀ (env : Env) (v : PageVisit env), v.Agrees := by
  intro h
  have hredirected : portalVisit.response.redirectTo.isSome := rfl
  have hservice := (h _ portalVisit).mp hredirected
  exact absurd hservice (by decide)

end RbaIdp
