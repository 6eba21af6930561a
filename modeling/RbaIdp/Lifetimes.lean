import RbaIdp.Lineage
import RbaIdp.Relational.Lifetime

/-!
# Exactly how long tokens and codes are good

A session token, a callback code and a challenge are each handed out once and
presented later, to a service that by then has served any number of other requests.
For each the file says what those requests could do to it: one lemma for one request
(`sessionAlive_after`, `callbackAlive_after`, `challengeAlive_after`), which names the
requests that end it and shows that every other one leaves it as it is and that none
brings it back.  `Run.alive_iff` carries the lemma over a run.

Digests are compared and never rows, so for sessions and callback codes the results
are about runs in which no token is drawn twice.  Challenges need no such thing:
`mfa_challenges` takes no second row of one id.
-/

namespace RbaIdp

open Relational Program

variable {env : Env} {start db : Db} {hist : List Served}

/-- What every later request leaves alive exactly when it does not end it is alive at
the end of a run exactly when it was and none of them ended it. -/
theorem Run.alive_iff {later earlier : List Served} {b : Served}
    (run : Run env start (later ++ b :: earlier) db) {alive : Db → Prop} {ends : Served → Prop}
    {I : Db → Prop} (hI : I (b.after env))
    (hstep : ∀ m ∈ later, I m.before →
      (alive (m.after env) ↔ alive m.before ∧ ¬ ends m) ∧ I (m.after env)) :
    (alive db ↔ alive (b.after env) ∧ ∀ m ∈ later, ¬ ends m) ∧ I db := by
  induction later generalizing db with
  | nil =>
      cases run with
      | cons init _ _ => exact ⟨by simp, hI⟩
  | cons m later ih =>
      cases run with
      | cons init request draws =>
          obtain ⟨hm, hlater⟩ := List.forall_mem_cons.mp hstep
          obtain ⟨hearlier, hbefore⟩ := ih init hlater
          obtain ⟨hiff, hafter⟩ := hm hbefore
          refine ⟨?_, hafter⟩
          rw [hiff, hearlier, List.forall_mem_cons, and_assoc]
          exact and_congr_right fun _ => and_comm

/-! ## Sessions -/

/-- What a session is good for: whom, where and until when. -/
def IdpSession.grant (r : IdpSession) : String × String × Time :=
  (r.userId, r.applicationId, r.expiresAt)

/-- What the session with a digest is good for, when there is one. -/
def grantOf (tokenHash : String) (db : Db) : Option (String × String × Time) :=
  (db.sessions.get tokenHash).map IdpSession.grant

/-- The session is there, and good for what it was created for. -/
def SessionAlive (row : IdpSession) (db : Db) : Prop := grantOf row.tokenHash db = some row.grant

/-- No session has the digest but this one. -/
def SessionOnly (row : IdpSession) (db : Db) : Prop :=
  grantOf row.tokenHash db = none ∨ SessionAlive row db

theorem grantOf_effect (db : Db) {tokenHash : String} {w : Write}
    (hother : ∀ r, w = .artefact (.insertSession r) → r.tokenHash ≠ tokenHash)
    (hkept : w ≠ .artefact (.deleteSession tokenHash)) :
    grantOf tokenHash (Statement.effect w db) = grantOf tokenHash db := by
  cases w with
  | directory w => rfl
  | artefact w =>
      cases w with
      | insertSession r =>
          have hne := hother r rfl
          simp [grantOf, ArtefactWrite.effect, hne]
      | deleteSession other =>
          have hne : other ≠ tokenHash := fun hsame => hkept (by rw [hsame])
          have hsame : ((db.sessions.get tokenHash).filter fun r => !(r.tokenHash == other)) =
              db.sessions.get tokenHash := by
            cases hget : db.sessions.get tokenHash with
            | none => rfl
            | some r => simp [Table.key_of_get hget, Ne.symm hne]
          simp [grantOf, ArtefactWrite.effect, hsame]
      | lapseOffer | setSessionNonce =>
          simp only [grantOf, effect_artefact, ArtefactWrite.effect, Artefacts.updateSession]
          refine Table.view_modify _ ?_ _
          exact fun _ => rfl
      | _ => rfl

theorem grantOf_delete (tokenHash : String) (db : Db) :
    grantOf tokenHash (Statement.effect (Write.artefact (.deleteSession tokenHash)) db) =
      none := by
  simp only [grantOf, effect_artefact, ArtefactWrite.effect, Table.get_erase,
    Option.map_eq_none_iff, Option.filter_eq_none_iff]
  intro r hget
  simp [Table.key_of_get hget]

theorem lasts_session {row : IdpSession} {w : Write}
    (hother : ∀ r, w = .artefact (.insertSession r) → r.tokenHash ≠ row.tokenHash) :
    Lasts (SessionOnly row) (SessionAlive row)
      (fun w => w = .artefact (.deleteSession row.tokenHash)) w := by
  intro db honly _
  by_cases hdelete : w = .artefact (.deleteSession row.tokenHash)
  · have hnone := grantOf_delete row.tokenHash db
    rw [← hdelete] at hnone
    refine ⟨iff_of_false ?_ (fun h => h.2 hdelete), Or.inl hnone⟩
    rw [SessionAlive, hnone]
    exact Option.some_ne_none _ ∘ Eq.symm
  · have hsame := grantOf_effect db hother hdelete
    exact ⟨by simp [SessionAlive, hsame, hdelete], by rwa [SessionOnly, SessionAlive, hsame]⟩

/-- A request ends a session: a logout with its token, or the exchange of its code. -/
inductive EndsSession (env : Env) (m : Served) (tokenHash : String) : Prop where
  | loggedOut (event : LogsOut env m tokenHash)
  | exchanged {code : AuthCode} {stored : IdpSession} {user : User}
      (event : Redeems env m code stored user) (bound : stored.tokenHash = tokenHash)

theorem endsSession_of_delete {m : Served} {tokenHash : String}
    (h : .artefact (.deleteSession tokenHash) ∈ m.writes env) : EndsSession env m tokenHash := by
  obtain ⟨a, hanswer, -⟩ := Served.effect_of_mem h
  cases Served.executes h with
  | replaced event => exact .exchanged event rfl
  | loggedOut hrequest htoken =>
      obtain ⟨raw, hraw, hget⟩ := htoken
      exact .loggedOut ⟨⟨a, hanswer⟩, _, raw, hrequest, hraw, (Table.key_of_get hget).symm⟩

theorem EndsSession.gone {m : Served} {tokenHash : String} (h : EndsSession env m tokenHash) :
    Gone tokenHash (m.after env) := by
  cases h with
  | loggedOut event => exact gone_of_logsOut event
  | exchanged event hbound =>
      rw [← hbound]
      exact gone_of_redeems event

theorem not_alive_of_gone {row : IdpSession} (h : Gone row.tokenHash db) :
    ¬ SessionAlive row db := by
  intro halive
  obtain ⟨r, hget, -⟩ := Option.map_eq_some_iff.mp halive
  exact h r (Table.mem_of_get hget) (Table.key_of_get hget)

/-- One request, not the one the session was created by. -/
theorem sessionAlive_after {row : IdpSession} {m : Served}
    (hother : hashSessionToken env m.draws.token ≠ row.tokenHash)
    (honly : SessionOnly row m.before) :
    (SessionAlive row (m.after env) ↔
      SessionAlive row m.before ∧ ¬ EndsSession env m row.tokenHash) ∧
      SessionOnly row (m.after env) := by
  have hws : ∀ w ∈ m.writes env, Lasts (SessionOnly row) (SessionAlive row)
      (fun w => w = .artefact (.deleteSession row.tokenHash)) w := by
    intro w hw
    refine lasts_session fun r hr => ?_
    rw [hr] at hw
    rw [Served.tokenHash_of_mem hw]
    exact hother
  obtain ⟨hlasts, hafter⟩ := alive_of_commit hws (m.commit_writes env) honly
  refine ⟨⟨fun halive => ?_, ?_⟩, hafter⟩
  · exact ⟨(hlasts.mp halive).1, fun hends => not_alive_of_gone hends.gone halive⟩
  · rintro ⟨halive, hnot⟩
    refine hlasts.mpr ⟨halive, fun w hw hdelete => hnot ?_⟩
    rw [hdelete] at hw
    exact endsSession_of_delete hw

/-- What creates a session does not end it. -/
theorem not_ends_of_created {m : Served} {row : IdpSession}
    (hborn : .artefact (.insertSession row) ∈ m.writes env) :
    ¬ EndsSession env m row.tokenHash := by
  intro hends
  cases hends with
  | loggedOut event =>
      obtain ⟨_, _, hrequest, -⟩ := event.request
      rcases Served.request_of_created hborn with hopens | ⟨_, hexchange⟩
      · rw [hrequest] at hopens
        cases hopens
      · rw [hrequest] at hexchange
        cases hexchange
  | @exchanged code stored user event hbound =>
      obtain ⟨_, -, hredeemable⟩ := event.request
      have hcommit := m.commit_writes env
      rw [Served.writes_of_redeems event] at hcommit
      simp only [exchangeWrites, commit_cons_eq_some] at hcommit
      obtain ⟨-, haccepted, -⟩ := hcommit
      -- the digest of the new session is free, the one of the old is taken
      have hfree : m.before.sessions.get (hashSessionToken env m.draws.token) = none := by
        simp only [violates_artefact, ArtefactWrite.violates, Bool.or_eq_false_iff,
          Option.isSome_eq_false_iff, Option.isNone_iff_eq_none] at haccepted
        exact haccepted.1
      rw [← Served.tokenHash_of_mem hborn, ← hbound, Table.key_of_get hredeemable.session,
        hredeemable.session] at hfree
      cases hfree

/-- A session that a request created is there afterwards. -/
theorem sessionAlive_of_created {m : Served} {row : IdpSession}
    (hborn : .artefact (.insertSession row) ∈ m.writes env) : SessionAlive row (m.after env) := by
  refine commit_establishes (fun v hv db haccepted halive => ?_) (fun db haccepted => ?_) hborn
    (m.commit_writes env)
  · by_cases hinsert : ∃ r, v = .artefact (.insertSession r) ∧ r.tokenHash = row.tokenHash
    · -- its digest is taken
      obtain ⟨r, rfl, hsame⟩ := hinsert
      obtain ⟨old, hget, -⟩ := Option.map_eq_some_iff.mp halive
      simp [violates_artefact, ArtefactWrite.violates, hsame, hget] at haccepted
    · have hlasts := lasts_session (w := v)
        (fun r hr hsame => hinsert ⟨r, hr, hsame⟩) db (Or.inr halive) haccepted
      refine hlasts.1.mpr ⟨halive, fun hdelete => not_ends_of_created hborn ?_⟩
      rw [hdelete] at hv
      exact endsSession_of_delete hv
  · simp only [violates_artefact, ArtefactWrite.violates, Bool.or_eq_false_iff,
      Option.isSome_eq_false_iff, Option.isNone_iff_eq_none] at haccepted
    simp [SessionAlive, grantOf, ArtefactWrite.effect, haccepted.1]

/-- `GET /session` answers whoever bears the token of a live session of an enabled
user, and nobody else. -/
theorem answer_getSession {d : Draws} {authorization : Option String} {row : IdpSession}
    {user : User} (h : Bearer env db d.now authorization row user) :
    Served.answer env ⟨db, .getSession authorization, d⟩ =
      .ok (.session (sessionResponse db.toDirectory row user)) := by
  obtain ⟨raw, hraw, hget⟩ := h.token
  have hlive : ¬ row.expiresAt ≤ d.now := not_le.mpr h.live
  have henabled : (some user).filter User.enabled = some user := by simp [h.enabled]
  simp [Served.answer, Served.outcome, serve, RbaIdp.answer, getSession, loadSession, run_bind,
    transaction, require, raiseIf, hraw, hget, hlive, h.owner, henabled, sessionResponse]

theorem bearer_of_answer {d : Draws} {authorization : Option String} {a : Answer}
    (h : Served.answer env ⟨db, .getSession authorization, d⟩ = .ok a) :
    ∃ row user, Bearer env db d.now authorization row user ∧
      a = .session (sessionResponse db.toDirectory row user) := by
  have hwp : (serve env d (.getSession authorization)).wp
      (fun a _ => ∃ row user, Bearer env db d.now authorization row user ∧
        a = .session (sessionResponse db.toDirectory row user)) (fun _ => True)
      ⟨db, [], []⟩ := by
    refine wp_answer ?_
    simp only [getSession, wp_bind, wp_pure]
    exact wp_loadSession (fun row user hbearer => ⟨row, user, hbearer, rfl⟩) trivial
  exact wp_of_ok hwp (Prod.ext h rfl)

/-- **The life of a session.**  In any run in which no token is drawn twice, the
token of a session that one of the requests created is answered exactly while the
session has not expired, its user is enabled and no later request has ended it; and
it is answered for the same user and application and until the same time. -/
theorem session_life {later earlier : List Served} {b : Served}
    (run : Run env start (later ++ b :: earlier) db)
    (hfresh : FreshTokens env (later ++ b :: earlier)) {row : IdpSession}
    (hborn : .artefact (.insertSession row) ∈ b.writes env) {authorization : Option String}
    {raw : String} (htoken : bearerToken env authorization = some raw)
    (hraw : hashSessionToken env raw = row.tokenHash) (d : Draws) :
    (∀ a, Served.answer env ⟨db, .getSession authorization, d⟩ = .ok a →
      ∃ user, db.users.get row.userId = some user ∧
        a = .session (sessionResponse db.toDirectory row user)) ∧
    ((∃ a, Served.answer env ⟨db, .getSession authorization, d⟩ = .ok a) ↔
      d.now < row.expiresAt ∧ db.userEnabled row.userId = some true ∧
        ∀ m ∈ later, ¬ EndsSession env m row.tokenHash) := by
  have hother : ∀ m ∈ later, hashSessionToken env m.draws.token ≠ row.tokenHash := by
    intro m hm
    rw [Served.tokenHash_of_mem hborn]
    rw [FreshTokens, List.map_append, List.nodup_append] at hfresh
    exact hfresh.2.2 _ (List.mem_map_of_mem hm) _ (List.mem_map_of_mem (List.mem_cons_self ..))
  have hthere := sessionAlive_of_created hborn
  obtain ⟨halive, honly⟩ := run.alive_iff (Or.inr hthere)
    fun m hm => sessionAlive_after (hother m hm)
  have hfound : ∀ r user, Bearer env db d.now authorization r user →
      db.sessions.get row.tokenHash = some r ∧ SessionAlive row db ∧ r.grant = row.grant := by
    intro r user hbearer
    obtain ⟨other, hother, hget⟩ := hbearer.token
    rw [← Option.some.inj (htoken.symm.trans hother), hraw] at hget
    have hview : grantOf row.tokenHash db = some r.grant := by rw [grantOf, hget, Option.map_some]
    rcases honly with hnone | hsome
    · rw [hview] at hnone
      cases hnone
    · exact ⟨hget, hsome, Option.some.inj (hview.symm.trans hsome)⟩
  constructor
  · intro a hanswer
    obtain ⟨r, user, hbearer, rfl⟩ := bearer_of_answer hanswer
    obtain ⟨-, -, hgrant⟩ := hfound r user hbearer
    obtain ⟨huser, happ, hexpires⟩ : r.userId = row.userId ∧ r.applicationId = row.applicationId ∧
        r.expiresAt = row.expiresAt := by simpa [IdpSession.grant] using hgrant
    refine ⟨user, huser ▸ hbearer.owner, ?_⟩
    rw [sessionResponse, sessionResponse, happ, hexpires]
  constructor
  · rintro ⟨a, hanswer⟩
    obtain ⟨r, user, hbearer, -⟩ := bearer_of_answer hanswer
    obtain ⟨-, hsome, hgrant⟩ := hfound r user hbearer
    obtain ⟨huser, -, hexpires⟩ : r.userId = row.userId ∧ r.applicationId = row.applicationId ∧
        r.expiresAt = row.expiresAt := by simpa [IdpSession.grant] using hgrant
    refine ⟨hexpires ▸ hbearer.live, ?_, (halive.mp hsome).2⟩
    rw [Directory.userEnabled, ← huser, hbearer.owner, Option.map_some, hbearer.enabled]
  · rintro ⟨hlive, henabled, hnone⟩
    obtain ⟨r, hget, hgrant⟩ := Option.map_eq_some_iff.mp (halive.mpr ⟨hthere, hnone⟩)
    obtain ⟨user, howner, hon⟩ := Option.map_eq_some_iff.mp henabled
    obtain ⟨huser, -, hexpires⟩ : r.userId = row.userId ∧ r.applicationId = row.applicationId ∧
        r.expiresAt = row.expiresAt := by simpa [IdpSession.grant] using hgrant
    exact ⟨_, answer_getSession
      ⟨⟨raw, htoken, by rw [hraw]; exact hget⟩, hexpires ▸ hlive, huser ▸ howner, hon⟩⟩

/-- Ana logs in twice: her first session is still good. -/
theorem session_life_twice : ∃ a, Served.answer .standIn
    ⟨Served.after .standIn ⟨anaFirst.after .standIn, anaLogsIn, .usual 2⟩,
      .getSession (bearer 1), .usual 3⟩ = .ok a := by
  have hevaluated : ((anaFirst.writes .standIn).any fun w => match w with
        | .artefact (.insertSession r) => r.userId == "usr_ana" && decide (seconds 3 < r.expiresAt)
        | _ => false) = true ∧
      (Served.after .standIn ⟨anaFirst.after .standIn, anaLogsIn, .usual 2⟩).userEnabled
        "usr_ana" = some true ∧
      ([.usual 2, .usual 1].map fun d : Draws => hashSessionToken .standIn d.token).Nodup := by
    decide +kernel
  obtain ⟨hcreates, henabled, hfresh⟩ := hevaluated
  obtain ⟨w, hw, hchecked⟩ := List.any_eq_true.mp hcreates
  split at hchecked
  case h_2 => cases hchecked
  case h_1 row =>
    obtain ⟨huser, hexpires⟩ : row.userId = "usr_ana" ∧ seconds 3 < row.expiresAt := by
      simpa using hchecked
    have hrun : Run .standIn .standIn
        ([⟨anaFirst.after .standIn, anaLogsIn, .usual 2⟩] ++ anaFirst :: []) _ :=
      .cons (.cons .nil _ _) _ _
    refine (session_life hrun hfresh hw (rfl : bearerToken .standIn (bearer 1) = some "token-1")
      (Served.tokenHash_of_mem hw).symm (.usual 3)).2.mpr ⟨hexpires, huser ▸ henabled, ?_⟩
    intro m hm hends
    rw [List.mem_singleton.mp hm] at hends
    cases hends with
    | loggedOut event =>
        obtain ⟨_, _, hrequest, -⟩ := event.request
        cases hrequest
    | exchanged event =>
        obtain ⟨_, hrequest, -⟩ := event.request
        cases hrequest

/-! ## Callback codes -/

/-- The code has not been used. -/
def Unused (code : AuthCode) (db : Db) : Prop := db.authCodes.get code.codeHash = some code

/-- The code is there, used or not. -/
def Minted (code : AuthCode) (db : Db) : Prop :=
  ∃ c, db.authCodes.get code.codeHash = some c ∧ (c.consumedAt = none → c = code)

theorem lasts_authCode {code : AuthCode} (hunused : code.consumedAt = none) (w : Write) :
    Lasts (Minted code) (Unused code)
      (fun w => ∃ now, w = .artefact (.consumeAuthCode code.codeHash now)) w := by
  rintro db ⟨c, hget, hcode⟩ -
  have hkept (hsame : (Statement.effect w db).authCodes.get code.codeHash =
        db.authCodes.get code.codeHash)
      (hnot : ∀ now, w ≠ .artefact (.consumeAuthCode code.codeHash now)) :
      (Unused code (Statement.effect w db) ↔ Unused code db ∧
        ¬ ∃ now, w = .artefact (.consumeAuthCode code.codeHash now)) ∧
        Minted code (Statement.effect w db) :=
    ⟨by simp [Unused, hsame, hnot], c, hsame.trans hget, hcode⟩
  cases w with
  | directory w => exact hkept rfl (by simp)
  | artefact w =>
      cases w with
      | insertAuthCode r =>
          exact hkept (by simp [ArtefactWrite.effect, hget]) (by simp)
      | consumeAuthCode other now =>
          have hkey : c.codeHash = code.codeHash := Table.key_of_get hget
          by_cases hsame : other = code.codeHash
          · have hafter : (Statement.effect (Write.artefact (.consumeAuthCode other now))
                db).authCodes.get code.codeHash = some { c with consumedAt := some now } := by
              simp [ArtefactWrite.effect, hget, hkey, hsame]
            refine ⟨iff_of_false (fun halive => ?_) fun h => h.2 ⟨now, by rw [hsame]⟩, _, hafter,
              by simp⟩
            rw [Unused, hafter] at halive
            rw [← Option.some.inj halive] at hunused
            cases hunused
          · refine hkept ?_ fun now' h => hsame ?_
            · have hne : ¬ c.codeHash = other := fun h => hsame (h.symm.trans hkey)
              simp [ArtefactWrite.effect, hget, hne]
            · cases h
              rfl
      | _ => exact hkept rfl (by simp)

/-- The code has not been used, and the session it was minted with is there. -/
def CallbackAlive (code : AuthCode) (row : IdpSession) (db : Db) : Prop :=
  Unused code db ∧ SessionAlive row db

def CallbackOnly (code : AuthCode) (row : IdpSession) (db : Db) : Prop :=
  Minted code db ∧ SessionOnly row db

/-- A code is used by the request that ends its session. -/
theorem callbackAlive_after {code : AuthCode} {row : IdpSession} {m : Served}
    (hunused : code.consumedAt = none) (hbound : code.sessionHash = row.tokenHash)
    (hother : hashSessionToken env m.draws.token ≠ row.tokenHash)
    (honly : CallbackOnly code row m.before) :
    (CallbackAlive code row (m.after env) ↔
      CallbackAlive code row m.before ∧ ¬ EndsSession env m row.tokenHash) ∧
      CallbackOnly code row (m.after env) := by
  obtain ⟨hminted, hsession⟩ := honly
  obtain ⟨hcode, hminted'⟩ := alive_of_commit (fun w _ => lasts_authCode hunused w)
    (m.commit_writes env) hminted
  obtain ⟨halive, hsession'⟩ := sessionAlive_after hother hsession
  refine ⟨?_, hminted', hsession'⟩
  rw [CallbackAlive, CallbackAlive, hcode, halive]
  constructor
  · rintro ⟨⟨hbefore, -⟩, hthere, hnot⟩
    exact ⟨⟨hbefore, hthere⟩, hnot⟩
  · rintro ⟨⟨hbefore, hthere⟩, hnot⟩
    refine ⟨⟨hbefore, fun w hw => ?_⟩, hthere, hnot⟩
    rintro ⟨now, rfl⟩
    obtain ⟨r, stored, user, event, hkey, -⟩ := Served.redeems_of_mem hw
    obtain ⟨body, -, hredeemable⟩ := event.request
    -- the exchange found this code, and replaced the session it is bound to
    have hfound := hredeemable.found
    rw [← Table.key_of_get hfound, hkey, hbefore] at hfound
    obtain rfl := Option.some.inj hfound
    exact hnot (.exchanged event ((Table.key_of_get hredeemable.session).trans hbound))

theorem unused_of_created {m : Served} {code : AuthCode} (hunused : code.consumedAt = none)
    (hborn : .artefact (.insertAuthCode code) ∈ m.writes env) : Unused code (m.after env) := by
  refine commit_establishes (I := Unused code) (fun v hv db haccepted halive => ?_)
    (fun db haccepted => ?_) hborn (m.commit_writes env)
  · refine (lasts_authCode hunused v db ⟨code, halive, fun _ => rfl⟩ haccepted).1.mpr ⟨halive, ?_⟩
    rintro ⟨now, rfl⟩
    obtain ⟨_, _, _, event, -⟩ := Served.redeems_of_mem hv
    exact Served.no_code_of_redeems event code hborn
  · simp only [violates_artefact, ArtefactWrite.violates, Option.isSome_eq_false_iff,
      Option.isNone_iff_eq_none] at haccepted
    simp [Unused, ArtefactWrite.effect, haccepted]

/-- A callback code is exchanged when it can be redeemed and the token drawn for it
is new. -/
theorem answer_exchangeCode {d : Draws} {body : CallbackTokenRequest} {code : AuthCode}
    {stored : IdpSession} {user : User}
    (h : Redeemable env db d.now body.code code stored user)
    (howner : db.users.get stored.userId ≠ none)
    (hfree : db.sessions.get (hashSessionToken env d.token) = none) :
    Served.answer env ⟨db, .exchangeCode body, d⟩ =
      .ok (.token ⟨⟨d.token, stored.expiresAt⟩, userPublic user⟩) := by
  have hcode : ¬ (code.consumedAt.isSome ∨ code.expiresAt ≤ d.now) := by
    simp [h.unconsumed, h.unexpired]
  have hlive : ¬ stored.expiresAt ≤ d.now := not_le.mpr h.live
  have henabled : (some user).filter User.enabled = some user := by simp [h.enabled]
  have hthere : db.authCodes.get code.codeHash = some code := by
    rw [Table.key_of_get h.found, h.found]
  simp [Served.answer, Served.outcome, serve, RbaIdp.answer, exchangeCode, onArtefacts, run_bind,
    transaction, require, raiseIf, h.found, hcode, h.session, hlive, h.owner, henabled, execute,
    hthere, hfree, howner, ArtefactWrite.violates, ArtefactWrite.effect]

/-- **The life of a callback code.**  In any run in which no token is drawn twice, the
code a request minted is exchanged exactly while neither it nor its session has
expired, its user is enabled and no later request has ended the session; and what it is
exchanged for is good as long as the session was. -/
theorem code_life {later earlier : List Served} {b : Served} {raw : String} {d : Draws}
    (hsessions : ∀ r, r ∉ start.sessions) (run : Run env start (later ++ b :: earlier) db)
    (hfresh : FreshTokens env (⟨db, .exchangeCode ⟨raw⟩, d⟩ :: later ++ b :: earlier))
    {code : AuthCode} {row : IdpSession} (hcode : .artefact (.insertAuthCode code) ∈ b.writes env)
    (hsession : .artefact (.insertSession row) ∈ b.writes env)
    (hraw : hashSessionToken env raw = code.codeHash) :
    (∀ a, Served.answer env ⟨db, .exchangeCode ⟨raw⟩, d⟩ = .ok a →
      ∃ user, db.users.get row.userId = some user ∧
        a = .token ⟨⟨d.token, row.expiresAt⟩, userPublic user⟩) ∧
    ((∃ a, Served.answer env ⟨db, .exchangeCode ⟨raw⟩, d⟩ = .ok a) ↔
      d.now < code.expiresAt ∧ d.now < row.expiresAt ∧ db.userEnabled row.userId = some true ∧
        ∀ m ∈ later, ¬ EndsSession env m row.tokenHash) := by
  obtain ⟨hunused, hbound, howns⟩ : code.consumedAt = none ∧ code.sessionHash = row.tokenHash ∧
      code.userId = row.userId := by
    obtain ⟨other, hother, hhash, huser, -⟩ := Served.session_of_code hcode
    obtain rfl := Served.insertSession_unique hsession hother
    exact ⟨by cases Served.executes hcode <;> rfl, hhash, huser⟩
  have hother : ∀ m ∈ later, hashSessionToken env m.draws.token ≠ row.tokenHash := by
    intro m hm
    rw [Served.tokenHash_of_mem hsession]
    rw [FreshTokens, List.cons_append, List.map_cons, List.map_append, List.nodup_cons,
      List.nodup_append] at hfresh
    exact hfresh.2.2.2 _ (List.mem_map_of_mem hm) _ (List.mem_map_of_mem (List.mem_cons_self ..))
  have hborn : CallbackAlive code row (b.after env) :=
    ⟨unused_of_created hunused hcode, sessionAlive_of_created hsession⟩
  obtain ⟨halive, ⟨c, hget, hminted⟩, honly⟩ := run.alive_iff (I := CallbackOnly code row)
    ⟨⟨code, hborn.1, fun _ => rfl⟩, Or.inr hborn.2⟩
    fun m hm => callbackAlive_after hunused hbound (hother m hm)
  have hfound : ∀ r stored user, Redeemable env db d.now raw r stored user →
      r = code ∧ CallbackAlive code row db ∧ stored.grant = row.grant := by
    intro r stored user h
    have hr := h.found
    rw [hraw, hget] at hr
    obtain rfl := Option.some.inj hr
    obtain rfl := hminted h.unconsumed
    have hview : grantOf row.tokenHash db = some stored.grant := by
      rw [grantOf, ← hbound, h.session, Option.map_some]
    rcases honly with hnone | hsome
    · rw [hview] at hnone
      cases hnone
    · exact ⟨rfl, ⟨hget, hsome⟩, Option.some.inj (hview.symm.trans hsome)⟩
  have hredeems : ∀ a, Served.answer env ⟨db, .exchangeCode ⟨raw⟩, d⟩ = .ok a →
      ∃ r stored user, Redeemable env db d.now raw r stored user ∧
        a = .token ⟨⟨d.token, stored.expiresAt⟩, userPublic user⟩ := by
    intro a hanswer
    have heffect := Served.effect hanswer
    generalize Served.writes env ⟨db, .exchangeCode ⟨raw⟩, d⟩ = ws at heffect
    cases heffect with
    | exchanged hredeemable => exact ⟨_, _, _, hredeemable, rfl⟩
    | silent hsilent => cases hsilent
    | login hlogin => cases hlogin
    | steppedUp hstep | stepUpDenied hstep => cases hstep
  constructor
  · intro a hanswer
    obtain ⟨r, stored, user, h, rfl⟩ := hredeems a hanswer
    obtain ⟨rfl, -, hgrant⟩ := hfound r stored user h
    obtain ⟨-, -, hexpires⟩ : stored.userId = row.userId ∧
        stored.applicationId = row.applicationId ∧ stored.expiresAt = row.expiresAt := by
      simpa [IdpSession.grant] using hgrant
    exact ⟨user, howns ▸ h.owner, by rw [hexpires]⟩
  constructor
  · rintro ⟨a, hanswer⟩
    obtain ⟨r, stored, user, h, -⟩ := hredeems a hanswer
    obtain ⟨rfl, hthere, hgrant⟩ := hfound r stored user h
    obtain ⟨-, -, hexpires⟩ : stored.userId = row.userId ∧
        stored.applicationId = row.applicationId ∧ stored.expiresAt = row.expiresAt := by
      simpa [IdpSession.grant] using hgrant
    refine ⟨h.unexpired, hexpires ▸ h.live, ?_, (halive.mp hthere).2⟩
    rw [Directory.userEnabled, ← howns, h.owner, Option.map_some, h.enabled]
  · rintro ⟨hlive, hlive', henabled, hnone⟩
    obtain ⟨hcode', hthere⟩ := halive.mpr ⟨hborn, hnone⟩
    obtain ⟨stored, hstored, hgrant⟩ := Option.map_eq_some_iff.mp hthere
    obtain ⟨huser, -, hexpires⟩ : stored.userId = row.userId ∧
        stored.applicationId = row.applicationId ∧ stored.expiresAt = row.expiresAt := by
      simpa [IdpSession.grant] using hgrant
    obtain ⟨user, howner, hon⟩ := Option.map_eq_some_iff.mp henabled
    refine ⟨_, answer_exchangeCode
      ⟨hraw ▸ hcode', hunused, hlive, hbound ▸ hstored, hexpires ▸ hlive', howns ▸ howner, hon⟩
      (by simp [huser, howner]) ?_⟩
    -- a session with the digest of the new token was born in a request that drew it
    refine Option.eq_none_iff_forall_ne_some.mpr fun r hr => ?_
    obtain ⟨m, hm, born, hborn, hkey, -⟩ := born_run hsessions run r (Table.mem_of_get hr)
    rw [FreshTokens, List.cons_append, List.map_cons, List.nodup_cons] at hfresh
    refine hfresh.1 (List.mem_map.mpr ⟨m, hm, ?_⟩)
    rw [← Served.tokenHash_of_mem hborn, hkey, Table.key_of_get hr]

/-- The code of Ana's first login, after her second. -/
theorem code_life_twice : ∃ a, Served.answer .standIn
    ⟨Served.after .standIn ⟨anaFirst.after .standIn, anaLogsIn, .usual 2⟩,
      .exchangeCode ⟨"code-1"⟩, .usual 3⟩ = .ok a := by
  have hevaluated : ((anaFirst.writes .standIn).any fun w => match w with
        | .artefact (.insertAuthCode c) =>
            c.codeHash == hashSessionToken .standIn "code-1" && decide (seconds 3 < c.expiresAt)
        | _ => false) = true ∧
      ((anaFirst.writes .standIn).all fun w => match w with
        | .artefact (.insertSession r) => r.userId == "usr_ana" && decide (seconds 3 < r.expiresAt)
        | _ => true) = true ∧
      (Served.after .standIn ⟨anaFirst.after .standIn, anaLogsIn, .usual 2⟩).userEnabled
        "usr_ana" = some true ∧
      ([.usual 3, .usual 2, .usual 1].map fun d : Draws => hashSessionToken .standIn d.token).Nodup
        := by
    decide +kernel
  obtain ⟨hmints, hcreates, henabled, hfresh⟩ := hevaluated
  obtain ⟨w, hw, hchecked⟩ := List.any_eq_true.mp hmints
  split at hchecked
  case h_2 => cases hchecked
  case h_1 code =>
    obtain ⟨hhash, hlive⟩ : code.codeHash = hashSessionToken .standIn "code-1" ∧
        seconds 3 < code.expiresAt := by simpa using hchecked
    obtain ⟨row, hrow, -⟩ := Served.session_of_code hw
    obtain ⟨huser, hexpires⟩ : row.userId = "usr_ana" ∧ seconds 3 < row.expiresAt := by
      simpa using List.all_eq_true.mp hcreates _ hrow
    have hrun : Run .standIn .standIn
        ([⟨anaFirst.after .standIn, anaLogsIn, .usual 2⟩] ++ anaFirst :: []) _ :=
      .cons (.cons .nil _ _) _ _
    refine (code_life Table.not_mem_empty hrun hfresh hw hrow hhash.symm).2.mpr
      ⟨hlive, hexpires, huser ▸ henabled, fun m hm hends => ?_⟩
    rw [List.mem_singleton.mp hm] at hends
    cases hends with
    | loggedOut event =>
        obtain ⟨_, _, hrequest, -⟩ := event.request
        cases hrequest
    | exchanged event =>
        obtain ⟨_, hrequest, -⟩ := event.request
        cases hrequest

/-! ## Challenges -/

/-- A challenge as it was opened, and whether it has been used. -/
def challengeView (challengeId : String) (db : Db) : Option (MfaChallenge × Bool) :=
  (db.mfaChallenges.get challengeId).map fun c => (c.asOpened, c.consumedAt.isSome)

/-- The challenge is there as it was opened, and open. -/
def ChallengeAlive (row : MfaChallenge) (db : Db) : Prop :=
  challengeView row.challengeId db = some (row.asOpened, false)

/-- The challenge is there as it was opened, open or not. -/
def ChallengeOnly (row : MfaChallenge) (db : Db) : Prop :=
  ∃ used, challengeView row.challengeId db = some (row.asOpened, used)

theorem challengeView_effect {challengeId : String} {w : Write}
    (haccepted : Statement.violates w db = false) (hthere : challengeView challengeId db ≠ none)
    (hkept : ∀ now, w ≠ .artefact (.consumeChallenge challengeId now)) :
    challengeView challengeId (Statement.effect w db) = challengeView challengeId db := by
  cases w with
  | directory w => rfl
  | artefact w =>
      cases w with
      | insertChallenge r =>
          have hne : r.challengeId ≠ challengeId := by
            rintro rfl
            simp only [violates_artefact, ArtefactWrite.violates, Bool.or_eq_false_iff,
              Option.isSome_eq_false_iff, Option.isNone_iff_eq_none] at haccepted
            simp [challengeView, haccepted.1] at hthere
          simp [challengeView, ArtefactWrite.effect, hne]
      | consumeChallenge other now =>
          have hne : other ≠ challengeId := fun hsame => hkept now (by rw [hsame])
          cases hget : db.mfaChallenges.get challengeId with
          | none => simp [challengeView, ArtefactWrite.effect, hget]
          | some c =>
              have hkey : c.challengeId ≠ other := by
                rw [Table.key_of_get hget]
                exact Ne.symm hne
              simp [challengeView, ArtefactWrite.effect, hget, hkey]
      | setChallengeNonce =>
          simp only [challengeView, effect_artefact, ArtefactWrite.effect,
            Artefacts.updateChallenge]
          refine Table.view_modify _ ?_ _
          exact fun _ => rfl
      | _ => rfl

theorem challengeView_consume (now : Time) {challengeId : String} {row : MfaChallenge}
    {used : Bool} (h : challengeView challengeId db = some (row, used)) :
    challengeView challengeId
      (Statement.effect (Write.artefact (.consumeChallenge challengeId now)) db) =
        some (row, true) := by
  obtain ⟨c, hget, hview⟩ := Option.map_eq_some_iff.mp h
  have hkey : c.challengeId = challengeId := Table.key_of_get hget
  have hrow : c.asOpened = row := (Prod.mk.inj hview).1
  simp [challengeView, ArtefactWrite.effect, hget, hkey, ← hrow, MfaChallenge.asOpened]

theorem lasts_challenge {row : MfaChallenge} (w : Write) :
    Lasts (ChallengeOnly row) (ChallengeAlive row)
      (fun w => ∃ now, w = .artefact (.consumeChallenge row.challengeId now)) w := by
  rintro db ⟨used, hview⟩ haccepted
  by_cases hconsume : ∃ now, w = .artefact (.consumeChallenge row.challengeId now)
  · obtain ⟨now, rfl⟩ := hconsume
    have hafter := challengeView_consume now hview
    refine ⟨iff_of_false ?_ fun h => h.2 ⟨now, rfl⟩, true, hafter⟩
    rw [ChallengeAlive, hafter]
    simp
  · have hsame := challengeView_effect haccepted (by simp [hview])
      fun now hw => hconsume ⟨now, hw⟩
    exact ⟨by simp [ChallengeAlive, hsame, hconsume], used, by rw [hsame, hview]⟩

/-- A step-up on a challenge answers `AUTHENTICATED`. -/
structure CompletesChallenge (env : Env) (m : Served) (challengeId : String) : Prop where
  request : stepUpChallenge m.request = some challengeId
  authenticated : ∃ a user, m.answer env = .ok a ∧ a.authenticated = some user

/-- A challenge is used by the step-up that completes it. -/
theorem consumes_iff {m : Served} {challengeId : String} :
    (∃ now, .artefact (.consumeChallenge challengeId now) ∈ m.writes env) ↔
      CompletesChallenge env m challengeId := by
  constructor
  · rintro ⟨now, hconsume⟩
    obtain ⟨a, hanswer, heffect⟩ := Served.effect_of_mem hconsume
    cases Served.executes hconsume with
    | @completed challenge event =>
        have hrequest := event.request
        refine ⟨hrequest, a, challenge.userId, hanswer, ?_⟩
        generalize m.writes env = ws at heffect hconsume
        generalize m.request = request at heffect hrequest
        cases heffect with
        | silent => cases hconsume
        | login hlogin => cases request <;> cases hlogin <;> cases hrequest
        | steppedUp hother hopen =>
            obtain rfl := Option.some.inj (hother.symm.trans hrequest)
            obtain rfl := Option.some.inj (hopen.found.symm.trans event.opened.found)
            rfl
        | stepUpDenied _ _ hfactor =>
            obtain rfl | ⟨_, _, rfl⟩ := factor_writes hfactor <;> simp at hconsume
        | _ => cases hrequest
  · rintro ⟨hrequest, a, user, hanswer, hauthenticated⟩
    have heffect := Served.effect hanswer
    generalize m.writes env = ws at heffect
    generalize m.request = request at heffect hrequest
    cases heffect with
    | silent _ hanswer => rw [hanswer] at hauthenticated; cases hauthenticated
    | login hlogin => cases request <;> cases hlogin <;> cases hrequest
    | steppedUp hother hopen =>
        obtain rfl := Option.some.inj (hother.symm.trans hrequest)
        refine ⟨m.draws.now, List.mem_append_right _ (List.mem_cons.mpr (Or.inl ?_))⟩
        rw [Table.key_of_get hopen.found]
    | stepUpDenied => cases hauthenticated
    | _ => cases hrequest

/-- One request, on a challenge that is there. -/
theorem challengeAlive_after {row : MfaChallenge} {m : Served}
    (honly : ChallengeOnly row m.before) :
    (ChallengeAlive row (m.after env) ↔
      ChallengeAlive row m.before ∧ ¬ CompletesChallenge env m row.challengeId) ∧
      ChallengeOnly row (m.after env) := by
  obtain ⟨hlasts, hafter⟩ := alive_of_commit (fun w _ => lasts_challenge w) (m.commit_writes env)
    honly
  refine ⟨?_, hafter⟩
  rw [hlasts, ← consumes_iff]
  refine and_congr_right fun _ => ⟨?_, ?_⟩
  · rintro hnone ⟨now, hconsume⟩
    exact hnone _ hconsume ⟨now, rfl⟩
  · rintro hnot w hw ⟨now, rfl⟩
    exact hnot ⟨now, hw⟩

/-- A challenge that a login opened is there afterwards. -/
theorem challengeView_of_created {m : Served} {row : MfaChallenge}
    (hborn : .artefact (.insertChallenge row) ∈ m.writes env) :
    challengeView row.challengeId (m.after env) = some (row.asOpened, row.consumedAt.isSome) := by
  refine commit_establishes
    (I := fun db => challengeView row.challengeId db = some (row.asOpened, row.consumedAt.isSome))
    (fun v hv db haccepted hview => ?_) (fun db haccepted => ?_) hborn (m.commit_writes env)
  · rw [challengeView_effect haccepted (by simp [hview]) (fun now hconsume => ?_), hview]
    -- what opens a challenge is a login, and what uses one a step-up
    rw [hconsume] at hv
    cases Served.executes hborn with
    | challenged event =>
        have hrequest := (consumes_iff.mp ⟨now, hv⟩).request
        have hattempt := event.attempt
        cases hlogin : m.request <;>
          simp [hlogin, attemptOf, stepUpChallenge] at hattempt hrequest
  · simp only [violates_artefact, ArtefactWrite.violates, Bool.or_eq_false_iff,
      Option.isSome_eq_false_iff, Option.isNone_iff_eq_none] at haccepted
    simp [challengeView, ArtefactWrite.effect, haccepted.1]

/-- What `_open_challenge` finds, if it finds anything. -/
def openedChallenge (d : Draws) (challengeId : String) (db : Db) :
    Except (Failure HTTPException) MfaChallenge :=
  ((openChallenge d challengeId).run ⟨db, [], []⟩).1

theorem openedChallenge_ok {d : Draws} {challengeId : String} {c : MfaChallenge} :
    openedChallenge d challengeId db = .ok c ↔
      db.mfaChallenges.get challengeId = some c ∧ c.consumedAt = none ∧ d.now < c.expiresAt := by
  unfold openedChallenge openChallenge
  cases hget : db.mfaChallenges.get challengeId with
  | none => simp [run_bind, require, hget]
  | some found =>
      by_cases hrefused : found.consumedAt.isSome ∨ found.expiresAt ≤ d.now
      · simp only [run_bind, run_read, hget, require, run_pure, raiseIf, if_pos hrefused, run_raise,
          reduceCtorEq, Option.some.injEq, false_iff, not_and, not_lt]
        rintro rfl hunused
        simpa [hunused] using hrefused
      · simp only [run_bind, run_read, hget, require, run_pure, raiseIf, if_neg hrefused,
          Except.ok.injEq, Option.some.injEq]
        simp only [not_or, Option.not_isSome_iff_eq_none, not_le] at hrefused
        refine ⟨?_, fun h => h.1⟩
        rintro rfl
        exact ⟨rfl, hrefused⟩

/-- **The life of a challenge.**  In any run, a challenge that a login opened is found
as it was opened, and it is found exactly while it has not expired, unless it was
opened for a user without a second factor, and until a step-up on it is completed.
Wrong codes and wrong passkeys do not use it up. -/
theorem challenge_life {later earlier : List Served} {b : Served}
    (run : Run env start (later ++ b :: earlier) db) {row : MfaChallenge}
    (hborn : .artefact (.insertChallenge row) ∈ b.writes env) (d : Draws) :
    (∀ c, openedChallenge d row.challengeId db = .ok c → c.asOpened = row.asOpened) ∧
    ((∃ c, openedChallenge d row.challengeId db = .ok c) ↔
      d.now < row.expiresAt ∧ row.consumedAt = none ∧
        ∀ m ∈ later, ¬ CompletesChallenge env m row.challengeId) := by
  have hthere := challengeView_of_created hborn
  obtain ⟨halive, used, hview⟩ := run.alive_iff (I := ChallengeOnly row) ⟨_, hthere⟩
    fun m _ => challengeAlive_after
  have hbirth : ChallengeAlive row (b.after env) ↔ row.consumedAt = none := by
    rw [ChallengeAlive, hthere]
    simp
  rw [hbirth] at halive
  have hfound : ∀ c, db.mfaChallenges.get row.challengeId = some c →
      c.asOpened = row.asOpened ∧ c.consumedAt.isSome = used := by
    intro c hget
    rw [challengeView, hget, Option.map_some] at hview
    exact Prod.mk.inj (Option.some.inj hview)
  constructor
  · intro c hc
    exact (hfound c (openedChallenge_ok.mp hc).1).1
  · rw [← halive, ChallengeAlive, hview]
    constructor
    · rintro ⟨c, hc⟩
      obtain ⟨hget, hunused, hlive⟩ := openedChallenge_ok.mp hc
      obtain ⟨hopened, hused⟩ := hfound c hget
      have hexpires : c.expiresAt = row.expiresAt := by
        show c.asOpened.expiresAt = row.asOpened.expiresAt
        rw [hopened]
      refine ⟨hexpires ▸ hlive, ?_⟩
      rw [← hused, hunused, Option.isSome_none]
    · rintro ⟨hlive, hopen⟩
      obtain ⟨c, hget, hrow⟩ := Option.map_eq_some_iff.mp (hview.trans hopen)
      obtain ⟨hopened, hused⟩ := Prod.mk.inj hrow
      have hexpires : c.expiresAt = row.expiresAt := by
        show c.asOpened.expiresAt = row.asOpened.expiresAt
        rw [hopened]
      exact ⟨c, openedChallenge_ok.mpr ⟨hget, by simpa using hused, hexpires ▸ hlive⟩⟩

/-- Ana has a passkey, and logs in again: the risk engine does not answer. -/
def anaDoubted : Served :=
  ⟨(play .standIn .standIn [(.sessionVerify (bearer 1) ⟨⟨some "key-1", ""⟩⟩, .usual 3),
    (.sessionOptions (bearer 1), .usual 2), (anaLogsIn, .usual 1)]).2, anaLogsIn, .numbered 4⟩

/-- She answers with a code that is wrong. -/
def anaMistypes : Served :=
  ⟨anaDoubted.after .standIn, .verifyMfa ⟨"challenge-4", "123456", none⟩, .numbered 5⟩

/-- Her challenge is still open. -/
theorem challenge_life_mistyped : ∃ c,
    openedChallenge (.numbered 6) "challenge-4" (anaMistypes.after .standIn) = .ok c := by
  have hevaluated : ((anaDoubted.writes .standIn).any fun w => match w with
        | .artefact (.insertChallenge c) => c.challengeId == "challenge-4" &&
            decide (seconds 6 < c.expiresAt) && c.consumedAt.isNone
        | _ => false) = true ∧
      ∀ a, anaMistypes.answer .standIn = .ok a → a.authenticated = none := by
    refine ⟨by decide +kernel, fun a ha => ?_⟩
    have hnone : ((anaMistypes.answer .standIn).toOption.bind Answer.authenticated) = none := by
      decide +kernel
    rw [ha] at hnone
    exact hnone
  obtain ⟨hopens, hwrong⟩ := hevaluated
  obtain ⟨w, hw, hchecked⟩ := List.any_eq_true.mp hopens
  split at hchecked
  case h_2 => cases hchecked
  case h_1 row =>
    obtain ⟨⟨hid, hexpires⟩, hopen⟩ : (row.challengeId = "challenge-4" ∧
        seconds 6 < row.expiresAt) ∧ row.consumedAt = none := by simpa using hchecked
    have hrun : Run .standIn .standIn ([anaMistypes] ++ anaDoubted :: _) _ :=
      (run_play [(.verifyMfa ⟨"challenge-4", "123456", none⟩, .numbered 5),
        (anaLogsIn, .numbered 4), (.sessionVerify (bearer 1) ⟨⟨some "key-1", ""⟩⟩, .usual 3),
        (.sessionOptions (bearer 1), .usual 2), (anaLogsIn, .usual 1)])
    rw [← hid]
    refine (challenge_life hrun hw (.numbered 6)).2.mpr ⟨hexpires, hopen, fun m hm hcompletes => ?_⟩
    rw [List.mem_singleton.mp hm] at hcompletes
    obtain ⟨a, user, hanswer, hauthenticated⟩ := hcompletes.authenticated
    rw [hwrong a hanswer] at hauthenticated
    cases hauthenticated

end RbaIdp
