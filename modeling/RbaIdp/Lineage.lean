import RbaIdp.Effects.After

/-!
# Lineages of sessions

A callback code buys its session a new token: the session it is bound to is
deleted and one with the new token takes its place.  A session that a login or a
step-up created and what its code was exchanged for are a lineage.

Rows are linked through digests only, so a statement about lineages needs that
no two requests of a run draw the same token (`FreshTokens`).  From it, every
session and every code has one request it was born in, and a session that is
gone never comes back.
-/

namespace RbaIdp

open Relational

variable {env : Env} {start db : Db} {hist : List Served}

/-- No two requests of a run draw tokens with one digest: tokens are 256 random
bits, and SHA-256 tells them apart. -/
def FreshTokens (env : Env) (hist : List Served) : Prop :=
  (hist.map fun s => hashSessionToken env s.draws.token).Nodup

theorem FreshTokens.eq {m m' : Served} (hfresh : FreshTokens env hist) (hm : m ∈ hist)
    (hm' : m' ∈ hist)
    (h : hashSessionToken env m.draws.token = hashSessionToken env m'.draws.token) : m = m' :=
  List.inj_on_of_nodup_map hfresh hm hm' h

/-- The requests before one of them drew their tokens once as well. -/
theorem FreshTokens.earlier {later earlier : List Served} {m : Served}
    (hfresh : FreshTokens env (later ++ m :: earlier)) : FreshTokens env earlier := by
  rw [FreshTokens, List.map_append, List.nodup_append, List.map_cons, List.nodup_cons] at hfresh
  exact hfresh.2.1.2

/-! ## Births -/

/-- A session that is there was created by a request of the run, for the same
user and application and until the same time. -/
structure Born (env : Env) (m : Served) (r : IdpSession) : Prop where
  created : ∃ row, .artefact (.insertSession row) ∈ m.writes env ∧ row.tokenHash = r.tokenHash ∧
    row.userId = r.userId ∧ row.applicationId = r.applicationId ∧ row.expiresAt = r.expiresAt ∧
    (row.enrollUntil = none → r.enrollUntil = none)

theorem born_run (hstart : ∀ r, r ∉ start.sessions) (run : Run env start hist db) :
    ∀ r ∈ db.sessions, ∃ m ∈ hist, Born env m r := by
  induction run with
  | nil => exact fun r hr => absurd hr (hstart r)
  | @cons hist db init request draws ih =>
      intro r hr
      rcases Served.sessions_after hr with hold | hinsert | ⟨row, event, rfl⟩ | ⟨row, _, event, rfl⟩
      · obtain ⟨m, hm, hborn⟩ := ih r hold
        exact ⟨m, List.mem_cons_of_mem _ hm, hborn⟩
      · exact ⟨_, List.mem_cons_self .., r, hinsert, rfl, rfl, rfl, rfl, fun h => h⟩
      · obtain ⟨_, -, henrolling⟩ := event.request
        obtain ⟨m, hm, hborn⟩ := ih row henrolling.mem
        exact ⟨m, List.mem_cons_of_mem _ hm, ⟨hborn.created⟩⟩
      · obtain ⟨_, _, _, -, henrolling, -⟩ := event.request
        obtain ⟨m, hm, born, hborn, hkey, huser, happ, hexpires, -⟩ := ih row henrolling.mem
        exact ⟨m, List.mem_cons_of_mem _ hm, born, hborn, hkey, huser, happ, hexpires, fun _ => rfl⟩

/-- A code that is there was created by a request of the run, bound to the
session that request created. -/
structure CodeBorn (env : Env) (m : Served) (c : AuthCode) : Prop where
  created : ∃ row, .artefact (.insertSession row) ∈ m.writes env ∧ row.tokenHash = c.sessionHash ∧
    row.userId = c.userId ∧ row.applicationId = c.applicationId

theorem codeBorn_run (hstart : ∀ c, c ∉ start.authCodes) (run : Run env start hist db) :
    ∀ c ∈ db.authCodes, ∃ m ∈ hist, CodeBorn env m c := by
  induction run with
  | nil => exact fun c hc => absurd hc (hstart c)
  | @cons hist db init request draws ih =>
      intro c hc
      rcases Served.authCodes_after hc with hold | hinsert | ⟨row, stored, user, event, rfl⟩
      · obtain ⟨m, hm, hborn⟩ := ih c hold
        exact ⟨m, List.mem_cons_of_mem _ hm, hborn⟩
      · obtain ⟨row, hrow, hkey, huser, happ⟩ := Served.session_of_code hinsert
        exact ⟨_, List.mem_cons_self .., row, hrow, hkey.symm, huser.symm, happ.symm⟩
      · obtain ⟨_, -, hredeemable⟩ := event.request
        obtain ⟨m, hm, hborn⟩ := ih row (Table.mem_of_get hredeemable.found)
        exact ⟨m, List.mem_cons_of_mem _ hm, ⟨hborn.created⟩⟩

/-- The user a code is checked for is the user of the session it is exchanged at. -/
theorem owner_of_redeems (hsessions : ∀ r, r ∉ start.sessions) (hcodes : ∀ c, c ∉ start.authCodes)
    {m : Served} (run : Run env start hist m.before) (hfresh : FreshTokens env hist)
    {code : AuthCode} {stored : IdpSession} {user : User} (event : Redeems env m code stored user) :
    code.userId = stored.userId := by
  obtain ⟨_, -, hredeemable⟩ := event.request
  obtain ⟨b, hb, row, hrow, hhash, huser, -⟩ :=
    born_run hsessions run stored (Table.mem_of_get hredeemable.session)
  obtain ⟨b', hb', row', hrow', hhash', huser', -⟩ :=
    codeBorn_run hcodes run code (Table.mem_of_get hredeemable.found)
  have hkey : stored.tokenHash = code.sessionHash := Table.key_of_get hredeemable.session
  -- both were born under one digest, so in one request, which creates one session
  obtain rfl : b = b' := by
    refine hfresh.eq hb hb' ?_
    rw [← Served.tokenHash_of_mem hrow, ← Served.tokenHash_of_mem hrow', hhash, hhash', hkey]
  obtain rfl := Served.insertSession_unique hrow hrow'
  exact huser'.symm.trans huser

/-! ## Gone for good -/

/-- A session is gone once no row has its digest. -/
def Gone (tokenHash : String) (db : Db) : Prop := ∀ r ∈ db.sessions, r.tokenHash ≠ tokenHash

/-- Digests are not used twice, so a session that is gone stays gone. -/
theorem gone_since {later earlier : List Served} {s b : Served}
    (run : Run env start (later ++ s :: earlier) db)
    (hfresh : FreshTokens env (later ++ s :: earlier)) (hb : b ∈ s :: earlier)
    (hgone : Gone (hashSessionToken env b.draws.token) (s.after env)) :
    Gone (hashSessionToken env b.draws.token) db ∧
      ∀ m ∈ later, Gone (hashSessionToken env b.draws.token) m.before := by
  refine run.since (fun m hm hbefore r hr => ?_) hgone
  rcases Served.sessions_after hr with hold | hinsert | ⟨row, event, rfl⟩ | ⟨row, _, event, rfl⟩
  · exact hbefore r hold
  · -- only a new session could bring the digest back, and its token is another one
    rw [Served.tokenHash_of_mem hinsert]
    rw [FreshTokens, List.map_append, List.nodup_append] at hfresh
    exact hfresh.2.2 _ (List.mem_map_of_mem hm) _ (List.mem_map_of_mem hb)
  · obtain ⟨_, -, henrolling⟩ := event.request
    exact hbefore row henrolling.mem
  · obtain ⟨_, _, _, -, henrolling, -⟩ := event.request
    exact hbefore row henrolling.mem

/-- The exchange of a code deletes the session it was bound to. -/
theorem gone_of_redeems {m : Served} {row : AuthCode} {stored : IdpSession} {user : User}
    (event : Redeems env m row stored user) : Gone stored.tokenHash (m.after env) := by
  have hcommit := m.commit_writes env
  rw [Served.writes_of_redeems event] at hcommit
  simp only [exchangeWrites, commit_cons_eq_some, commit_nil, Option.some.injEq] at hcommit
  rw [← hcommit.2.2.2]
  intro r hr
  simpa using (Table.mem_erase.mp hr).2

theorem consumed_of_redeems {m : Served} {row : AuthCode} {stored : IdpSession} {user : User}
    (event : Redeems env m row stored user) :
    ∃ c, (m.after env).authCodes.get row.codeHash = some c ∧ c.consumedAt ≠ none := by
  have hmem : .artefact (.consumeAuthCode row.codeHash m.draws.now) ∈ m.writes env := by
    simp [Served.writes_of_redeems event, exchangeWrites]
  refine commit_establishes (fun w _ => consumed_invariant w) (fun db haccepted => ?_) hmem
    (m.commit_writes env)
  exact Table.exists_of_modify (by exact fun _ => rfl) haccepted (by simp) (by simp)

/-- A logout with the token of a session. -/
structure LogsOut (env : Env) (m : Served) (tokenHash : String) : Prop where
  answered : Answered env m
  request : ∃ authorization raw, m.request = .logout authorization ∧
    bearerToken env authorization = some raw ∧ hashSessionToken env raw = tokenHash

theorem gone_of_logsOut {m : Served} {tokenHash : String} (event : LogsOut env m tokenHash) :
    Gone tokenHash (m.after env) := by
  obtain ⟨a, hanswer⟩ := event.answered
  obtain ⟨authorization, raw, hrequest, hraw, rfl⟩ := event.request
  have heffect := Served.effect hanswer
  have hcommit := m.commit_writes env
  rw [hrequest] at heffect
  generalize m.writes env = ws at heffect hcommit
  cases heffect with
  | loggedOut htoken =>
      obtain ⟨other, hother, hget⟩ := htoken
      rw [← Option.some.inj (hraw.symm.trans hother)] at hget
      simp only [commit_cons_eq_some, commit_nil, Option.some.injEq] at hcommit
      rw [← hcommit.2, ← Table.key_of_get hget]
      intro r hr
      simpa using (Table.mem_erase.mp hr).2
  | loggedOutNobody hnobody =>
      rw [← Option.some.inj hcommit]
      exact Table.get_eq_none.mp (hnobody raw hraw)
  | silent hsilent => cases hsilent
  | login hlogin => cases hlogin
  | steppedUp hstep | stepUpDenied hstep => cases hstep

/-! ## Lineages -/

/-- A login or a step-up creates a session. -/
structure Opens (env : Env) (m : Served) (row : IdpSession) : Prop where
  created : .artefact (.insertSession row) ∈ m.writes env
  event : (∃ a user, SignsIn env m a user) ∨ ∃ challenge, StepsUp env m challenge

/-- Only an exchange creates a session otherwise. -/
theorem opens_of_mem {m : Served} (hrequest : m.request.opens = true) {row : IdpSession}
    (h : .artefact (.insertSession row) ∈ m.writes env) : Opens env m row := by
  refine ⟨h, ?_⟩
  cases Served.created h with
  | signedIn event => exact Or.inl ⟨_, _, event⟩
  | steppedUp event => exact Or.inr ⟨_, event⟩
  | redeemed event =>
      obtain ⟨_, hother, -⟩ := event.request
      rw [hother] at hrequest
      cases hrequest

/-- A request exchanges a code that is bound to a session. -/
structure Exchanges (env : Env) (m : Served) (root : IdpSession) (code : AuthCode)
    (stored : IdpSession) (user : User) : Prop where
  event : Redeems env m code stored user
  bound : code.sessionHash = root.tokenHash

/-- A session is of the lineage of `root`: it is `root`, or it was minted by the
exchange of a code that is bound to it. -/
def InLineage (env : Env) (hist : List Served) (root r : IdpSession) : Prop :=
  r.tokenHash = root.tokenHash ∨ ∃ m ∈ hist, ∃ code stored user,
    Exchanges env m root code stored user ∧ r.tokenHash = hashSessionToken env m.draws.token

section Lineages

variable {s₀ : Served} {root : IdpSession}

/-- The session a code is exchanged at is the one it is bound to. -/
theorem Exchanges.stored {m : Served} {code : AuthCode} {stored : IdpSession} {user : User}
    (h : Exchanges env m root code stored user) :
    stored ∈ m.before.sessions ∧ stored.tokenHash = root.tokenHash := by
  obtain ⟨_, -, hredeemable⟩ := h.event.request
  have hkey : stored.tokenHash = code.sessionHash := Table.key_of_get hredeemable.session
  exact ⟨Table.mem_of_get hredeemable.session, hkey.trans h.bound⟩

/-- A row under the digest of `root` is `root`, as far as requests leave it alone. -/
theorem root_of_tokenHash (hstart : ∀ r, r ∉ start.sessions) (run : Run env start hist db)
    {all : List Served} (hsub : hist ⊆ all) (hfresh : FreshTokens env all) (hs₀ : s₀ ∈ all)
    (hroot : Opens env s₀ root) {r : IdpSession} (hr : r ∈ db.sessions)
    (hkey : r.tokenHash = root.tokenHash) :
    s₀ ∈ hist ∧ r.userId = root.userId ∧ r.applicationId = root.applicationId ∧
      r.expiresAt = root.expiresAt := by
  obtain ⟨b, hb, row, hrow, hhash, huser, happ, hexpires, -⟩ := born_run hstart run r hr
  have hsame : b = s₀ := by
    refine hfresh.eq (hsub hb) hs₀ ?_
    rw [← Served.tokenHash_of_mem hrow, ← Served.tokenHash_of_mem hroot.created, hhash, hkey]
  subst hsame
  obtain rfl := Served.insertSession_unique hrow hroot.created
  exact ⟨hb, huser.symm, happ.symm, hexpires.symm⟩

/-- The exchange of a code of `root` ends `root`. -/
theorem Exchanges.gone {later earlier : List Served} {m : Served} {code : AuthCode}
    {stored : IdpSession} {user : User} (hsessions : ∀ r, r ∉ start.sessions)
    (run : Run env start (later ++ m :: earlier) db)
    (hfresh : FreshTokens env (later ++ m :: earlier)) (hs₀ : s₀ ∈ later ++ m :: earlier)
    (hroot : Opens env s₀ root) (h : Exchanges env m root code stored user) :
    Gone root.tokenHash db ∧ ∀ m' ∈ later, Gone root.tokenHash m'.before := by
  obtain ⟨hmem, hkey⟩ := h.stored
  have hs₀ := (root_of_tokenHash hsessions run.split
    (fun _ hm => List.mem_append_right _ (List.mem_cons_of_mem _ hm)) hfresh hs₀ hroot hmem hkey).1
  have hgone := gone_of_redeems h.event
  rw [hkey] at hgone
  rw [Served.tokenHash_of_mem hroot.created] at hgone ⊢
  exact gone_since run hfresh (List.mem_cons_of_mem _ hs₀) hgone

/-- No two requests exchange codes of one session. -/
theorem Exchanges.unique (hsessions : ∀ r, r ∉ start.sessions) (run : Run env start hist db)
    (hfresh : FreshTokens env hist) (hs₀ : s₀ ∈ hist) (hroot : Opens env s₀ root) {m m' : Served}
    (hm : m ∈ hist) (hm' : m' ∈ hist) {code code' : AuthCode} {stored stored' : IdpSession}
    {user user' : User} (h : Exchanges env m root code stored user)
    (h' : Exchanges env m' root code' stored' user') : m = m' := by
  have hlater : ∀ {x y : Served} {later earlier : List Served} {code code' : AuthCode}
      {stored stored' : IdpSession} {user user' : User}, hist = later ++ x :: earlier →
      Exchanges env x root code stored user → Exchanges env y root code' stored' user' →
      y ∉ later := by
    -- an exchange needs the session, and the earlier one ended it
    rintro x y later earlier _ _ _ _ _ _ rfl hx hy hmem
    obtain ⟨hstored, hkey⟩ := hy.stored
    exact (hx.gone hsessions run hfresh hs₀ hroot).2 y hmem _ hstored hkey
  obtain ⟨later, earlier, hsplit⟩ := List.append_of_mem hm
  rw [hsplit, List.mem_append, List.mem_cons] at hm'
  rcases hm' with hm' | rfl | hm'
  · exact absurd hm' (hlater hsplit h h')
  · rfl
  · obtain ⟨between, older, rfl⟩ := List.append_of_mem hm'
    have hsplit' : hist = (later ++ m :: between) ++ m' :: older := by simp [hsplit]
    refine absurd ?_ (hlater hsplit' h' h)
    exact List.mem_append_right _ (List.mem_cons_self ..)

/-- A session minted for `root` has its user, its application and its end, and
offers nothing. -/
theorem Exchanges.minted (hsessions : ∀ r, r ∉ start.sessions) (run : Run env start hist db)
    (hfresh : FreshTokens env hist) (hs₀ : s₀ ∈ hist) (hroot : Opens env s₀ root) {m : Served}
    (hm : m ∈ hist) {code : AuthCode} {stored : IdpSession} {user : User}
    (h : Exchanges env m root code stored user) {r : IdpSession} (hr : r ∈ db.sessions)
    (hkey : r.tokenHash = hashSessionToken env m.draws.token) :
    r.userId = root.userId ∧ r.applicationId = root.applicationId ∧
      r.expiresAt = root.expiresAt ∧ r.enrollUntil = none := by
  obtain ⟨b, hb, row, hrow, hhash, huser, happ, hexpires, hoffer⟩ := born_run hsessions run r hr
  obtain rfl : b = m := by
    refine hfresh.eq hb hm ?_
    rw [← Served.tokenHash_of_mem hrow, hhash, hkey]
  -- the one row the exchange created is a copy of the session it ended
  rw [Served.writes_of_redeems h.event] at hrow
  simp only [exchangeWrites, List.mem_cons, List.not_mem_nil, or_false, reduceCtorEq, false_or,
    Write.artefact.injEq, ArtefactWrite.insertSession.injEq] at hrow
  subst hrow
  obtain ⟨later, earlier, rfl⟩ := List.append_of_mem hm
  obtain ⟨hstored, hbound⟩ := h.stored
  obtain ⟨-, huser', happ', hexpires'⟩ := root_of_tokenHash hsessions run.split
    (fun _ hx => List.mem_append_right _ (List.mem_cons_of_mem _ hx)) hfresh hs₀ hroot hstored
    hbound
  exact ⟨huser.symm.trans huser', happ.symm.trans happ', hexpires.symm.trans hexpires', hoffer rfl⟩

/-- A code of `root` is exchanged while `root` is live and its user enabled. -/
theorem Exchanges.checked (hsessions : ∀ r, r ∉ start.sessions)
    (hcodes : ∀ c, c ∉ start.authCodes) (run : Run env start hist db)
    (hfresh : FreshTokens env hist) (hs₀ : s₀ ∈ hist) (hroot : Opens env s₀ root) {m : Served}
    (hm : m ∈ hist) {code : AuthCode} {stored : IdpSession} {user : User}
    (h : Exchanges env m root code stored user) :
    m.draws.now < root.expiresAt ∧ m.before.users.get root.userId = some user ∧
      user.enabled = true := by
  obtain ⟨later, earlier, rfl⟩ := List.append_of_mem hm
  have hsub : earlier ⊆ later ++ m :: earlier :=
    fun _ hx => List.mem_append_right _ (List.mem_cons_of_mem _ hx)
  obtain ⟨_, -, hredeemable⟩ := h.event.request
  obtain ⟨hstored, hbound⟩ := h.stored
  obtain ⟨-, huser, -, hexpires⟩ :=
    root_of_tokenHash hsessions run.split hsub hfresh hs₀ hroot hstored hbound
  -- the user looked up is the code's, which is the session's
  have howner := hredeemable.owner
  rw [owner_of_redeems hsessions hcodes run.split hfresh.earlier h.event, huser] at howner
  exact ⟨hexpires ▸ hredeemable.live, howner, hredeemable.enabled⟩

end Lineages

/-- A code is exchanged at most once: afterwards it is used, for good. -/
theorem redeems_once {later earlier : List Served} {m m' : Served}
    (run : Run env start (later ++ m :: earlier) db) (hm' : m' ∈ later) {code code' : AuthCode}
    {stored stored' : IdpSession} {user user' : User} (h : Redeems env m code stored user)
    (h' : Redeems env m' code' stored' user') : code'.codeHash ≠ code.codeHash := by
  intro hsame
  obtain ⟨c, hget, hconsumed⟩ := (run.since (I := fun db =>
    ∃ c, db.authCodes.get code.codeHash = some c ∧ c.consumedAt ≠ none)
    (fun x _ hx => commit_invariant consumed_invariant (x.commit_writes env) hx)
    (consumed_of_redeems h)).2 m' hm'
  obtain ⟨_, -, hredeemable⟩ := h'.request
  have hfound := Table.get_of_mem (Table.mem_of_get hredeemable.found)
  rw [hsame, hget] at hfound
  obtain rfl := Option.some.inj hfound
  exact hconsumed hredeemable.unconsumed

/-! ## The law of lineages -/

/-- What holds, at the end of a run, of the lineage of the session that one of its
requests created. -/
structure LineageLaw (env : Env) (hist : List Served) (db : Db) (s₀ : Served) (root : IdpSession) :
    Prop where
  /-- the lineage has one session at most -/
  one : ∀ r ∈ db.sessions, ∀ r' ∈ db.sessions, InLineage env hist root r →
    InLineage env hist root r' → r = r'
  /-- every session of it is for the same user, the same application and until the same time -/
  same : ∀ r ∈ db.sessions, InLineage env hist root r → r.userId = root.userId ∧
    r.applicationId = root.applicationId ∧ r.expiresAt = root.expiresAt
  /-- a minted session offers no enrollment -/
  noOffer : ∀ r ∈ db.sessions, InLineage env hist root r → r.tokenHash ≠ root.tokenHash →
    r.enrollUntil = none
  /-- an exchange ends the session it is for, and the offer the session carried -/
  ended : ∀ m ∈ hist, ∀ code stored user, Exchanges env m root code stored user →
    Gone root.tokenHash db
  /-- nothing is minted while the session's user is disabled or after its end -/
  checked : ∀ m ∈ hist, ∀ code stored user, Exchanges env m root code stored user →
    m.draws.now < root.expiresAt ∧ m.before.users.get root.userId = some user ∧
      user.enabled = true
  /-- nor after it was logged out -/
  loggedOut : ∀ later x earlier, hist = later ++ x :: earlier → s₀ ∈ earlier →
    LogsOut env x root.tokenHash →
      ∀ m ∈ later, ∀ code stored user, ¬ Exchanges env m root code stored user

/-- **Lineages.**  In any run in which no token is drawn twice, the law of
lineages holds of every session a login or a step-up created, and every code is
exchanged at most once. -/
theorem session_lineage (hsessions : ∀ r, r ∉ start.sessions) (hcodes : ∀ c, c ∉ start.authCodes)
    (run : Run env start hist db) (hfresh : FreshTokens env hist) :
    (∀ s₀ ∈ hist, ∀ root, Opens env s₀ root → LineageLaw env hist db s₀ root) ∧
    ∀ later m earlier, hist = later ++ m :: earlier → ∀ m' ∈ later,
      ∀ code stored user code' stored' user', Redeems env m code stored user →
      Redeems env m' code' stored' user' → code'.codeHash ≠ code.codeHash := by
  constructor
  case right =>
    rintro later m earlier rfl m' hm' code stored user code' stored' user' h h'
    exact redeems_once run hm' h h'
  intro s₀ hs₀ root hroot
  have hended : ∀ m ∈ hist, ∀ code stored user, Exchanges env m root code stored user →
      Gone root.tokenHash db := by
    intro m hm code stored user h
    obtain ⟨later, earlier, rfl⟩ := List.append_of_mem hm
    exact (h.gone hsessions run hfresh hs₀ hroot).1
  constructor
  case one =>
    intro r hr r' hr' hline hline'
    rcases hline with hkey | ⟨m, hm, code, stored, user, h, hkey⟩ <;>
      rcases hline' with hkey' | ⟨m', hm', code', stored', user', h', hkey'⟩
    · exact Table.eq_of_key_eq hr hr' (hkey.trans hkey'.symm)
    · -- a session was minted, so `root` is not there any more
      exact absurd hkey (hended m' hm' _ _ _ h' r hr)
    · exact absurd hkey' (hended m hm _ _ _ h r' hr')
    · have hsame := Exchanges.unique hsessions run hfresh hs₀ hroot hm hm' h h'
      exact Table.eq_of_key_eq hr hr' (by rw [hkey, hkey', hsame])
  case same =>
    intro r hr hline
    rcases hline with hkey | ⟨m, hm, code, stored, user, h, hkey⟩
    · exact (root_of_tokenHash hsessions run (fun _ hx => hx) hfresh hs₀ hroot hr hkey).2
    · obtain ⟨huser, happ, hexpires, -⟩ := h.minted hsessions run hfresh hs₀ hroot hm hr hkey
      exact ⟨huser, happ, hexpires⟩
  case noOffer =>
    intro r hr hline hother
    rcases hline with hkey | ⟨m, hm, code, stored, user, h, hkey⟩
    · exact absurd hkey hother
    · exact (h.minted hsessions run hfresh hs₀ hroot hm hr hkey).2.2.2
  case ended => exact hended
  case checked =>
    intro m hm code stored user h
    exact h.checked hsessions hcodes run hfresh hs₀ hroot hm
  case loggedOut =>
    rintro later x earlier rfl hborn hout m hm code stored user h
    have hgone := gone_of_logsOut hout
    rw [Served.tokenHash_of_mem hroot.created] at hgone
    have hafter := (gone_since run hfresh (List.mem_cons_of_mem _ hborn) hgone).2 m hm
    rw [← Served.tokenHash_of_mem hroot.created] at hafter
    obtain ⟨hstored, hkey⟩ := h.stored
    exact hafter stored hstored hkey

/-- A session that is new after a login or a step-up was created by it. -/
theorem opens_of_new {s : Served} (hrequest : s.request.opens = true) {r : IdpSession}
    (hr : r ∈ (s.after env).sessions) (hnew : r ∉ s.before.sessions) : Opens env s r := by
  rcases Served.sessions_after hr with hold | hinsert | ⟨row, event, -⟩ | ⟨row, _, event, -⟩
  · exact absurd hold hnew
  · exact opens_of_mem hrequest hinsert
  · obtain ⟨_, hother, -⟩ := event.request
    rw [hother] at hrequest
    cases hrequest
  · obtain ⟨_, _, _, hother, -⟩ := event.request
    rw [hother] at hrequest
    cases hrequest

/-- Ana logs in, and the portal exchanges her code. -/
def exchangedOnce : List Served × Db :=
  play .standIn .standIn [(.exchangeCode ⟨"code-1"⟩, .usual 2), (anaLogsIn, .usual 1)]

theorem session_lineage_exchanged : ∃ s₀ ∈ exchangedOnce.1, ∃ root, Opens .standIn s₀ root ∧
    LineageLaw .standIn exchangedOnce.1 exchangedOnce.2 s₀ root ∧
    ∀ r ∈ exchangedOnce.2.sessions, r.tokenHash ≠ root.tokenHash := by
  have hevaluated : ((Served.after .standIn ⟨.standIn, anaLogsIn, .usual 1⟩).sessions.get
        "sha256:token-1").isSome ∧
      exchangedOnce.2.sessions.get "sha256:token-1" = none ∧
      (exchangedOnce.1.map fun s => hashSessionToken .standIn s.draws.token).Nodup := by
    decide +kernel
  obtain ⟨hsession, hgone, hfresh⟩ := hevaluated
  obtain ⟨root, hroot⟩ := Option.isSome_iff_exists.mp hsession
  have hopens : Opens .standIn ⟨.standIn, anaLogsIn, .usual 1⟩ root :=
    opens_of_new rfl (Table.mem_of_get hroot) (Table.not_mem_empty _)
  have hs₀ : ⟨.standIn, anaLogsIn, .usual 1⟩ ∈ exchangedOnce.1 :=
    List.mem_cons_of_mem _ (List.mem_cons_self ..)
  refine ⟨_, hs₀, root, hopens, (session_lineage Table.not_mem_empty Table.not_mem_empty
    (run_play _) hfresh).1 _ hs₀ root hopens, ?_⟩
  rw [show root.tokenHash = "sha256:token-1" from Table.key_of_get hroot]
  exact Table.get_eq_none.mp hgone

end RbaIdp
