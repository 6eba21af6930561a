import RbaIdp.Relational.Unwinding
import RbaIdp.Separation

/-!
# Tenants are strangers

Any number of requests of any tenants are served one at a time.  Strike out all but
those of one tenant: the answers it gets are the same (`tenants_are_strangers`), so
nothing it can ask tells it what the others do, or that there are any.

The ids that requests draw are what tenants could meet in, so no two requests draw the
same; nor does anybody create a tenant.  The tenant's own requests create nothing that
has a name: `Request.blind`.  Every state of the run, the first too, has rows that are
owned and unique, and whose challenges, codes and passkeys are of one tenant each:
`Sound`.
-/

namespace RbaIdp

open Relational

variable {env : Env} {d : Draws} {s : Served} {start : Db} {tenantId : String}

/-! ## Ids that are drawn once -/

/-- Two requests draw other ids. -/
structure DrawApart (env : Env) (d d' : Draws) : Prop where
  token : hashSessionToken env d.token ≠ hashSessionToken env d'.token
  code : hashSessionToken env d.code ≠ hashSessionToken env d'.code
  challenge : d.challengeId ≠ d'.challengeId
  activation : hashCode env (newActivationCode d.code) ≠ hashCode env (newActivationCode d'.code)

theorem get_insert_none {ρ κ : Type} [DecidableEq κ] {key : ρ → κ} {t : Table ρ key} {r : ρ} {k : κ}
    (hfree : t.get k = none) (hne : k ≠ key r) : (t.insert r).get k = none := by
  rw [Table.get_insert, hfree, Option.none_or, if_neg (Ne.symm hne)]

/-- What a request leaves has none of the ids that another one draws. -/
theorem newDraws_after (hnew : NewDraws env d s.before) (hapart : DrawApart env d s.draws) :
    NewDraws env d (s.after env) := by
  have path := Path.of_commit (P := fun _ w => w ∈ s.writes env) (s.commit_writes env)
    fun w hw _ => hw
  refine path.invariant (I := NewDraws env d) (fun mid w hmid hw _ => ?_) hnew
  obtain ⟨htoken, hbound, hcode, hchallenge, hactivation⟩ := hmid
  cases w with
  | directory w => exact ⟨htoken, hbound, hcode, hchallenge, hactivation⟩
  | artefact w =>
      have hexecutes := Served.executes hw
      cases w with
      | insertSession row =>
          refine ⟨get_insert_none htoken ?_, hbound, hcode, hchallenge, hactivation⟩
          rw [Served.tokenHash_of_mem hw]
          exact hapart.token
      | insertAuthCode row =>
          obtain ⟨hcodeHash, hsessionHash⟩ : row.codeHash = hashSessionToken env s.draws.code ∧
              row.sessionHash = hashSessionToken env s.draws.token := by
            cases hexecutes <;> exact ⟨rfl, rfl⟩
          refine ⟨htoken, fun c hc => ?_, get_insert_none hcode ?_, hchallenge, hactivation⟩
          · rcases Table.mem_or_eq_of_mem_insert hc with hold | rfl
            · exact hbound c hold
            · rw [hsessionHash]
              exact hapart.token.symm
          · rw [hcodeHash]
            exact hapart.code
      | insertChallenge row =>
          refine ⟨htoken, hbound, hcode, get_insert_none hchallenge ?_, hactivation⟩
          cases hexecutes with
          | challenged event =>
              obtain ⟨_, rfl⟩ := event.challenge
              exact hapart.challenge
      | insertActivationCode row =>
          refine ⟨htoken, hbound, hcode, hchallenge, get_insert_none hactivation ?_⟩
          cases hexecutes
          exact hapart.activation
      | consumeAuthCode codeHash now =>
          refine ⟨htoken, fun c hc => ?_, by simp [ArtefactWrite.effect, hcode], hchallenge,
            hactivation⟩
          rcases mem_authCodes_effect hc with hold | h | ⟨old, hold, _, -, rfl⟩
          · exact hbound c hold
          · cases h
          · exact hbound old hold
      | _ =>
          refine ⟨?_, hbound, hcode, ?_, ?_⟩
          · simp [ArtefactWrite.effect, htoken]
          · simp [ArtefactWrite.effect, hchallenge]
          · simp [ArtefactWrite.effect, hactivation]

/-! ## What sign-in leaves is of one tenant each -/

/-- A passkey is of a user that is there. -/
theorem passkeys_invariant : Invariant Write fun db : Db =>
    ∀ c ∈ db.webauthnCredentials, ∃ owner, db.userTenant c.userId = some owner := by
  intro w db haccepted hdb c hc
  cases w with
  | directory w =>
      obtain ⟨owner, howner⟩ := hdb c hc
      exact ⟨owner, userTenant_effect howner⟩
  | artefact w =>
      rcases mem_webauthnCredentials_effect hc with ⟨old, hold, -, huser⟩ | rfl
      · rw [← huser]
        exact hdb old hold
      · simp only [violates_artefact, ArtefactWrite.violates, Bool.or_eq_false_iff,
          Option.isNone_eq_false_iff] at haccepted
        obtain ⟨user, huser⟩ := Option.isSome_iff_exists.mp haccepted.2
        exact ⟨user.tenantId, by simp [Directory.userTenant, huser]⟩

/-- A session under a digest nobody had is the one the request created. -/
theorem created_of_new (hnew : NewDraws env s.draws s.before) {r : IdpSession}
    (hr : r ∈ (s.after env).sessions) (hkey : r.tokenHash = hashSessionToken env s.draws.token) :
    .artefact (.insertSession r) ∈ s.writes env := by
  have hold : ∀ row ∈ s.before.sessions, row.tokenHash ≠ hashSessionToken env s.draws.token :=
    Table.get_eq_none.mp hnew.token
  rcases Served.sessions_after hr with hbefore | hinsert | ⟨row, event, rfl⟩ | ⟨row, _, event, rfl⟩
  · exact absurd hkey (hold r hbefore)
  · exact hinsert
  · obtain ⟨_, -, henrolling⟩ := event.request
    exact absurd hkey (hold row henrolling.mem)
  · obtain ⟨_, _, _, -, henrolling, -⟩ := event.request
    exact absurd hkey (hold row henrolling.mem)

/-- A session under another digest was there before, with the same user. -/
theorem user_of_session {r : IdpSession} (hr : r ∈ (s.after env).sessions)
    (hkey : r.tokenHash ≠ hashSessionToken env s.draws.token) :
    ∃ row, s.before.sessions.get r.tokenHash = some row ∧ row.userId = r.userId := by
  rcases Served.sessions_after hr with hbefore | hinsert | ⟨row, event, rfl⟩ | ⟨row, _, event, rfl⟩
  · exact ⟨r, Table.get_of_mem hbefore, rfl⟩
  · exact absurd (Served.tokenHash_of_mem hinsert) hkey
  · obtain ⟨_, -, henrolling⟩ := event.request
    exact ⟨row, Table.get_of_mem henrolling.mem, rfl⟩
  · obtain ⟨_, _, _, -, henrolling, -⟩ := event.request
    exact ⟨row, Table.get_of_mem henrolling.mem, rfl⟩

theorem boundTo_after (hattributed : Attributed s.before) (hnew : NewDraws env s.draws s.before) :
    ∀ c ∈ (s.after env).authCodes, ∀ r, (s.after env).sessions.get c.sessionHash = some r →
      r.userId = c.userId := by
  intro c hc r hget
  have hr := Table.mem_of_get hget
  have hkey : r.tokenHash = c.sessionHash := Table.key_of_get hget
  -- a code that was there is bound to a digest that the request has not drawn
  have hold : ∀ old ∈ s.before.authCodes, old.sessionHash = c.sessionHash →
      r.userId = old.userId := by
    intro old hold hsame
    have hother : r.tokenHash ≠ hashSessionToken env s.draws.token := by
      rw [hkey, ← hsame]
      exact hnew.bound old hold
    obtain ⟨row, hrow, huser⟩ := user_of_session hr hother
    rw [hkey, ← hsame] at hrow
    exact huser.symm.trans (hattributed.codes old hold row hrow)
  rcases Served.authCodes_after hc with hbefore | hinsert | ⟨row, stored, user, event, rfl⟩
  · exact hold c hbefore rfl
  · obtain ⟨row, hrow, hhash, huser, -⟩ := Served.session_of_code hinsert
    have hdigest := Served.tokenHash_of_mem hrow
    have hr := created_of_new hnew hr (hkey.trans (hhash.trans hdigest))
    rw [Served.insertSession_unique hr hrow, huser]
  · obtain ⟨_, -, hredeemable⟩ := event.request
    exact hold row (Table.mem_of_get hredeemable.found) rfl

theorem oneTenant_after (hattributed : Attributed s.before) :
    ∀ c ∈ (s.after env).mfaChallenges, ∃ owner,
      OneTenant c.userId c.applicationId owner (s.after env) := by
  intro c hc
  have hkept : ∀ {userId applicationId owner : String},
      OneTenant userId applicationId owner s.before →
      OneTenant userId applicationId owner (s.after env) :=
    fun h => commit_invariant oneTenant_invariant (s.commit_writes env) h
  rcases Served.challenges_after hc with ⟨old, hold, -, huser, happ⟩ |
    ⟨a, user, challenge, event, -, huser, happ⟩
  · obtain ⟨owner, howner⟩ := hattributed.challenges old hold
    rw [huser, happ] at howner
    exact ⟨owner, hkept howner⟩
  · obtain ⟨_, rfl⟩ := event.challenge
    rw [← huser, ← happ]
    exact ⟨a.tenantId, hkept (oneTenant_of_admitted event.attempt event.admitted)⟩

theorem attributed_after (hattributed : Attributed s.before)
    (hnew : NewDraws env s.draws s.before) : Attributed (s.after env) where
  challenges := oneTenant_after hattributed
  codes := boundTo_after hattributed hnew
  passkeys := commit_invariant passkeys_invariant (s.commit_writes env) hattributed.passkeys

/-! ## Runs -/

variable {moves : List (Request × Draws)}

/-- No id is drawn twice. -/
structure FreshDraws (env : Env) (start : Db) (moves : List (Request × Draws)) : Prop where
  new : ∀ move ∈ moves, NewDraws env move.2 start
  apart : moves.Pairwise fun later earlier => DrawApart env later.2 earlier.2

theorem FreshDraws.sublist {moves' : List (Request × Draws)} (h : FreshDraws env start moves)
    (hsub : moves'.Sublist moves) : FreshDraws env start moves' :=
  ⟨fun move hmove => h.new move (hsub.subset hmove), h.apart.sublist hsub⟩

/-- No tenant is created. -/
def NoFounding (moves : List (Request × Draws)) : Prop :=
  ∀ move ∈ moves, ∀ op body, move.1 ≠ .admin op (.createTenant body)

/-- What a run starts from, and every state of it is. -/
structure Sound (db : Db) : Prop where
  orderly : Orderly db.toDirectory
  attributed : Attributed db

theorem sound_after (hsound : Sound s.before) (hnew : NewDraws env s.draws s.before)
    (hcreate : ∀ op body, s.request ≠ .admin op (.createTenant body)) : Sound (s.after env) :=
  ⟨orderly_after hcreate hsound.orderly, attributed_after hsound.attributed hnew⟩

theorem newDraws_play (hnew : NewDraws env d start)
    (hapart : ∀ move ∈ moves, DrawApart env d move.2) :
    NewDraws env d (play env start moves).2 := by
  induction moves with
  | nil => exact hnew
  | cons move earlier ih =>
      obtain ⟨hlast, hearlier⟩ := List.forall_mem_cons.mp hapart
      exact newDraws_after (ih hearlier) hlast

theorem sound_play (hsound : Sound start) (hfresh : FreshDraws env start moves)
    (hcreate : NoFounding moves) :
    Sound (play env start moves).2 ∧
      ∀ m ∈ (play env start moves).1, Sound m.before ∧ NewDraws env m.draws m.before := by
  induction moves with
  | nil => exact ⟨hsound, fun m hm => by cases hm⟩
  | cons move earlier ih =>
      obtain ⟨hcreates, hcreate⟩ := List.forall_mem_cons.mp hcreate
      obtain ⟨hbefore, hserved⟩ := ih (hfresh.sublist (List.sublist_cons_self ..)) hcreate
      have hnew : NewDraws env move.2 (play env start earlier).2 :=
        newDraws_play (hfresh.new move (List.mem_cons_self ..))
          (List.pairwise_cons.mp hfresh.apart).1
      refine ⟨sound_after (s := ⟨(play env start earlier).2, move.1, move.2⟩) hbefore hnew hcreates,
        ?_⟩
      exact List.forall_mem_cons.mpr ⟨⟨hbefore, hnew⟩, hserved⟩

variable (env) in
/-- Serving a request, as a step. -/
def nextOf (db : Db) (move : Request × Draws) : Db := Served.after env ⟨db, move.1, move.2⟩

/-- Requests that are played leave the trail of their states. -/
theorem trail_play : trail (nextOf env) start moves =
    ((play env start moves).1.map fun m => (m.before, m.request, m.draws),
      (play env start moves).2) := by
  induction moves with
  | nil => rfl
  | cons move earlier ih =>
      rw [trail, ih]
      rfl

/-- A passkey stays, with its user. -/
theorem passkey_invariant {credentialId userId : String} : Invariant Write fun db : Db =>
    ∃ c, db.webauthnCredentials.get credentialId = some c ∧ c.userId = userId := by
  rintro w db - ⟨c, hget, huser⟩
  cases w with
  | directory w => exact ⟨c, hget, huser⟩
  | artefact w =>
      cases w with
      | insertCredential row =>
          exact ⟨c, by simp [ArtefactWrite.effect, hget], huser⟩
      | setSignCount id signCount =>
          simp only [effect_artefact, ArtefactWrite.effect, Table.get_modify, hget, Option.map_some]
          refine ⟨_, rfl, ?_⟩
          split <;> exact huser
      | _ => exact ⟨c, hget, huser⟩

/-- A request of a run was served in a state that the earlier ones led to. -/
theorem Run.before {hist : List Served} {db : Db} (run : Run env start hist db) {m : Served}
    (hm : m ∈ hist) : ∃ earlier, Run env start earlier m.before := by
  obtain ⟨later, earlier, rfl⟩ := List.append_of_mem hm
  exact ⟨earlier, run.split⟩

/-! ## One tenant's requests -/

/-- The requests of a tenant among those of everybody. -/
def isOf (env : Env) (tenantId : String) (m : Served) : Bool :=
  tenantOf env m.before m.request == some tenantId

/-- What a tenant asks, when the moves are played. -/
def movesOf (env : Env) (start : Db) (moves : List (Request × Draws)) (tenantId : String) :
    List (Request × Draws) :=
  ((play env start moves).1.filter (isOf env tenantId)).map fun m => (m.request, m.draws)

/-- What a tenant is answered, when the moves are played. -/
def answersOf (env : Env) (start : Db) (moves : List (Request × Draws)) (tenantId : String) :
    List (Except (Failure HTTPException) Answer) :=
  ((play env start moves).1.filter (isOf env tenantId)).map (Served.answer env)

/-- The requests of the tenant create nothing that has a name, and none of its passkeys
is another's. -/
structure Modest (env : Env) (start : Db) (moves : List (Request × Draws)) (tenantId : String) :
    Prop where
  blind : ∀ m ∈ (play env start moves).1, isOf env tenantId m = true → m.request.blind = true
  passkeys : ∀ m ∈ (play env start moves).1, isOf env tenantId m = true →
    ∀ credential, enrolled m.request = some credential →
      OwnPasskey env tenantId credential m.before

/-- The state of a run with everybody, and of one with the tenant alone. -/
structure Estranged (start : Db) (tenantId : String) (db db' : Db) : Prop where
  indistinct : Indistinct tenantId db db'
  others : ∀ other, other ≠ tenantId → Indistinct other start db'

/-- A passkey that is not another's among everybody is not another's without them. -/
theorem ownPasskey_alone {db db' : Db} {credential : Credential}
    (h : Estranged start tenantId db db') (hattributed : Attributed db')
    (hreaches : ∃ hist, Run env start hist db)
    (hpasskey : OwnPasskey env tenantId credential db) :
    OwnPasskey env tenantId credential db' := by
  intro nonce verified hverified c hget
  obtain ⟨owner, howner⟩ := hattributed.passkeys c (Table.mem_of_get hget)
  by_cases hsame : owner = tenantId
  · rw [howner, hsame]
  -- the passkey of another's user was there at the start, so it is there among everybody
  have hstart : c ∈ start.webauthnCredentials ∧ start.userTenant c.userId = some owner :=
    ((h.others owner hsame).agree.webauthnCredentials c).mpr ⟨Table.mem_of_get hget, howner⟩
  obtain ⟨hist, run⟩ := hreaches
  obtain ⟨c₀, hc₀, huser⟩ := run.invariant_of_writes passkey_invariant
    ⟨c, Table.get_of_mem hstart.1, rfl⟩
  rw [Table.key_of_get hget] at hc₀
  have htenant := hpasskey nonce verified hverified c₀ hc₀
  rw [huser, run.invariant_of_writes userTenant_invariant hstart.2, Option.some.injEq] at htenant
  exact absurd htenant hsame

theorem alone_play : alone (nextOf env) (fun db move => tenantOf env db move.1 == some tenantId)
    start moves = movesOf env start moves tenantId := by
  rw [alone, trail_play, movesOf, List.filter_map, List.map_map]
  rfl

theorem movesOf_sublist : (movesOf env start moves tenantId).Sublist moves :=
  (congrArg (List.Sublist · moves) alone_play).mp (alone_sublist start moves)

/-- **Tenants are strangers.**  Let requests of any tenants be served, in any order.
The answers to those of one tenant are the ones they get when nobody else's are
served, and the state is the same as far as the tenant is concerned. -/
theorem tenants_are_strangers (hsound : Sound start) (hfresh : FreshDraws env start moves)
    (hcreate : NoFounding moves) (hmodest : Modest env start moves tenantId) :
    answersOf env start moves tenantId =
        (play env start (movesOf env start moves tenantId)).1.map (Served.answer env) ∧
      Indistinct tenantId (play env start moves).2
        (play env start (movesOf env start moves tenantId)).2 := by
  have hsub : (movesOf env start moves tenantId).Sublist moves := movesOf_sublist
  obtain ⟨-, hserved⟩ := sound_play hsound hfresh hcreate
  obtain ⟨-, hserved'⟩ := sound_play hsound (hfresh.sublist hsub) fun move hmove =>
    hcreate move (hsub.subset hmove)
  have hmem : ∀ {moves : List (Request × Draws)} {db : Db} {move : Request × Draws},
      (db, move) ∈ (trail (nextOf env) start moves).1 →
        (⟨db, move.1, move.2⟩ : Served) ∈ (play env start moves).1 := by
    intro moves db move h
    rw [trail_play] at h
    obtain ⟨m, hm, hsame⟩ := List.mem_map.mp h
    obtain ⟨rfl, rfl⟩ := Prod.mk.inj hsame
    exact hm
  have hstart : Estranged start tenantId start start :=
    ⟨Indistinct.refl _ _, fun other _ => Indistinct.refl other start⟩
  have hown : ∀ db db' move, (db, move) ∈ (trail (nextOf env) start moves).1 →
      (db', move) ∈ (trail (nextOf env) start (movesOf env start moves tenantId)).1 →
      (tenantOf env db move.1 == some tenantId) = true → Estranged start tenantId db db' →
      Served.answer env ⟨db, move.1, move.2⟩ = Served.answer env ⟨db', move.1, move.2⟩ ∧
        Estranged start tenantId (nextOf env db move) (nextOf env db' move) := by
    intro db db' move hm hm' howns h
    obtain ⟨hdb, hnew⟩ := hserved _ (hmem hm)
    obtain ⟨hdb', hnew'⟩ := hserved' _ (hmem hm')
    have htenant : tenantOf env db move.1 = some tenantId := beq_iff_eq.mp howns
    have htenant' := tenantOf_indistinct h.indistinct htenant
    have hpasskeys := hmodest.passkeys _ (hmem hm) howns
    have hreaches : ∃ hist, Run env start hist db := (run_play moves).before (hmem hm)
    obtain ⟨hanswer, hafter⟩ := answer_indistinct h.indistinct hdb.orderly hdb'.orderly
      (hmodest.blind _ (hmem hm) howns) ⟨htenant, ⟨hdb.attributed, hnew⟩, hpasskeys⟩
      ⟨htenant', ⟨hdb'.attributed, hnew'⟩, fun credential hcredential =>
        ownPasskey_alone h hdb'.attributed hreaches (hpasskeys credential hcredential)⟩
    refine ⟨hanswer, hafter, fun other hother => (h.others other hother).trans ?_⟩
    refine indistinct_after_other (s := ⟨db', move.1, move.2⟩) hdb'.orderly hdb'.attributed
      (hcreate move (hsub.subset ?_)) fun hsame => hother ?_
    · have hmove := List.mem_map_of_mem (f := Prod.snd) hm'
      rwa [map_snd_trail] at hmove
    · exact Option.some.inj (hsame.symm.trans htenant')
  have hother : ∀ db db' move, (db, move) ∈ (trail (nextOf env) start moves).1 →
      (tenantOf env db move.1 == some tenantId) = false → Estranged start tenantId db db' →
      Estranged start tenantId (nextOf env db move) db' := by
    intro db db' move hm hnot h
    obtain ⟨hdb, -⟩ := hserved _ (hmem hm)
    have hmove := List.mem_map_of_mem (f := Prod.snd) hm
    rw [map_snd_trail] at hmove
    have hkept := indistinct_after_other (s := ⟨db, move.1, move.2⟩) hdb.orderly hdb.attributed
      (hcreate move hmove) (beq_eq_false_iff_ne.mp hnot)
    exact ⟨hkept.symm.trans h.indistinct, h.others⟩
  rw [← alone_play] at hown
  have hunwound := answers_alone moves hstart hown hother
  rw [alone_play, trail_play, trail_play] at hunwound
  obtain ⟨hend, hanswers⟩ := hunwound
  refine ⟨?_, hend.indistinct⟩
  rw [List.filter_map, List.map_map, List.map_map] at hanswers
  exact hanswers

def Operator.rival : Operator := ⟨"usr_riva", "rival", "rival", ∅, false⟩

/-- Ana of Acme logs in and asks who she is, while an operator of Rival is at work. -/
def anaAmongRivals : List (Request × Draws) :=
  [(.getSession (bearer 2), .numbered 4),
    (.admin .rival (.patchGroup "rivals" ⟨some "Friends", none⟩), .numbered 3),
    (anaLogsIn, .usual 2),
    (.admin .rival (.createGroup ⟨some "spies", "Spies", ""⟩), .numbered 1)]

example : movesOf .standIn .standInRivals anaAmongRivals "acme" =
    [(.getSession (bearer 2), .numbered 4), (anaLogsIn, .usual 2)] := rfl

theorem tenants_are_strangers_ana :
    answersOf .standIn .standInRivals anaAmongRivals "acme" =
        (play .standIn .standInRivals
          (movesOf .standIn .standInRivals anaAmongRivals "acme")).1.map (Served.answer .standIn) ∧
      Indistinct "acme" (play .standIn .standInRivals anaAmongRivals).2
        (play .standIn .standInRivals
          (movesOf .standIn .standInRivals anaAmongRivals "acme")).2 := by
  have hattributed : Attributed Db.standInRivals :=
    ⟨fun c hc => absurd hc (Table.not_mem_empty c), fun c hc => absurd hc (Table.not_mem_empty c),
      fun c hc => absurd hc (Table.not_mem_empty c)⟩
  have horderly : Orderly Db.standInRivals.toDirectory :=
    ⟨wellOwned_standInRivals, by constructor <;> decide +kernel, by constructor <;> decide +kernel⟩
  have hfresh : FreshDraws .standIn .standInRivals anaAmongRivals := by
    refine ⟨fun move _ => ⟨rfl, fun c hc => absurd hc (Table.not_mem_empty c), rfl, rfl, rfl⟩, ?_⟩
    have hapart : anaAmongRivals.Pairwise fun later earlier =>
        hashSessionToken .standIn later.2.token ≠ hashSessionToken .standIn earlier.2.token ∧
          hashSessionToken .standIn later.2.code ≠ hashSessionToken .standIn earlier.2.code ∧
          later.2.challengeId ≠ earlier.2.challengeId ∧
          hashCode .standIn (newActivationCode later.2.code) ≠
            hashCode .standIn (newActivationCode earlier.2.code) := by
      decide +kernel
    exact hapart.imp fun h => ⟨h.1, h.2.1, h.2.2.1, h.2.2.2⟩
  have hcreate : NoFounding anaAmongRivals := by
    intro move hmove op body
    simp only [anaAmongRivals, List.mem_cons, List.not_mem_nil, or_false] at hmove
    rcases hmove with rfl | rfl | rfl | rfl <;> simp [anaLogsIn]
  have hmodest : ((play .standIn .standInRivals anaAmongRivals).1.all fun m =>
      !isOf .standIn "acme" m || m.request.blind && (enrolled m.request).isNone) = true := rfl
  refine tenants_are_strangers ⟨horderly, hattributed⟩ hfresh hcreate ⟨?_, ?_⟩
  · intro m hm hmine
    have h := List.all_eq_true.mp hmodest m hm
    rw [hmine] at h
    exact (Bool.and_eq_true_iff.mp h).1
  · intro m hm hmine credential hcredential
    have h := List.all_eq_true.mp hmodest m hm
    rw [hmine, hcredential] at h
    exact absurd (Bool.and_eq_true_iff.mp h).2 Bool.false_ne_true

end RbaIdp
