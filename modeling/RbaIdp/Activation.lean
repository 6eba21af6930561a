import RbaIdp.Lifetimes

/-!
# Activation codes

An activation code is issued by an operator of the user's tenant, or from the command
line (`activation.main`), and lets its bearer enroll a passkey with the user's
password.  The first part is how long a code is good; the second is that a user has
one at a time, whoever issues them.

The command line takes no session and asks for no permission.  It is made of the same
calls, though, and adds no state that the requests of operators do not lead to
(`site_refines`), so what holds after every run of requests holds after every run of
both.
-/

namespace RbaIdp

open Relational Program

variable {env : Env} {start db : Db} {hist : List Served}

/-! ## Exactly how long a code is good -/

/-- Whom an activation code is for, until when, and whether it has been used. -/
def activationView (codeHash : String) (db : Db) : Option (String × Time × Bool) :=
  (db.activationCodes.get codeHash).map fun c => (c.userId, c.expiresAt, c.consumedAt.isSome)

/-- The code is there as it was issued, and unused. -/
def CodeAlive (row : ActivationCode) (db : Db) : Prop :=
  activationView row.codeHash db = some (row.userId, row.expiresAt, false)

/-- The code is there as it was issued, used or not. -/
def CodeOnly (row : ActivationCode) (db : Db) : Prop :=
  ∃ used, activationView row.codeHash db = some (row.userId, row.expiresAt, used)

/-- The statement makes the code unusable. -/
def Spends (row : ActivationCode) (w : Write) : Prop :=
  ∃ now, w = .artefact (.consumeActivationCode row.codeHash now) ∨
    w = .artefact (.supersedeActivationCodes row.userId now)

theorem activationView_effect {row : ActivationCode} {w : Write} {used : Bool}
    (haccepted : Statement.violates w db = false)
    (hview : activationView row.codeHash db = some (row.userId, row.expiresAt, used))
    (hkept : ¬ Spends row w) :
    activationView row.codeHash (Statement.effect w db) =
      some (row.userId, row.expiresAt, used) := by
  obtain ⟨c, hget, hc⟩ := Option.map_eq_some_iff.mp hview
  have hkey : c.codeHash = row.codeHash := Table.key_of_get hget
  have huser : c.userId = row.userId := (Prod.mk.inj hc).1
  rw [← hview]
  cases w with
  | directory w => rfl
  | artefact w =>
      cases w with
      | insertActivationCode r => simp [activationView, ArtefactWrite.effect, hget]
      | consumeActivationCode other now =>
          have hne : c.codeHash ≠ other := by
            rintro rfl
            exact hkept ⟨now, Or.inl (by rw [hkey])⟩
          simp [activationView, ArtefactWrite.effect, hget, hne]
      | supersedeActivationCodes other now =>
          have hne : c.userId ≠ other := by
            rintro rfl
            exact hkept ⟨now, Or.inr (by rw [huser])⟩
          simp [activationView, ArtefactWrite.effect, hget, hne]
      | setActivationNonce =>
          simp only [activationView, effect_artefact, ArtefactWrite.effect,
            Artefacts.updateActivationCode]
          refine Table.view_modify _ ?_ _
          exact fun _ => rfl
      | _ => rfl

theorem activationView_spent {row : ActivationCode} {w : Write} {used : Bool}
    (hview : activationView row.codeHash db = some (row.userId, row.expiresAt, used))
    (hspends : Spends row w) :
    activationView row.codeHash (Statement.effect w db) =
      some (row.userId, row.expiresAt, true) := by
  obtain ⟨c, hget, hc⟩ := Option.map_eq_some_iff.mp hview
  have hkey : c.codeHash = row.codeHash := Table.key_of_get hget
  obtain ⟨huser, hexpires, -⟩ : c.userId = row.userId ∧ c.expiresAt = row.expiresAt ∧
      c.consumedAt.isSome = used := by simpa using hc
  obtain ⟨now, rfl | rfl⟩ := hspends
  · simp [activationView, ArtefactWrite.effect, hget, hkey, huser, hexpires]
  · cases hused : c.consumedAt <;>
      simp [activationView, ArtefactWrite.effect, hget, huser, hexpires, hused]

theorem lasts_code {row : ActivationCode} (w : Write) :
    Lasts (CodeOnly row) (CodeAlive row) (Spends row) w := by
  rintro db ⟨used, hview⟩ haccepted
  by_cases hspends : Spends row w
  · have hafter := activationView_spent hview hspends
    refine ⟨iff_of_false ?_ fun h => h.2 hspends, true, hafter⟩
    rw [CodeAlive, hafter]
    simp
  · have hafter := activationView_effect haccepted hview hspends
    refine ⟨?_, used, hafter⟩
    rw [CodeAlive, CodeAlive, hafter, hview]
    simp [hspends]

/-- A request makes a code unusable: it enrolls a passkey with it, or issues another
one to the same user. -/
inductive EndsCode (env : Env) (m : Served) (row : ActivationCode) : Prop where
  | used {code : ActivationCode} {verified : VerifiedRegistration}
      (event : EnrollsCode env m code verified) (same : code.codeHash = row.codeHash)
  | replaced {issuedBy : String} (event : Issues env m row.userId issuedBy)

theorem spends_iff {m : Served} {row : ActivationCode} :
    (∃ w ∈ m.writes env, Spends row w) ↔ EndsCode env m row := by
  constructor
  · rintro ⟨w, hw, now, hspends⟩
    generalize hcode : row.codeHash = codeHash at hspends
    generalize huser : row.userId = userId at hspends
    rcases hspends with rfl | rfl
    · cases Served.executes hw with
      | consumedCode event => exact .used event hcode.symm
    · cases Served.executes hw with
      | superseded event => exact .replaced (huser ▸ event)
  · rintro (⟨event, hsame⟩ | ⟨event⟩)
    · obtain ⟨body, nonce, hrequest, hopen, -⟩ := event.request
      obtain ⟨a, hanswer⟩ := event.answered
      have heffect := Served.effect hanswer
      rw [hrequest] at heffect
      generalize m.writes env = ws at heffect ⊢
      cases heffect with
      | activationVerified hother =>
          obtain rfl := Option.some.inj (hopen.found.symm.trans hother.found)
          refine ⟨_, List.mem_cons_of_mem _ (List.mem_singleton.mpr rfl), m.draws.later,
            Or.inl ?_⟩
          rw [hsame]
      | silent hsilent => cases hsilent
      | login hlogin => cases hlogin
      | steppedUp hstep | stepUpDenied hstep => cases hstep
    · obtain ⟨op, hrequest, -⟩ := event.request
      obtain ⟨a, hanswer⟩ := event.answered
      rcases Served.writes_issueActivationCode hrequest with
        ⟨-, hrefused⟩ | ⟨-, hwrites⟩
      · exact absurd hanswer (hrefused a)
      · rw [hwrites]
        exact ⟨_, List.mem_cons_self .., m.draws.now, Or.inr rfl⟩

theorem codeAlive_after {row : ActivationCode} {m : Served} (honly : CodeOnly row m.before) :
    (CodeAlive row (m.after env) ↔ CodeAlive row m.before ∧ ¬ EndsCode env m row) ∧
      CodeOnly row (m.after env) := by
  obtain ⟨hlasts, hafter⟩ := alive_of_commit (fun w _ => lasts_code w) (m.commit_writes env) honly
  refine ⟨?_, hafter⟩
  rw [hlasts, ← spends_iff]
  exact and_congr_right fun _ => ⟨fun hnone ⟨w, hw, hspends⟩ => hnone w hw hspends,
    fun hnot w hw hspends => hnot ⟨w, hw, hspends⟩⟩

/-- What an issue leaves. -/
theorem issued_of_created {m : Served} {row : ActivationCode}
    (hborn : .artefact (.insertActivationCode row) ∈ m.writes env) :
    ∃ issuedBy, row = activationRow env m.draws row.userId issuedBy ∧
      m.before.activationCodes.get row.codeHash = none ∧
      m.after env = Statement.effect (Write.artefact (.insertActivationCode row))
        (Statement.effect (Write.artefact (.supersedeActivationCodes row.userId m.draws.now))
          m.before) := by
  cases Served.executes hborn with
  | @issued userId issuedBy event =>
      obtain ⟨op, hrequest, rfl⟩ := event.request
      have hcommit := m.commit_writes env
      rcases Served.writes_issueActivationCode hrequest with
        ⟨-, hrefused⟩ | ⟨-, hwrites⟩
      · obtain ⟨a, hanswer⟩ := event.answered
        exact absurd hanswer (hrefused a)
      · rw [hwrites] at hcommit
        simp only [issueWrites, commit_cons_eq_some, commit_nil, Option.some.injEq] at hcommit
        obtain ⟨-, haccepted, hafter⟩ := hcommit
        refine ⟨op.userId, rfl, ?_, hafter.symm⟩
        simp only [violates_artefact, ArtefactWrite.violates, effect_artefact,
          ArtefactWrite.effect, Bool.or_eq_false_iff, Option.isSome_eq_false_iff,
          Option.isNone_iff_eq_none, Table.get_modify, Option.map_eq_none_iff] at haccepted
        exact haccepted.1

/-- A code is alive when it has been issued. -/
theorem codeAlive_of_created {m : Served} {row : ActivationCode}
    (hborn : .artefact (.insertActivationCode row) ∈ m.writes env) :
    CodeAlive row (m.after env) := by
  obtain ⟨issuedBy, hrow, hfree, hafter⟩ := issued_of_created hborn
  have hunused : row.consumedAt = none := by rw [hrow]; rfl
  rw [hafter]
  simp [CodeAlive, activationView, ArtefactWrite.effect, hfree, hunused]

theorem openCode_iff {d : Draws} {code : String} {r : ActivationCode} :
    openCode env d db.toArtefacts code = some r ↔
      db.activationCodes.get (hashCode env code) = some r ∧ r.consumedAt = none ∧
        d.now < r.expiresAt := by
  rw [openCode, Option.filter_eq_some_iff]
  simp

/-- **The life of an activation code.**  In any run, a code that one of the requests
issued is found, however it is typed, exactly while it has not expired and until a
passkey is enrolled with it or another code is issued to its user; and it is found for
its user. -/
theorem activation_life {later earlier : List Served} {b : Served}
    (run : Run env start (later ++ b :: earlier) db) {row : ActivationCode}
    (hborn : .artefact (.insertActivationCode row) ∈ b.writes env) {typed : String}
    (htyped : hashCode env typed = row.codeHash) (d : Draws) :
    (∀ r, openCode env d db.toArtefacts typed = some r → r.userId = row.userId) ∧
    ((∃ r, openCode env d db.toArtefacts typed = some r) ↔
      d.now < row.expiresAt ∧ ∀ m ∈ later, ¬ EndsCode env m row) := by
  have hthere := codeAlive_of_created hborn
  obtain ⟨halive, used, hview⟩ := run.alive_iff (I := CodeOnly row) ⟨_, hthere⟩
    fun m _ => codeAlive_after
  have hfound : ∀ r, openCode env d db.toArtefacts typed = some r → r.userId = row.userId ∧
      r.expiresAt = row.expiresAt ∧ used = false ∧ d.now < row.expiresAt := by
    intro r hr
    obtain ⟨hget, hunused, hlive⟩ := openCode_iff.mp hr
    rw [activationView, ← htyped, hget, Option.map_some] at hview
    obtain ⟨huser, hexpires, hused⟩ : r.userId = row.userId ∧ r.expiresAt = row.expiresAt ∧
        r.consumedAt.isSome = used := by simpa using hview
    exact ⟨huser, hexpires, by rw [← hused, hunused, Option.isSome_none], hexpires ▸ hlive⟩
  refine ⟨fun r hr => (hfound r hr).1, ?_⟩
  constructor
  · rintro ⟨r, hr⟩
    obtain ⟨-, -, hused, hlive⟩ := hfound r hr
    exact ⟨hlive, (halive.mp (by rw [CodeAlive, hview, hused])).2⟩
  · rintro ⟨hlive, hnone⟩
    have hopen := halive.mpr ⟨hthere, hnone⟩
    obtain ⟨r, hget, hr⟩ := Option.map_eq_some_iff.mp hopen
    obtain ⟨-, hexpires, hunused⟩ : r.userId = row.userId ∧ r.expiresAt = row.expiresAt ∧
        r.consumedAt = none := by simpa using hr
    exact ⟨r, openCode_iff.mpr ⟨by rw [htyped]; exact hget, hunused, hexpires ▸ hlive⟩⟩

/-- An operator issues Ana a code. -/
def anaInvited : Served :=
  ⟨.standIn, .admin ⟨"usr_eva", "acme", "acme", ∅, false⟩ (.issueActivationCode "usr_ana"),
    .numbered 1⟩

/-- She types it, after she has logged in with her password. -/
theorem activation_life_typed : ∃ r, openCode .standIn (.numbered 3)
    (Served.after .standIn ⟨anaInvited.after .standIn, anaLogsIn, .usual 2⟩).toArtefacts
      (newActivationCode "code-1") = some r := by
  have hevaluated : ((anaInvited.writes .standIn).any fun w => match w with
      | .artefact (.insertActivationCode r) =>
          r.codeHash == hashCode .standIn (newActivationCode "code-1") &&
            decide (seconds 3 < r.expiresAt)
      | _ => false) = true := by
    decide +kernel
  obtain ⟨w, hw, hchecked⟩ := List.any_eq_true.mp hevaluated
  split at hchecked
  case h_2 => cases hchecked
  case h_1 row =>
    obtain ⟨hhash, hexpires⟩ : row.codeHash = hashCode .standIn (newActivationCode "code-1") ∧
        seconds 3 < row.expiresAt := by simpa using hchecked
    have hrun : Run .standIn .standIn
        ([⟨anaInvited.after .standIn, anaLogsIn, .usual 2⟩] ++ anaInvited :: []) _ :=
      .cons (.cons .nil _ _) _ _
    refine (activation_life hrun hw hhash.symm (.numbered 3)).2.mpr ⟨hexpires, fun m hm hends => ?_⟩
    rw [List.mem_singleton.mp hm] at hends
    cases hends with
    | used event =>
        obtain ⟨_, _, hrequest, -⟩ := event.request
        cases hrequest
    | replaced event =>
        obtain ⟨_, hrequest, -⟩ := event.request
        cases hrequest

/-! ## One code at a time -/

/-- No user has two codes that have not been used. -/
def OneOpenCode (db : Db) : Prop :=
  ∀ r ∈ db.activationCodes, ∀ r' ∈ db.activationCodes, r.consumedAt = none →
    r'.consumedAt = none → r.userId = r'.userId → r = r'

/-- A code that is unused after a statement was unused before, or is inserted by it. -/
theorem unused_effect {w : Write} {r : ActivationCode}
    (hr : r ∈ (Statement.effect w db).activationCodes) (hunused : r.consumedAt = none) :
    (∃ old ∈ db.activationCodes, old.codeHash = r.codeHash ∧ old.userId = r.userId ∧
      old.consumedAt = none) ∨ w = .artefact (.insertActivationCode r) := by
  cases w with
  | directory w => exact Or.inl ⟨r, hr, rfl, rfl, hunused⟩
  | artefact w =>
      rcases mem_activationCodes_effect hr with hold | rfl | ⟨old, hold, nonce, rfl, rfl⟩ | hused
      · exact Or.inl ⟨r, hold, rfl, rfl, hunused⟩
      · exact Or.inr rfl
      · exact Or.inl ⟨old, hold, rfl, rfl, hunused⟩
      · exact absurd hunused hused

theorem oneOpenCode_after {m : Served} (h : OneOpenCode m.before) :
    OneOpenCode (m.after env) := by
  by_cases hissues : ∃ row, .artefact (.insertActivationCode row) ∈ m.writes env
  · obtain ⟨row, hrow⟩ := hissues
    obtain ⟨issuedBy, -, -, hafter⟩ := issued_of_created hrow
    rw [hafter]
    -- what the user had is used now, and nobody else's codes have changed
    have hcases : ∀ r ∈ ((ArtefactWrite.insertActivationCode row).effect
          ((ArtefactWrite.supersedeActivationCodes row.userId m.draws.now).effect
            m.before.toArtefacts)).activationCodes, r.consumedAt = none →
        r = row ∨ r.userId ≠ row.userId ∧ r ∈ m.before.activationCodes := by
      intro r hr hunused
      rcases Table.mem_or_eq_of_mem_insert hr with hold | rfl
      · have hother : r.userId ≠ row.userId := fun hsame =>
          consumed_of_supersede hold hsame hunused
        rcases mem_activationCodes_effect hold with hbefore | hinsert | ⟨_, _, _, hset, -⟩ | hused
        · exact Or.inr ⟨hother, hbefore⟩
        · cases hinsert
        · cases hset
        · exact absurd hunused hused
      · exact Or.inl rfl
    intro r hr r' hr' hunused hunused' huser
    rcases hcases r hr hunused with rfl | ⟨hother, hold⟩ <;>
      rcases hcases r' hr' hunused' with rfl | ⟨hother', hold'⟩
    · rfl
    · exact absurd huser.symm hother'
    · exact absurd huser hother
    · exact h r hold r' hold' hunused hunused' huser
  · have path := Path.of_commit (P := fun _ w => w ∈ m.writes env) (m.commit_writes env)
      fun w hw _ => hw
    refine path.invariant (fun db w hdb hw _ => ?_) h
    intro r hr r' hr' hunused hunused' huser
    rcases unused_effect hr hunused with ⟨old, hold, hkey, holdUser, holdUnused⟩ | rfl
    · rcases unused_effect hr' hunused' with ⟨old', hold', hkey', holdUser', holdUnused'⟩ | rfl
      · have hsame := hdb old hold old' hold' holdUnused holdUnused'
          (holdUser.trans (huser.trans holdUser'.symm))
        refine Table.eq_of_key_eq hr hr' ?_
        rw [← hkey, ← hkey', hsame]
      · exact absurd ⟨_, hw⟩ hissues
    · exact absurd ⟨_, hw⟩ hissues

/-! ## The command line -/

/-- `activation.main`: break-glass.  It answers nothing when there is no enabled user
of that email in the tenant. -/
def activationMain (env : Env) (d : Draws) (tenant email : String) :
    App (Option ActivationCodeResponse) :=
  transaction do
    let user ← read fun db => userByEmail env db.toDirectory tenant email
    match user.filter User.enabled with
    | none => pure none
    | some user => do
        let issued ← issueCode env d user "cli"
        pure (some issued)

/-- The operator the command line stands for. -/
def cliOperator (tenant : String) : Operator := ⟨"cli", tenant, tenant, ∅, false⟩

/-- The state the command line leaves. -/
def cliAfter (env : Env) (db : Db) (d : Draws) (tenant email : String) : Db :=
  ((activationMain env d tenant email).run ⟨db, [], []⟩).2.db

/-- The command line issues a code as an operator of the user's tenant does, or does
nothing. -/
theorem cliAfter_cases (db : Db) (d : Draws) (tenant email : String) :
    (∃ userId, cliAfter env db d tenant email = Served.after env
      ⟨db, .admin (cliOperator tenant) (.issueActivationCode userId), d⟩) ∨
    cliAfter env db d tenant email = db := by
  cases hfound : (userByEmail env db.toDirectory tenant email).filter User.enabled with
  | none =>
      right
      simp [cliAfter, activationMain, transaction, run_bind, hfound]
  | some user =>
      left
      obtain ⟨hfirst, henabled⟩ := Option.filter_eq_some_iff.mp hfound
      obtain ⟨hmem, hp⟩ := Table.first?_eq_some hfirst
      have htenant : user.tenantId = tenant := by
        simp only [Bool.and_eq_true, beq_iff_eq] at hp
        exact hp.1
      have hown : (db.users.get user.userId).filter (fun r => r.tenantId == tenant) =
          some user := by
        simp [Table.get_of_mem hmem, htenant]
      refine ⟨user.userId, ?_⟩
      simp only [cliAfter, activationMain, Served.after, Served.outcome, serve, serveAdmin, answer,
        issueActivationCode, requireUser, cliOperator, transaction, run_bind, run_read, hfound,
        hown, require, run_pure, raiseIf, henabled, Bool.true_eq_false, if_false]
      rcases (issueCode env d user "cli").run ⟨db, [], []⟩ with ⟨e | response, t'⟩ <;> rfl

/-- The states that requests and the command line lead to, in any order. -/
inductive SiteRun (env : Env) (start : Db) : Db → Prop where
  | start : SiteRun env start start
  | request {db : Db} (init : SiteRun env start db) (request : Request) (draws : Draws) :
      SiteRun env start (Served.after env ⟨db, request, draws⟩)
  | cli {db : Db} (init : SiteRun env start db) (tenant email : String) (draws : Draws) :
      SiteRun env start (cliAfter env db draws tenant email)

/-- The command line adds no state that requests do not lead to. -/
theorem site_refines (run : SiteRun env start db) : ∃ hist, Run env start hist db := by
  induction run with
  | start => exact ⟨[], .nil⟩
  | request init request draws ih =>
      obtain ⟨hist, hrun⟩ := ih
      exact ⟨_, hrun.cons request draws⟩
  | @cli db init tenant email draws ih =>
      obtain ⟨hist, hrun⟩ := ih
      rcases cliAfter_cases db draws tenant email with ⟨userId, hsame⟩ | hsame
      · rw [hsame]
        exact ⟨_, hrun.cons _ draws⟩
      · rw [hsame]
        exact ⟨hist, hrun⟩

/-- **One code at a time.**  However codes are issued, by operators or from the command
line, and whatever else happens, no user ever has two that have not been used. -/
theorem one_open_code (hstart : OneOpenCode start) (run : SiteRun env start db) :
    OneOpenCode db := by
  obtain ⟨hist, hrun⟩ := site_refines run
  exact hrun.invariant (fun m h => oneOpenCode_after h) hstart

/-- An operator issues Ana a code, and the command line another. -/
theorem one_open_code_twice : OneOpenCode (cliAfter .standIn
    (anaInvited.after .standIn) (.numbered 2) "acme" "ana@acme") :=
  one_open_code (fun _ hr => absurd hr (Table.not_mem_empty _))
    (.cli (.request .start _ _) "acme" "ana@acme" (.numbered 2))

end RbaIdp
