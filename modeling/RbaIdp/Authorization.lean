import RbaIdp.Effects.Serve

/-!
# Who an operator may act for

`authorize` turns a bearer token into an operator.  What it promises is read off
one state; that it confines operators to their tenant is a fact about runs,
because the flag it rests on, `is_platform`, might have been set on the way.  No
request sets it: tenants are created without it, and no statement changes it.
-/

namespace RbaIdp

open Relational Program

variable {env : Env} {d : Draws}

/-! ## One state -/

/-- What `authorize` has established about the caller of a request. -/
structure Authorized (env : Env) (db : Db) (now : Time) (authorization : Option String)
    (needs : Scope) (row : IdpSession) (user : User) (home : Tenant) (op : Operator) : Prop where
  bearer : Bearer env db now authorization row user
  homeTenant : db.tenants.get user.tenantId = some home
  console : home.consoleApplicationId = some row.applicationId
  permission : scope needs ∈ effectivePermissions db.toDirectory user.userId row.applicationId
  caller : op.userId = user.userId ∧ op.homeTenantId = user.tenantId
  permissions : op.permissions =
    effectivePermissions db.toDirectory user.userId row.applicationId
  platform : op.isPlatformOperator = true ↔ home.isPlatform = true ∧
    scope TENANTS_READ ∈ effectivePermissions db.toDirectory user.userId row.applicationId
  tenant : op.tenantId = user.tenantId ∨
    (home.isPlatform = true ∧
      scope TENANTS_READ ∈ effectivePermissions db.toDirectory user.userId row.applicationId ∧
      (db.tenants.get op.tenantId).isSome)

theorem wp_authorize {authorization actingTenant : Option String} {needs : Scope}
    {Q : Operator → World → Prop} {E : World → Prop} {t : World}
    (hok : ∀ row user home op, Authorized env t.db d.now authorization needs row user home op →
      Q op t)
    (herror : ∀ t' : World, E t') :
    (authorize env d authorization actingTenant needs).wp Q E t := by
  rw [authorize, wp_bind]
  refine wp_loadSession (fun row user hbearer => ?_) (herror t)
  simp only [resolveTenant, requireTenant, wp_bind, wp_transaction, wp_read, wp_require, wp_when,
    wp_raiseIf, wp_pure]
  refine ⟨fun _ => herror _, fun home hhome => ?_⟩
  obtain ⟨hget, hconsole⟩ := Option.filter_eq_some_iff.mp hhome
  have hid : home.tenantId = user.tenantId := Table.key_of_get hget
  have hconsole : home.consoleApplicationId = some row.applicationId := by
    simpa using (beq_iff_eq.mp hconsole).symm
  have hauthorized : ∀ target : String, (target = home.tenantId ∨ ((home.isPlatform &&
        decide (scope TENANTS_READ ∈ effectivePermissions t.db.toDirectory user.userId
          row.applicationId)) = true ∧ (t.db.tenants.get target).isSome)) →
      scope needs ∈ effectivePermissions t.db.toDirectory user.userId row.applicationId →
      Authorized env t.db d.now authorization needs row user home
        ⟨user.userId, user.tenantId, target,
          effectivePermissions t.db.toDirectory user.userId row.applicationId,
          home.isPlatform && decide (scope TENANTS_READ ∈ effectivePermissions t.db.toDirectory
            user.userId row.applicationId)⟩ := by
    intro target htarget hneeds
    refine ⟨hbearer, hget, hconsole, hneeds, ⟨rfl, rfl⟩, rfl, by simp, ?_⟩
    rcases htarget with rfl | ⟨hplatform, hsome⟩
    · exact Or.inl hid
    · rw [Bool.and_eq_true, decide_eq_true_eq] at hplatform
      exact Or.inr ⟨hplatform.1, hplatform.2, hsome⟩
  refine ⟨fun _ => ⟨fun _ => herror _, fun hplatform => ⟨fun _ => herror _, fun other hother =>
    ⟨fun _ => herror _, fun hneeds => ?_⟩⟩⟩, fun hown => ⟨fun _ => herror _, fun hneeds => ?_⟩⟩
  · refine hok row user home _ (hauthorized _ (Or.inr ⟨?_, by simp [hother]⟩) (not_not.mp hneeds))
    simpa using hplatform
  · exact hok row user home _ (hauthorized _ (Or.inl (not_not.mp hown)) (not_not.mp hneeds))

/-- The answer of `authorize` in a state. -/
def authorizeAnswer (env : Env) (db : Db) (d : Draws) (authorization actingTenant : Option String)
    (needs : Scope) : Except (Failure HTTPException) Operator :=
  ((authorize env d authorization actingTenant needs).run ⟨db, [], []⟩).1

theorem authorized_of_answer {db : Db} {authorization actingTenant : Option String}
    {needs : Scope} {op : Operator}
    (h : authorizeAnswer env db d authorization actingTenant needs = .ok op) :
    ∃ row user home, Authorized env db d.now authorization needs row user home op :=
  wp_of_ok (wp_authorize (Q := fun op _ =>
      ∃ row user home, Authorized env db d.now authorization needs row user home op)
    (fun row user home _ h => ⟨row, user, home, h⟩) (E := fun _ => True) fun _ => trivial)
    (Prod.ext h rfl)

/-- The caller is a user of the platform tenant who may read tenants there. -/
def PlatformCaller (db : Db) (row : IdpSession) (user : User) : Prop :=
  db.isPlatform user.tenantId = some true ∧
    scope TENANTS_READ ∈ effectivePermissions db.toDirectory user.userId row.applicationId

/-- The header names a tenant other than the caller's own. -/
def NamesAnother (user : User) (actingTenant : String) : Prop :=
  strip actingTenant ≠ "" ∧ strip actingTenant ≠ user.tenantId

/-- Naming another tenant is refused without looking at which one it is. -/
theorem run_resolveTenant {row : IdpSession} {user : User} {permissions : Finset String}
    {actingTenant : String} {t : World}
    (hcaller : ¬ (t.db.isPlatform user.tenantId = some true ∧ scope TENANTS_READ ∈ permissions))
    (hnames : NamesAnother user actingTenant) :
    (resolveTenant row user permissions (some actingTenant)).run t =
      match (t.db.tenants.get user.tenantId).filter fun home =>
          some row.applicationId == home.consoleApplicationId with
      | none => (.error (.raised ⟨403, "not a console session"⟩), t)
      | some _ => (.error (.raised (requiresPermission TENANTS_READ)), t) := by
  have htarget : nonEmpty (some (strip actingTenant)) = some (strip actingTenant) := by
    simp [nonEmpty, hnames.1]
  cases hhome : (t.db.tenants.get user.tenantId).filter fun home =>
      some row.applicationId == home.consoleApplicationId with
  | none => simp [resolveTenant, transaction, run_bind, hhome, require]
  | some home =>
      obtain ⟨hget, -⟩ := Option.filter_eq_some_iff.mp hhome
      have hother : strip actingTenant ≠ home.tenantId := by
        rw [show home.tenantId = user.tenantId from Table.key_of_get hget]
        exact hnames.2
      have hplatform : home.isPlatform = true → scope TENANTS_READ ∉ permissions := by
        intro hon hread
        exact hcaller ⟨by simp [Directory.isPlatform, hget, hon], hread⟩
      simp [resolveTenant, transaction, run_bind, hhome, require, htarget, when, raiseIf, hother,
        if_pos hplatform]

/-- A caller who is no platform operator gets the same answer whichever other
tenant is named. -/
theorem authorizeAnswer_congr {db : Db} {authorization : Option String} {needs : Scope}
    {first second : String}
    (hcaller : ∀ row user, Bearer env db d.now authorization row user →
      ¬ PlatformCaller db row user ∧ NamesAnother user first ∧ NamesAnother user second) :
    authorizeAnswer env db d authorization (some first) needs =
      authorizeAnswer env db d authorization (some second) needs := by
  unfold authorizeAnswer authorize
  refine congrArg Prod.fst (run_bind_congr fun found t' hrun => ?_)
  obtain ⟨row, user, permissions⟩ := found
  have hload : (loadSession env d authorization).wp
      (fun found t' => Bearer env db d.now authorization found.1 found.2.1 ∧
        found.2.2 = effectivePermissions db.toDirectory found.2.1.userId found.1.applicationId ∧
        t' = ⟨db, [], []⟩) (fun _ => True) ⟨db, [], []⟩ :=
    wp_loadSession (fun row user hbearer => ⟨hbearer, rfl, rfl⟩) trivial
  obtain ⟨hbearer, hpermissions, rfl⟩ := wp_of_ok hload hrun
  obtain ⟨hplatform, hfirst, hsecond⟩ := hcaller row user hbearer
  simp only at hpermissions
  simp only [run_bind]
  rw [run_resolveTenant (by rw [hpermissions]; exact hplatform) hfirst,
    run_resolveTenant (by rw [hpermissions]; exact hplatform) hsecond]

/-! ## Any number of requests -/

/-- No request makes a tenant the platform. -/
theorem isPlatform_after {s : Served} {tenantId : String}
    (h : (s.after env).isPlatform tenantId = some true) :
    s.before.isPlatform tenantId = some true := by
  by_contra hbefore
  refine (Served.path env s).invariant (I := fun db => db.isPlatform tenantId ≠ some true)
    (fun db w hdb hallows _ hafter => hdb ?_) hbefore h
  cases hallows with
  | artefact w => exact hafter
  | lastLogin userId now => exact hafter
  | edit _ _ hscoped =>
      rcases isPlatform_of_effect hafter with hold | ⟨row, rfl, -⟩
      · exact hold
      · exact hscoped.elim
  | found _ hfounds =>
      rcases isPlatform_of_effect hafter with hold | ⟨row, rfl, hplatform⟩
      · exact hold
      · have hrow : row = tenantRow env s.draws _ := hfounds
        rw [hrow] at hplatform
        cases hplatform

theorem isPlatform_run {start db : Db} {hist : List Served} (run : Run env start hist db)
    {tenantId : String} (h : db.isPlatform tenantId = some true) :
    start.isPlatform tenantId = some true := by
  induction run with
  | nil => exact h
  | cons _ _ _ ih => exact ih (isPlatform_after h)

/-- **Operators are confined.**  In every state a run of requests leads to:
whoever `authorize` makes an operator holds a live session of an enabled user on
the console of the user's own tenant, with the permission asked for, and acts for
that tenant, or for an existing one as a platform operator; a tenant that is the
platform was the platform before the run, so that the users of every other tenant
act for their own tenant only; and a caller who is no platform operator gets one
answer for all other tenants. -/
theorem authorize_confines {start db : Db} {hist : List Served} (run : Run env start hist db) :
    (∀ d authorization actingTenant needs op,
      authorizeAnswer env db d authorization actingTenant needs = .ok op →
      ∃ row user home, Authorized env db d.now authorization needs row user home op ∧
        (start.isPlatform user.tenantId ≠ some true → op.tenantId = user.tenantId)) ∧
    (∀ tenantId, db.isPlatform tenantId = some true → start.isPlatform tenantId = some true) ∧
    ∀ (d : Draws) authorization needs first second,
      (∀ row user, Bearer env db d.now authorization row user →
        ¬ PlatformCaller db row user ∧ NamesAnother user first ∧ NamesAnother user second) →
      authorizeAnswer env db d authorization (some first) needs =
        authorizeAnswer env db d authorization (some second) needs := by
  refine ⟨fun d authorization actingTenant needs op hanswer => ?_,
    fun tenantId => isPlatform_run run, fun d authorization needs first second =>
      authorizeAnswer_congr⟩
  obtain ⟨row, user, home, hauthorized⟩ := authorized_of_answer hanswer
  refine ⟨row, user, home, hauthorized, fun hnot => ?_⟩
  rcases hauthorized.tenant with hown | ⟨hplatform, -⟩
  · exact hown
  · refine absurd (isPlatform_run run ?_) hnot
    simp [Directory.isPlatform, hauthorized.homeTenant, hplatform]

/-- Ana, on the staff of a tenant whose console is the portal, logs in there. -/
def anaOnConsole : List Served × Db := play .standIn .standInConsole [(anaLogsIn, .usual 1)]

theorem authorize_confines_console : ∃ op, authorizeAnswer .standIn anaOnConsole.2 (.usual 2)
    (bearer 1) (some "acme") ADMIN_READ = .ok op ∧ op.tenantId = "acme" := by
  have hevaluated : (authorizeAnswer .standIn anaOnConsole.2 (.usual 2) (bearer 1) (some "acme")
        ADMIN_READ).isOk = true ∧
      Db.standInConsole.isPlatform "acme" = some false ∧
      ∀ user ∈ anaOnConsole.2.users.rows, user.tenantId = "acme" := by
    decide +kernel
  obtain ⟨hok, hplatform, husers⟩ := hevaluated
  cases hanswer : authorizeAnswer .standIn anaOnConsole.2 (.usual 2) (bearer 1) (some "acme")
      ADMIN_READ with
  | error e => simp [hanswer, Except.isOk, Except.toBool] at hok
  | ok op =>
      obtain ⟨row, user, home, hauthorized, hconfined⟩ :=
        (authorize_confines (run_play _)).1 _ _ _ _ _ hanswer
      have htenant := husers user (Table.mem_of_get hauthorized.bearer.owner)
      refine ⟨op, rfl, ?_⟩
      rw [← htenant]
      refine hconfined ?_
      rw [htenant, hplatform]
      simp

end RbaIdp
