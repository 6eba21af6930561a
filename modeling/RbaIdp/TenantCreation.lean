import RbaIdp.Effects.Serve
import RbaIdp.Relational.Events

/-!
# Creating a tenant, next to everything else

`create_tenant` writes to two stores with no transaction over both: it checks that
the id is free, puts the starter policy at the PDP, and inserts the tenant.  Here
the three stages that `createTenant` is made of are events of their own, between
which other calls of `create_tenant`, `put_policy` by operators and any other
requests take place.

A call that fails is compared with the same events without it: `replay` runs the
events that are left.
-/

namespace RbaIdp

open Relational Program

variable {env : Env}

/-! ## The stages -/

/-- What the PDP client reports of a `put_policy`: `ControlPlaneUnavailable` says
nothing about whether the policy was stored. -/
inductive PutOutcome where
  | saved
  | rejected
  | unavailable (stored : Bool)
deriving DecidableEq

def PutOutcome.stores : PutOutcome → Bool
  | saved => true
  | rejected => false
  | unavailable stored => stored

/-- Where a call of `create_tenant` is. -/
inductive CreateCall where
  | idle
  | checked (body : CreateTenantRequest) (draws : Draws)
  | policySaved (body : CreateTenantRequest) (draws : Draws)
  | failed (error : Failure HTTPException)
  | created (tenantId : String)

/-- The identity provider, the policies at the PDP, and the calls of
`create_tenant`. -/
structure Platform where
  db : Db
  policies : String → Option TenantPolicy
  calls : ℕ → CreateCall

inductive PlatformEvent where
  | check (call : ℕ) (body : CreateTenantRequest) (draws : Draws)
  | putStarter (call : ℕ) (outcome : PutOutcome)
  | insert (call : ℕ)
  | putPolicy (op : Operator) (body : TenantPolicy) (outcome : PutOutcome)
  | request (request : Request) (draws : Draws)

/-- The call of `create_tenant` an event is a stage of. -/
def PlatformEvent.call : PlatformEvent → Option ℕ
  | check call _ _ | putStarter call _ | insert call => some call
  | putPolicy _ _ _ | request _ _ => none

def Request.isCreateTenant : Request → Bool
  | .admin _ (.createTenant _) => true
  | _ => false

namespace Platform

def setCall (s : Platform) (call : ℕ) (c : CreateCall) : Platform :=
  { s with calls := Function.update s.calls call c }

/-- A policy is put at the PDP. -/
def put (s : Platform) (policy : TenantPolicy) (outcome : PutOutcome) : Platform :=
  { s with policies :=
    if outcome.stores then Function.update s.policies policy.tenantId (some policy)
    else s.policies }

end Platform

/-- The state an event leads to, when it can take place. -/
def PlatformEvent.apply (env : Env) (s : Platform) : PlatformEvent → Option Platform
  | check call body draws =>
      match s.calls call with
      | .idle =>
          match ((checkTenant body).run ⟨s.db, [], []⟩).1 with
          | .ok _ => some (s.setCall call (.checked body draws))
          | .error e => some (s.setCall call (.failed e))
      | _ => none
  | putStarter call outcome =>
      match s.calls call with
      | .checked body draws =>
          some ((s.put (starterPolicy body.tenantId) outcome).setCall call
            (if outcome = .saved then .policySaved body draws
            else .failed (.raised PDP_UNAVAILABLE)))
      | _ => none
  | insert call =>
      match s.calls call with
      | .policySaved body draws =>
          match (insertTenant env draws body).run ⟨s.db, [], []⟩ with
          | (.ok _, t) => some ({ s with db := t.db }.setCall call (.created body.tenantId))
          | (.error e, t) => some ({ s with db := t.db }.setCall call (.failed e))
      | _ => none
  | putPolicy op body outcome =>
      -- the operator's tenant is there, and a body for another one is refused
      if (s.db.tenants.get op.tenantId).isSome then
        some (if body.tenantId = op.tenantId then s.put body outcome else s)
      else none
  | request r draws =>
      if r.isCreateTenant then none else some { s with db := Served.after env ⟨s.db, r, draws⟩ }

/-- A starter policy is stored before its tenant exists, or where it is stored
already. -/
def BeforeTheTenant (s : Platform) : PlatformEvent → Prop
  | .putStarter call outcome => ∀ body draws, s.calls call = .checked body draws →
      outcome.stores = true → s.db.tenants.get body.tenantId = none ∨
        s.policies body.tenantId = some (starterPolicy body.tenantId)
  | _ => True

instance (s : Platform) : DecidablePred (BeforeTheTenant s)
  | .putStarter call outcome =>
      match hcall : s.calls call with
      | .checked body draws =>
          decidable_of_iff (outcome.stores = true → s.db.tenants.get body.tenantId = none ∨
            s.policies body.tenantId = some (starterPolicy body.tenantId)) (by
              simp only [BeforeTheTenant, hcall, CreateCall.checked.injEq]
              exact ⟨fun h _ _ heq => heq.1 ▸ h, fun h => h body draws ⟨rfl, rfl⟩⟩)
      | .idle | .policySaved _ _ | .failed _ | .created _ =>
          isTrue fun _ _ heq => by simp [hcall] at heq
  | .check _ _ _ | .insert _ | .putPolicy _ _ _ | .request _ _ => isTrue trivial

/-- What every state of a run has to satisfy. -/
structure CreationLaw (env : Env) (start : Platform) (events : List PlatformEvent) (s : Platform) :
    Prop where
  /-- a tenant that was not there from the start has a policy -/
  policy : ∀ tenant ∈ s.db.tenants,
    start.db.tenants.get tenant.tenantId = none → s.policies tenant.tenantId ≠ none
  /-- a call that failed has changed nothing: without its events, the database is
  the same and so is the policy of every tenant -/
  harmless : ∀ call e, s.calls call = .failed e →
    ∃ s₀, replay (PlatformEvent.apply env) start
        (events.filter fun event => event.call ≠ some call) = some s₀ ∧
      s₀.db = s.db ∧
      ∀ tenant ∈ s.db.tenants, s₀.policies tenant.tenantId = s.policies tenant.tenantId

/-! ## Which tenants are there -/

theorem tenant_of_effect {db : Directory} {w : DirectoryWrite} {tenantId : String}
    (h : ((w.effect db).tenants.get tenantId).isSome) :
    (db.tenants.get tenantId).isSome ∨ ∃ row, w = .insertTenant row ∧ row.tenantId = tenantId := by
  cases w with
  | insertTenant row =>
      rw [DirectoryWrite.effect, Table.get_insert] at h
      by_cases hkey : row.tenantId = tenantId
      · exact Or.inr ⟨row, rfl, hkey⟩
      · exact Or.inl (by simpa [hkey] using h)
  | setTenantName | setTenantBranding | setTenantLogo | setTenantAnchors =>
      exact Or.inl (by simpa [DirectoryWrite.effect] using h)
  | _ => exact Or.inl h

/-- Tenants stay. -/
theorem tenant_of_commit {ws : List Write} {db db' : Db} (hcommit : commit ws db = some db')
    {tenantId : String} (hnone : db'.tenants.get tenantId = none) :
    db.tenants.get tenantId = none := by
  have hstays : Invariant Write fun db : Db => (db.tenants.get tenantId).isSome := by
    intro w db _ hdb
    cases w with
    | directory w => exact tenants_effect hdb
    | artefact w => exact hdb
  rw [Option.eq_none_iff_forall_ne_some]
  intro tenant htenant
  have hafter := commit_invariant hstays hcommit (by simp [htenant])
  simp [hnone] at hafter

/-- Only the insertion of a tenant brings one. -/
theorem tenant_of_path {P : Db → Write → Prop} {ws : List Write} {db db' : Db} {tenantId : String}
    (hP : ∀ db row, P db (.directory (.insertTenant row)) → row.tenantId ≠ tenantId)
    (path : Path P db ws db') (hnone : db.tenants.get tenantId = none) :
    db'.tenants.get tenantId = none := by
  refine path.invariant (I := fun db => db.tenants.get tenantId = none)
    (fun db w hdb hw _ => ?_) hnone
  cases w with
  | artefact w => exact hdb
  | directory w =>
      rw [← Option.not_isSome_iff_eq_none]
      intro hsome
      rcases tenant_of_effect hsome with hold | ⟨row, rfl, hrow⟩
      · simp [hdb] at hold
      · exact hP db row hw hrow

/-- A request that is not `create_tenant` leaves the tenants there are. -/
theorem tenant_of_served (env : Env) {s : Served} (hrequest : s.request.isCreateTenant = false)
    (tenantId : String) :
    (s.after env).tenants.get tenantId = none ↔ s.before.tenants.get tenantId = none := by
  refine ⟨tenant_of_commit (s.commit_writes env), tenant_of_path (fun db row hallows => ?_)
    (s.path env)⟩
  cases hallows with
  | edit _ _ hscoped => exact hscoped.elim
  | found hcreate _ => simp [hcreate, Request.isCreateTenant] at hrequest

theorem tenant_of_insert {d : Draws} {body : CreateTenantRequest} {db : Db} {t : World}
    {response : TenantPublic}
    (hrun : (insertTenant env d body).run ⟨db, [], []⟩ = (.ok response, t)) {tenantId : String}
    (hne : body.tenantId ≠ tenantId) :
    t.db.tenants.get tenantId = none ↔ db.tenants.get tenantId = none := by
  have hstart : Founded env d body ⟨db, [], []⟩ [] ⟨db, [], []⟩ := ⟨Extends.refl _, by simp⟩
  have hinserted := wp_insertTenant hstart (E := fun _ => True) fun _ _ _ => trivial
  obtain ⟨⟨ws, -, path⟩, -⟩ := wp_of_ok hinserted hrun
  refine ⟨tenant_of_commit path.commit, tenant_of_path (fun db row hfounding => ?_) path⟩
  obtain ⟨w, hw, hfounds⟩ := hfounding
  cases hw
  rw [hfounds]
  exact hne

/-- A refused insertion is rolled back. -/
theorem db_of_insert_error {d : Draws} {body : CreateTenantRequest} {db : Db} {t : World}
    {e : Failure HTTPException}
    (hrun : (insertTenant env d body).run ⟨db, [], []⟩ = (.error e, t)) :
    t.db = db :=
  transaction_db_of_error hrun

/-! ## Steps -/

variable {s s' s₀ : Platform} {event : PlatformEvent}

/-- What an event can do, with what has let it. -/
inductive Stage (env : Env) (s : Platform) : PlatformEvent → Platform → Prop
  | checked {call : ℕ} {body : CreateTenantRequest} {draws : Draws} {free : Unit}
      (hcall : s.calls call = .idle)
      (hrun : ((checkTenant body).run ⟨s.db, [], []⟩).1 = .ok free) :
      Stage env s (.check call body draws) (s.setCall call (.checked body draws))
  | refused {call : ℕ} {body : CreateTenantRequest} {draws : Draws} {e : Failure HTTPException}
      (hcall : s.calls call = .idle)
      (hrun : ((checkTenant body).run ⟨s.db, [], []⟩).1 = .error e) :
      Stage env s (.check call body draws) (s.setCall call (.failed e))
  | saved {call : ℕ} {body : CreateTenantRequest} {draws : Draws}
      (hcall : s.calls call = .checked body draws) :
      Stage env s (.putStarter call .saved)
        ((s.put (starterPolicy body.tenantId) .saved).setCall call (.policySaved body draws))
  | unavailable {call : ℕ} {outcome : PutOutcome} {body : CreateTenantRequest} {draws : Draws}
      (hcall : s.calls call = .checked body draws) (houtcome : outcome ≠ .saved) :
      Stage env s (.putStarter call outcome)
        ((s.put (starterPolicy body.tenantId) outcome).setCall call
          (.failed (.raised PDP_UNAVAILABLE)))
  | inserted {call : ℕ} {body : CreateTenantRequest} {draws : Draws} {response : TenantPublic}
      {t : World} (hcall : s.calls call = .policySaved body draws)
      (hrun : (insertTenant env draws body).run ⟨s.db, [], []⟩ = (.ok response, t)) :
      Stage env s (.insert call) ({ s with db := t.db }.setCall call (.created body.tenantId))
  | rolledBack {call : ℕ} {body : CreateTenantRequest} {draws : Draws}
      {e : Failure HTTPException} {t : World} (hcall : s.calls call = .policySaved body draws)
      (hrun : (insertTenant env draws body).run ⟨s.db, [], []⟩ = (.error e, t)) :
      Stage env s (.insert call) (s.setCall call (.failed e))
  | put {op : Operator} {body : TenantPolicy} {outcome : PutOutcome}
      (hthere : (s.db.tenants.get op.tenantId).isSome) (hown : body.tenantId = op.tenantId) :
      Stage env s (.putPolicy op body outcome) (s.put body outcome)
  | foreign {op : Operator} {body : TenantPolicy} {outcome : PutOutcome}
      (hthere : (s.db.tenants.get op.tenantId).isSome) (hforeign : body.tenantId ≠ op.tenantId) :
      Stage env s (.putPolicy op body outcome) s
  | served {r : Request} {draws : Draws} (hrequest : r.isCreateTenant = false) :
      Stage env s (.request r draws) { s with db := Served.after env ⟨s.db, r, draws⟩ }

theorem apply_of_stage (h : Stage env s event s') : PlatformEvent.apply env s event = some s' := by
  cases h with
  | checked hcall hrun => simp [PlatformEvent.apply, hcall, hrun]
  | refused hcall hrun => simp [PlatformEvent.apply, hcall, hrun]
  | saved hcall => simp [PlatformEvent.apply, hcall]
  | unavailable hcall houtcome => simp [PlatformEvent.apply, hcall, houtcome]
  | inserted hcall hrun => simp [PlatformEvent.apply, hcall, hrun]
  | rolledBack hcall hrun => simp [PlatformEvent.apply, hcall, hrun, db_of_insert_error hrun]
  | put hthere hown => simp [PlatformEvent.apply, hthere, hown]
  | foreign hthere hforeign => simp [PlatformEvent.apply, hthere, hforeign]
  | served hrequest => simp [PlatformEvent.apply, hrequest]

theorem stage_of_apply (h : PlatformEvent.apply env s event = some s') : Stage env s event s' := by
  cases event with
  | check call body draws =>
      simp only [PlatformEvent.apply] at h
      split at h
      · next hcall =>
          split at h
          · next hrun =>
              cases h
              exact .checked hcall hrun
          · next hrun =>
              cases h
              exact .refused hcall hrun
      · cases h
  | putStarter call outcome =>
      simp only [PlatformEvent.apply] at h
      split at h
      · next hcall =>
          cases h
          by_cases houtcome : outcome = .saved
          · subst houtcome
            exact .saved hcall
          · rw [if_neg houtcome]
            exact .unavailable hcall houtcome
      · cases h
  | insert call =>
      simp only [PlatformEvent.apply] at h
      split at h
      · next hcall =>
          split at h
          · next hrun =>
              cases h
              exact .inserted hcall hrun
          · next hrun =>
              cases h
              rw [db_of_insert_error hrun]
              exact .rolledBack hcall hrun
      · cases h
  | putPolicy op body outcome =>
      simp only [PlatformEvent.apply] at h
      split at h
      · next hthere =>
          cases h
          by_cases hown : body.tenantId = op.tenantId
          · rw [if_pos hown]
            exact .put hthere hown
          · rw [if_neg hown]
            exact .foreign hthere hown
      · cases h
  | request r draws =>
      simp only [PlatformEvent.apply] at h
      split at h
      · cases h
      · next hrequest =>
          cases h
          exact .served (by simpa using hrequest)

@[simp] theorem calls_setCall_self {call : ℕ} {c : CreateCall} :
    (s.setCall call c).calls call = c := by
  simp [Platform.setCall]

theorem calls_setCall_of_ne {call other : ℕ} {c : CreateCall} (h : other ≠ call) :
    (s.setCall call c).calls other = s.calls other := by
  simp [Platform.setCall, h]

theorem policies_put {policy : TenantPolicy} {outcome : PutOutcome} {tenantId : String} :
    (s.put policy outcome).policies tenantId =
      if outcome.stores = true ∧ policy.tenantId = tenantId then some policy
      else s.policies tenantId := by
  unfold Platform.put
  by_cases hsame : tenantId = policy.tenantId
  · subst hsame
    cases outcome.stores <;> simp
  · cases outcome.stores <;> simp [hsame, Ne.symm hsame]

/-- The starter policy that a call has saved is there. -/
theorem put_saved {tenantId : String} :
    (s.put (starterPolicy tenantId) .saved).policies tenantId = some (starterPolicy tenantId) := by
  rw [policies_put, if_pos ⟨rfl, rfl⟩]

/-- A policy is what a call that has saved one, and a tenant that is new, have. -/
structure Provided (start s : Platform) : Prop where
  saved : ∀ call body draws, s.calls call = .policySaved body draws →
    s.policies body.tenantId ≠ none
  tenants : ∀ tenantId, s.db.tenants.get tenantId ≠ none →
    start.db.tenants.get tenantId = none → s.policies tenantId ≠ none

theorem put_ne_none {policy : TenantPolicy} {outcome : PutOutcome} {tenantId : String}
    (h : s.policies tenantId ≠ none) : (s.put policy outcome).policies tenantId ≠ none := by
  rw [policies_put]
  split
  · simp
  · exact h

theorem Provided.put {start : Platform} (h : Provided start s) (policy : TenantPolicy)
    (outcome : PutOutcome) : Provided start (s.put policy outcome) where
  saved call body draws hcall := put_ne_none (h.saved call body draws hcall)
  tenants tenantId htenant hnew := put_ne_none (h.tenants tenantId htenant hnew)

/-- A call goes on; if it has saved its policy, the policy is there. -/
theorem Provided.setCall {start : Platform} (h : Provided start s) {call : ℕ} {c : CreateCall}
    (hc : ∀ body draws, c = .policySaved body draws → s.policies body.tenantId ≠ none) :
    Provided start (s.setCall call c) where
  saved other body draws hcall := by
    by_cases hsame : other = call
    · subst hsame
      rw [calls_setCall_self] at hcall
      exact hc body draws hcall
    · rw [calls_setCall_of_ne hsame] at hcall
      exact h.saved other body draws hcall
  tenants := h.tenants

theorem Provided.apply {start : Platform} (h : Provided start s)
    (hstep : PlatformEvent.apply env s event = some s') : Provided start s' := by
  cases stage_of_apply hstep with
  | checked | refused | rolledBack => exact h.setCall (by simp)
  | saved hcall =>
      refine (h.put _ _).setCall fun body draws hsaved => ?_
      cases hsaved
      simp [put_saved]
  | unavailable => exact (h.put _ _).setCall (by simp)
  | @inserted call body draws response t hcall hrun =>
      have hinserted : Provided start { s with db := t.db } := by
        refine ⟨h.saved, fun tenantId htenant hnew => ?_⟩
        -- the tenant inserted is the one whose policy the call has saved
        by_cases hsame : body.tenantId = tenantId
        · rw [← hsame]
          exact h.saved call body draws hcall
        · exact h.tenants tenantId (mt (tenant_of_insert hrun hsame).mpr htenant) hnew
      exact hinserted.setCall (by simp)
  | put => exact h.put _ _
  | foreign => exact h
  | @served r draws hrequest =>
      refine ⟨h.saved, fun tenantId htenant hnew => ?_⟩
      have hkept := tenant_of_served env (s := ⟨s.db, r, draws⟩) hrequest tenantId
      exact h.tenants tenantId (mt hkept.mpr htenant) hnew

/-! ## Without the call -/

/-- A call past its put, whose tenant is not there yet, finds the starter policy: only
other calls for the same tenant could have replaced it, by the same policy. -/
def SavedStarters (s : Platform) : Prop :=
  ∀ call body draws, s.calls call = .policySaved body draws →
    s.db.tenants.get body.tenantId = none →
      s.policies body.tenantId = some (starterPolicy body.tenantId)

/-- The second state is the first one without a call: the policies may differ only
where there is no tenant and no other call is about to insert one. -/
structure Without (call : ℕ) (s s₀ : Platform) : Prop where
  db : s₀.db = s.db
  calls : ∀ other, other ≠ call → s₀.calls other = s.calls other
  policies : ∀ tenantId, s₀.policies tenantId = s.policies tenantId ∨
    s.db.tenants.get tenantId = none ∧ ∀ other, other ≠ call →
      ∀ body draws, s.calls other = .policySaved body draws → body.tenantId ≠ tenantId

/-- Putting a starter policy leaves a starter policy. -/
theorem put_starter {tenantId other : String} {outcome : PutOutcome}
    (h : s.policies tenantId = some (starterPolicy tenantId)) :
    (s.put (starterPolicy other) outcome).policies tenantId = some (starterPolicy tenantId) := by
  rw [policies_put]
  split
  · next hput => rw [← show other = tenantId from hput.2]
  · exact h

theorem SavedStarters.put (h : SavedStarters s) (tenantId : String) (outcome : PutOutcome) :
    SavedStarters (s.put (starterPolicy tenantId) outcome) :=
  fun call body draws hcall hnone => put_starter (h call body draws hcall hnone)

theorem SavedStarters.setCall (h : SavedStarters s) {call : ℕ} {c : CreateCall}
    (hc : ∀ body draws, c = .policySaved body draws →
      s.policies body.tenantId = some (starterPolicy body.tenantId)) :
    SavedStarters (s.setCall call c) := by
  intro other body draws hcall hnone
  by_cases hsame : other = call
  · subst hsame
    rw [calls_setCall_self] at hcall
    exact hc body draws hcall
  · rw [calls_setCall_of_ne hsame] at hcall
    exact h other body draws hcall hnone

/-- Tenants stay, so that a later database has no more calls to look at. -/
theorem SavedStarters.commit (h : SavedStarters s) {ws : List Write} {db : Db}
    (hcommit : Relational.commit ws s.db = some db) : SavedStarters { s with db := db } :=
  fun call body draws hcall hnone => h call body draws hcall (tenant_of_commit hcommit hnone)

theorem SavedStarters.apply (h : SavedStarters s)
    (hstep : PlatformEvent.apply env s event = some s') : SavedStarters s' := by
  cases stage_of_apply hstep with
  | checked | refused | rolledBack => exact h.setCall (by simp)
  | saved hcall =>
      refine (h.put _ _).setCall fun body draws hsaved => ?_
      cases hsaved
      exact put_saved
  | unavailable => exact (h.put _ _).setCall (by simp)
  | @inserted call body draws response t hcall hrun =>
      obtain ⟨⟨ws, -, hcommit⟩, -⟩ := (insertTenant env draws body).journaled ⟨s.db, [], []⟩
      rw [hrun] at hcommit
      exact (h.commit hcommit).setCall (by simp)
  | @put op body outcome hthere hown =>
      intro call body' draws hcall hnone
      -- the operator's tenant is there, so it is not the one about to be inserted
      have hne : body.tenantId ≠ body'.tenantId := by
        intro heq
        rw [← hown, heq] at hthere
        have hgone : s.db.tenants.get body'.tenantId = none := hnone
        simp [hgone] at hthere
      rw [policies_put, if_neg fun hput => hne hput.2]
      exact h call body' draws hcall hnone
  | foreign => exact h
  | @served r draws => exact h.commit (Served.commit_writes env ⟨s.db, r, draws⟩)

/-- The call itself goes on. -/
theorem Without.setOwn {call : ℕ} {c : CreateCall} (h : Without call s s₀) :
    Without call (s.setCall call c) s₀ := by
  refine ⟨h.db, fun other hne => ?_, fun tenantId => (h.policies tenantId).imp_right
    fun hfree => ⟨hfree.1, fun other hne => ?_⟩⟩
  · rw [calls_setCall_of_ne hne]
    exact h.calls other hne
  · rw [calls_setCall_of_ne hne]
    exact hfree.2 other hne

/-- The call puts its starter policy: before the tenant exists, or where it is already. -/
theorem Without.putOwn {call : ℕ} {tenantId : String} {outcome : PutOutcome}
    (h : Without call s s₀) (hsaved : SavedStarters s)
    (hallowed : outcome.stores = true → s.db.tenants.get tenantId = none ∨
      s.policies tenantId = some (starterPolicy tenantId)) :
    Without call (s.put (starterPolicy tenantId) outcome) s₀ := by
  refine ⟨h.db, h.calls, fun other => ?_⟩
  rw [policies_put]
  split
  · next hput =>
      obtain ⟨hstores, rfl⟩ := hput
      rcases hallowed hstores with hnone | hstarter
      · by_cases hother : ∃ other, other ≠ call ∧ ∃ body draws,
            s.calls other = .policySaved body draws ∧ body.tenantId = tenantId
        · -- another call has put the same policy already
          obtain ⟨other, hne, body, draws, hsaving, rfl⟩ := hother
          have hstarter := hsaved other body draws hsaving hnone
          exact (h.policies body.tenantId).imp_left fun heq => heq.trans hstarter
        · refine Or.inr ⟨hnone, fun other hne body draws hsaving hsame => ?_⟩
          exact hother ⟨other, hne, body, draws, hsaving, hsame⟩
      · exact (h.policies tenantId).imp_left fun heq => heq.trans hstarter
  · exact h.policies other

/-- The events of the call itself: unless they insert the tenant, nothing changes. -/
theorem Without.own {call : ℕ} (h : Without call s s₀) (hown : event.call = some call)
    (hsaved : SavedStarters s) (hallowed : BeforeTheTenant s event)
    (hstep : PlatformEvent.apply env s event = some s') :
    (∃ tenantId, s'.calls call = .created tenantId) ∨ Without call s' s₀ := by
  cases stage_of_apply hstep with
  | checked | refused | rolledBack =>
      cases hown
      exact Or.inr h.setOwn
  | saved hcall | unavailable hcall =>
      cases hown
      exact Or.inr (h.putOwn hsaved (hallowed _ _ hcall)).setOwn
  | inserted =>
      cases hown
      exact Or.inl ⟨_, calls_setCall_self⟩
  | put | foreign | served => cases hown

/-- A call goes on in both states; if it has saved its policy, they have the same one. -/
theorem Without.setCall {call other : ℕ} {c : CreateCall} (h : Without call s s₀)
    (hc : ∀ body draws, c = .policySaved body draws →
      s₀.policies body.tenantId = s.policies body.tenantId) :
    Without call (s.setCall other c) (s₀.setCall other c) := by
  refine ⟨h.db, fun third hne => ?_, fun tenantId => ?_⟩
  · by_cases hsame : third = other
    · rw [hsame, calls_setCall_self, calls_setCall_self]
    · rw [calls_setCall_of_ne hsame, calls_setCall_of_ne hsame]
      exact h.calls third hne
  · by_cases hagree : s₀.policies tenantId = s.policies tenantId
    · exact Or.inl hagree
    · obtain ⟨hnone, hfree⟩ := (h.policies tenantId).resolve_left hagree
      refine Or.inr ⟨hnone, fun third hne body draws hsaving heq => ?_⟩
      by_cases hsame : third = other
      · rw [hsame, calls_setCall_self] at hsaving
        rw [← heq] at hagree
        exact hagree (hc body draws hsaving)
      · rw [calls_setCall_of_ne hsame] at hsaving
        exact hfree third hne body draws hsaving heq

theorem Without.put {call : ℕ} (h : Without call s s₀) (policy : TenantPolicy)
    (outcome : PutOutcome) : Without call (s.put policy outcome) (s₀.put policy outcome) := by
  refine ⟨h.db, h.calls, fun tenantId => ?_⟩
  rw [policies_put, policies_put]
  split
  · exact Or.inl rfl
  · exact h.policies tenantId

/-- The events of everything else: they take place without the call as well, and
lead to the same. -/
theorem Without.others {call : ℕ} (h : Without call s s₀) (hother : event.call ≠ some call)
    (hstep : PlatformEvent.apply env s event = some s') :
    ∃ s₀', PlatformEvent.apply env s₀ event = some s₀' ∧ Without call s' s₀' := by
  have hcalls : ∀ other, event.call = some other → s₀.calls other = s.calls other :=
    fun other hevent => h.calls other fun heq => hother (by rw [hevent, heq])
  cases stage_of_apply hstep with
  | checked hcall hrun =>
      rw [← hcalls _ rfl] at hcall
      rw [← h.db] at hrun
      exact ⟨_, apply_of_stage (.checked hcall hrun), h.setCall (by simp)⟩
  | refused hcall hrun =>
      rw [← hcalls _ rfl] at hcall
      rw [← h.db] at hrun
      exact ⟨_, apply_of_stage (.refused hcall hrun), h.setCall (by simp)⟩
  | saved hcall =>
      rw [← hcalls _ rfl] at hcall
      refine ⟨_, apply_of_stage (.saved hcall), (h.put _ _).setCall fun body draws hsaved => ?_⟩
      cases hsaved
      rw [put_saved, put_saved]
  | unavailable hcall houtcome =>
      rw [← hcalls _ rfl] at hcall
      exact ⟨_, apply_of_stage (.unavailable hcall houtcome), (h.put _ _).setCall (by simp)⟩
  | @inserted other body draws response t hcall hrun =>
      have hne : other ≠ call := fun heq => hother (by rw [heq]; rfl)
      have hinserted : Without call { s with db := t.db } { s₀ with db := t.db } := by
        refine ⟨rfl, h.calls, fun tenantId => (h.policies tenantId).imp_right fun hfree => ?_⟩
        have hnew := hfree.2 other hne body draws hcall
        exact ⟨(tenant_of_insert hrun hnew).mpr hfree.1, hfree.2⟩
      rw [← hcalls _ rfl] at hcall
      rw [← h.db] at hrun
      exact ⟨_, apply_of_stage (.inserted hcall hrun), hinserted.setCall (by simp)⟩
  | rolledBack hcall hrun =>
      rw [← hcalls _ rfl] at hcall
      rw [← h.db] at hrun
      exact ⟨_, apply_of_stage (.rolledBack hcall hrun), h.setCall (by simp)⟩
  | put hthere hown =>
      rw [← h.db] at hthere
      exact ⟨_, apply_of_stage (.put hthere hown), h.put _ _⟩
  | foreign hthere hforeign =>
      rw [← h.db] at hthere
      exact ⟨_, apply_of_stage (.foreign hthere hforeign), h⟩
  | @served r draws hrequest =>
      refine ⟨_, apply_of_stage (.served hrequest), ?_, h.calls, fun tenantId =>
        (h.policies tenantId).imp_right fun hfree => ⟨?_, hfree.2⟩⟩
      · rw [h.db]
      · exact (tenant_of_served env (s := ⟨s.db, r, draws⟩) hrequest tenantId).mpr hfree.1

/-- What has been created stays created. -/
theorem created_apply {call : ℕ} {tenantId : String} (h : s.calls call = .created tenantId)
    (hstep : PlatformEvent.apply env s event = some s') : s'.calls call = .created tenantId := by
  cases stage_of_apply hstep with
  | checked hcall | refused hcall | saved hcall | unavailable hcall | inserted hcall
  | rolledBack hcall =>
      rw [calls_setCall_of_ne]
      · exact h
      · rintro rfl
        cases h.symm.trans hcall
  | put | foreign | served => exact h

/-! ## Runs -/

variable {start : Platform} {events : List PlatformEvent} {P : Platform → PlatformEvent → Prop}

/-- Every tenant a run brings has a policy, in any interleaving. -/
theorem provided_run (hidle : ∀ call, start.calls call = .idle)
    (run : EventRun (PlatformEvent.apply env) P start events s) : Provided start s :=
  run.invariant (fun _ _ _ h _ hstep => h.apply hstep)
    ⟨by simp [hidle], fun _ hthere hnew => absurd hnew hthere⟩

theorem savedStarters_run (hidle : ∀ call, start.calls call = .idle)
    (run : EventRun (PlatformEvent.apply env) P start events s) : SavedStarters s :=
  run.invariant (fun _ _ _ h _ hstep => h.apply hstep) (by simp [SavedStarters, hidle])

/-- A run without one of its calls: it is there, and leads to the same but for the
call, unless the call has created its tenant. -/
theorem without_run (hidle : ∀ call, start.calls call = .idle)
    (run : EventRun (PlatformEvent.apply env) BeforeTheTenant start events s) (call : ℕ) :
    (∃ tenantId, s.calls call = .created tenantId) ∨
      ∃ s₀, replay (PlatformEvent.apply env) start
        (events.filter fun event => event.call ≠ some call) = some s₀ ∧
        Without call s s₀ := by
  induction run with
  | nil => exact Or.inr ⟨start, replay_nil, rfl, fun _ _ => rfl, fun _ => Or.inl rfl⟩
  | cons init hallowed hstep ih =>
      next earlier mid s' event =>
      rcases ih with ⟨tenantId, hcreated⟩ | ⟨s₀, hplay, hwithout⟩
      · exact Or.inl ⟨tenantId, created_apply hcreated hstep⟩
      · by_cases hown : event.call = some call
        · refine (hwithout.own hown (savedStarters_run hidle init) hallowed hstep).imp_right
            fun h => ⟨s₀, ?_, h⟩
          rw [List.filter_cons_of_neg (by simpa using hown)]
          exact hplay
        · obtain ⟨s₀', hstep₀, hafter⟩ := hwithout.others hown hstep
          refine Or.inr ⟨s₀', ?_, hafter⟩
          rw [List.filter_cons_of_pos (by simpa using hown), replay_cons, hplay]
          exact hstep₀

/-- **A failed creation harms nobody, and no created tenant lacks a policy**, in
every interleaving in which a starter policy is stored before its tenant exists. -/
theorem creation_harmless (hidle : ∀ call, start.calls call = .idle)
    (run : EventRun (PlatformEvent.apply env) BeforeTheTenant start events s) :
    CreationLaw env start events s where
  policy tenant hmem hnew := by
    refine (provided_run hidle run).tenants _ ?_ hnew
    simp [Table.get_of_mem hmem]
  harmless call e hfailed := by
    rcases without_run hidle run call with ⟨tenantId, hcreated⟩ | ⟨s₀, hplay, hwithout⟩
    · simp [hfailed] at hcreated
    · refine ⟨s₀, hplay, hwithout.db, fun tenant hmem => ?_⟩
      refine (hwithout.policies tenant.tenantId).resolve_right fun hnone => ?_
      simp [Table.get_of_mem hmem] at hnone

/-! ## Two calls for one tenant -/

/-- Where a run starts: a directory, and nothing at the PDP. -/
def Platform.idle (db : Db) : Platform := ⟨db, fun _ => none, fun _ => .idle⟩

def newcoBody : CreateTenantRequest where
  tenantId := "newco"
  name := "Newco"
  operatorDomains := []
  branding := none

def newcoOperator : Operator where
  userId := "usr_eva"
  homeTenantId := "newco"
  tenantId := "newco"
  permissions := ∅
  isPlatformOperator := false

/-- The policy that newco's operator saves. -/
def newcoPolicy : TenantPolicy := { starterPolicy "newco" with engineMode := .ACTIVE }

/-- Two calls check the id; the second one creates the tenant, its operator saves a
policy, and then the first one goes on.  Latest first. -/
def overtaken : List PlatformEvent :=
  [.insert 1, .putStarter 1 .saved, .putPolicy newcoOperator newcoPolicy .saved, .insert 2,
    .putStarter 2 .saved, .check 2 newcoBody (.numbered 2), .check 1 newcoBody (.numbered 1)]

/-- The same, the first call saving its policy before the tenant is there. -/
def outpaced : List PlatformEvent :=
  [.insert 1, .putPolicy newcoOperator newcoPolicy .saved, .insert 2, .putStarter 2 .saved,
    .putStarter 1 .saved, .check 2 newcoBody (.numbered 2), .check 1 newcoBody (.numbered 1)]

def CreateCall.isFailed : CreateCall → Bool
  | .failed _ => true
  | _ => false

theorem CreateCall.isFailed_iff {c : CreateCall} : c.isFailed = true ↔ ∃ e, c = .failed e := by
  cases c <;> simp [isFailed]

theorem creation_harmless_outpaced : ∃ s, EventRun (PlatformEvent.apply .standIn) BeforeTheTenant
    (.idle .empty) outpaced s ∧ (s.calls 1).isFailed = true ∧
      CreationLaw .standIn (.idle .empty) outpaced s := by
  have hplay : (replayIf (PlatformEvent.apply .standIn) BeforeTheTenant (.idle .empty)
      outpaced).map (fun s => (s.calls 1).isFailed) = some true := by decide +kernel
  obtain ⟨s, hs, hfailed⟩ := Option.map_eq_some_iff.mp hplay
  exact ⟨s, eventRun_of_replayIf hs, hfailed,
    creation_harmless (fun _ => rfl) (eventRun_of_replayIf hs)⟩

/-- Not so in every interleaving: the call that fails has put the starter policy in
the place of the one the operator had saved. -/
theorem not_creation_harmless : ¬ ∀ events s, EventRun (PlatformEvent.apply .standIn)
    (fun _ _ => True) (.idle .empty) events s → CreationLaw .standIn (.idle .empty) events s := by
  intro h
  have hplay : (replay (PlatformEvent.apply .standIn) (.idle .empty) overtaken).map (fun s =>
      ((s.calls 1).isFailed, s.policies "newco", (s.db.tenants.get "newco").isSome)) =
        some (true, some (starterPolicy "newco"), true) := by decide +kernel
  have herased : (replay (PlatformEvent.apply .standIn) (.idle .empty)
      (overtaken.filter fun event => event.call ≠ some 1)).map (fun s => s.policies "newco") =
        some (some newcoPolicy) := by decide +kernel
  obtain ⟨s, hs, hstate⟩ := Option.map_eq_some_iff.mp hplay
  simp only [Prod.mk.injEq] at hstate
  obtain ⟨hfailed, hpolicy, hthere⟩ := hstate
  obtain ⟨e, hfailed⟩ := CreateCall.isFailed_iff.mp hfailed
  obtain ⟨tenant, htenant⟩ := Option.isSome_iff_exists.mp hthere
  obtain ⟨s₀, hs₀, -, hsame⟩ := (h overtaken s (eventRun_of_replay hs)).harmless 1 e hfailed
  have hpolicy₀ := hsame tenant (Table.mem_of_get htenant)
  rw [Table.key_of_get htenant, hpolicy] at hpolicy₀
  rw [hs₀, Option.map_some, hpolicy₀] at herased
  exact absurd herased (by decide)

end RbaIdp
