import RbaIdp.Environment
import RbaIdp.Relational.Events

/-!
# The policy cache

`TenantPolicyCache` of `tenancy.py` with `AdminService.put_policy`, step by step.
A `get` looks up the entry under the lock, reads the PDP without it, and stores
what it read under the lock again; a `put_policy` writes at the PDP, then drops the
entry.  Any number of both are in flight at once, for any tenants, and their steps
come in any order.

The policies the PDP has stored are numbered, so that a policy saved twice is told
apart.
-/

namespace RbaIdp

open Relational

/-- A policy the PDP has stored, and how many it had stored before. -/
structure Saved where
  policy : TenantPolicy
  version : ℕ
deriving DecidableEq

def Saved.tenantId (saved : Saved) : String := saved.policy.tenantId

/-- An entry of `_entries`: a reading of the clock, and a policy. -/
structure CacheEntry where
  readAt : Time
  saved : Saved
deriving DecidableEq

/-- A `get` in flight. -/
structure PendingGet where
  tenantId : String
  now : Time
  /-- the entry it looked up -/
  entry : Option CacheEntry
  /-- the policy it has read at the PDP -/
  policy : Option Saved
  /-- the policies of the tenant whose `put_policy` had returned when it started -/
  after : List Saved
deriving DecidableEq

structure CacheState where
  entries : String → Option CacheEntry
  /-- every policy the PDP has stored, latest first -/
  stored : List Saved
  gets : List PendingGet
  /-- the policies of the `put_policy` calls that have not dropped the entry yet -/
  puts : List Saved
  /-- the policies of the `put_policy` calls that have returned -/
  returned : List Saved
  /-- what the `get` calls have returned -/
  answered : List (PendingGet × Option Saved)

/-- One step of one of the calls. -/
inductive CacheMove where
  | lookUp (tenantId : String) (now : Time)
  | readPolicy (get : PendingGet)
  /-- `ControlPlaneUnavailable` or `PolicyNotFound` -/
  | failRead (get : PendingGet)
  | store (get : PendingGet)
  | writePolicy (tenantId : String) (body : TenantPolicy)
  /-- `PolicyRejected`, or `ControlPlaneUnavailable` before or after the policy is stored -/
  | failWrite (body : TenantPolicy) (stored : Bool)
  | invalidate (saved : Saved)

/-- The PDP stores a policy. -/
def pushPolicy (policy : TenantPolicy) (stored : List Saved) : List Saved :=
  ⟨policy, stored.length⟩ :: stored

namespace CacheState

/-- An IdP process that has just started; the PDP has stored policies before. -/
def start (policies : List TenantPolicy) : CacheState where
  entries := fun _ => none
  stored := policies.foldr pushPolicy []
  gets := []
  puts := []
  returned := []
  answered := []

/-- The policy of a tenant at the PDP. -/
def current (s : CacheState) (tenantId : String) : Option Saved :=
  s.stored.find? fun saved => saved.tenantId == tenantId

/-- A `get` that starts now. -/
def newGet (s : CacheState) (tenantId : String) (now : Time) : PendingGet where
  tenantId := tenantId
  now := now
  entry := s.entries tenantId
  policy := none
  after := s.returned.filter fun saved => saved.tenantId == tenantId

/-- A `get` returns. -/
def answer (s : CacheState) (get : PendingGet) (result : Option Saved) : CacheState :=
  { s with answered := (get, result) :: s.answered }

end CacheState

/-- `now - entry[0] < self._ttl` -/
def CacheEntry.isFresh (ttl : Time) (entry : CacheEntry) (now : Time) : Bool :=
  now - entry.readAt < ttl

/-- The state a step leads to, when a call is there to take it. -/
def CacheMove.apply (ttl : Time) (s : CacheState) : CacheMove → Option CacheState
  | lookUp tenantId now =>
      let get := s.newGet tenantId now
      match get.entry.filter fun entry => entry.isFresh ttl now with
      | some entry => some (s.answer get (some entry.saved))
      | none => some { s with gets := get :: s.gets }
  | readPolicy get =>
      if get ∈ s.gets ∧ get.policy = none then
        (s.current get.tenantId).map fun saved =>
          { s with gets := { get with policy := some saved } :: s.gets.erase get }
      else none
  | failRead get =>
      if get ∈ s.gets ∧ get.policy = none then
        some ({ s with gets := s.gets.erase get }.answer get (get.entry.map CacheEntry.saved))
      else none
  | store get =>
      if get ∈ s.gets then
        get.policy.map fun saved =>
          { s with
            entries := Function.update s.entries get.tenantId (some ⟨get.now, saved⟩)
            gets := s.gets.erase get }.answer get (some saved)
      else none
  | writePolicy tenantId body =>
      -- the tenant is the operator's, never the body's
      if body.tenantId = tenantId then
        some { s with
          stored := pushPolicy body s.stored
          puts := ⟨body, s.stored.length⟩ :: s.puts }
      else none
  | failWrite body stored =>
      some { s with stored := if stored then pushPolicy body s.stored else s.stored }
  | invalidate saved =>
      if saved ∈ s.puts then
        some { s with
          entries := Function.update s.entries saved.tenantId none
          puts := s.puts.erase saved
          returned := saved :: s.returned }
      else none

/-- No `get` has returned a policy that had been replaced, at the PDP, by one whose
`put_policy` had returned when the `get` started. -/
def SavedIsVisible (s : CacheState) : Prop :=
  ∀ get saved, (get, some saved) ∈ s.answered → ∀ q ∈ get.after, q.version ≤ saved.version

/-- A `get` stores nothing that was replaced by a policy whose `put_policy` has
returned. -/
def NotOvertaken (s : CacheState) : CacheMove → Prop
  | .store get => ∀ saved ∈ get.policy,
      ∀ q ∈ s.returned, q.tenantId = get.tenantId → q.version ≤ saved.version
  | _ => True

instance (s : CacheState) : DecidablePred (NotOvertaken s)
  | .store get => inferInstanceAs (Decidable (∀ saved ∈ get.policy,
      ∀ q ∈ s.returned, q.tenantId = get.tenantId → q.version ≤ saved.version))
  | .lookUp _ _ | .readPolicy _ | .failRead _ | .writePolicy _ _ | .failWrite _ _
  | .invalidate _ => isTrue trivial

/-! ## The invariant -/

/-- The PDP's policies are numbered in the order they were stored. -/
def Numbered (stored : List Saved) : Prop :=
  (∀ saved ∈ stored, saved.version < stored.length) ∧
    stored.Pairwise fun later earlier => earlier.version < later.version

/-- What a policy has to be at least as new as, for a `get`. -/
def PendingGet.Admits (get : PendingGet) (saved : Saved) : Prop :=
  ∀ q ∈ get.after, q.version ≤ saved.version

structure CacheInvariant (s : CacheState) : Prop where
  numbered : Numbered s.stored
  puts : ∀ q ∈ s.puts, q ∈ s.stored
  returned : ∀ q ∈ s.returned, q ∈ s.stored
  /-- what has returned is not newer than what is cached -/
  entries : ∀ tenantId entry, s.entries tenantId = some entry →
    ∀ q ∈ s.returned, q.tenantId = tenantId → q.version ≤ entry.saved.version
  after : ∀ get ∈ s.gets, ∀ q ∈ get.after, q ∈ s.stored ∧ q.tenantId = get.tenantId
  entry : ∀ get ∈ s.gets, ∀ entry, get.entry = some entry → get.Admits entry.saved
  policy : ∀ get ∈ s.gets, ∀ saved, get.policy = some saved → get.Admits saved
  visible : SavedIsVisible s

theorem numbered_pushPolicy {policy : TenantPolicy} {stored : List Saved} (h : Numbered stored) :
    Numbered (pushPolicy policy stored) := by
  refine ⟨fun saved hsaved => ?_, List.pairwise_cons.mpr ⟨h.1, h.2⟩⟩
  rcases List.mem_cons.mp hsaved with rfl | hsaved
  · exact Nat.lt_succ_self _
  · exact Nat.lt_succ_of_lt (h.1 saved hsaved)

theorem numbered_start (policies : List TenantPolicy) :
    Numbered (policies.foldr pushPolicy []) := by
  induction policies with
  | nil => exact ⟨by simp, .nil⟩
  | cons policy rest ih => exact numbered_pushPolicy ih

theorem mem_pushPolicy {policy : TenantPolicy} {stored : List Saved} {saved : Saved}
    (h : saved ∈ stored) : saved ∈ pushPolicy policy stored :=
  List.mem_cons_of_mem _ h

/-- The policy a tenant has at the PDP is the newest it ever had. -/
theorem version_le_of_find {stored : List Saved}
    (h : stored.Pairwise fun later earlier => earlier.version < later.version) {tenantId : String}
    {saved q : Saved} (hfind : stored.find? (fun s => s.tenantId == tenantId) = some saved)
    (hq : q ∈ stored) (htenant : q.tenantId = tenantId) : q.version ≤ saved.version := by
  induction stored with
  | nil => cases hq
  | cons head rest ih =>
      obtain ⟨hhead, hrest⟩ := List.pairwise_cons.mp h
      by_cases hsame : head.tenantId = tenantId
      · rw [List.find?_cons_of_pos (by simpa using hsame)] at hfind
        obtain rfl := Option.some.inj hfind
        rcases List.mem_cons.mp hq with rfl | hq
        · exact le_rfl
        · exact (hhead q hq).le
      · rw [List.find?_cons_of_neg (by simpa using hsame)] at hfind
        rcases List.mem_cons.mp hq with rfl | hq
        · exact absurd htenant hsame
        · exact ih hrest hfind hq

theorem cacheInvariant_start (policies : List TenantPolicy) :
    CacheInvariant (CacheState.start policies) where
  numbered := numbered_start policies
  puts := by simp [CacheState.start]
  returned := by simp [CacheState.start]
  entries := by simp [CacheState.start]
  after := by simp [CacheState.start]
  entry := by simp [CacheState.start]
  policy := by simp [CacheState.start]
  visible := by simp [CacheState.start, SavedIsVisible]

variable {s s' : CacheState}

/-- What a step can do, with what has let it. -/
inductive CacheStep (ttl : Time) (s : CacheState) : CacheMove → CacheState → Prop
  | found {tenantId : String} {now : Time} {entry : CacheEntry}
      (hentry : s.entries tenantId = some entry) (hfresh : entry.isFresh ttl now = true) :
      CacheStep ttl s (.lookUp tenantId now)
        (s.answer (s.newGet tenantId now) (some entry.saved))
  | missed {tenantId : String} {now : Time}
      (hstale : ∀ entry, s.entries tenantId = some entry → entry.isFresh ttl now = false) :
      CacheStep ttl s (.lookUp tenantId now) { s with gets := s.newGet tenantId now :: s.gets }
  | read {get : PendingGet} {saved : Saved} (hget : get ∈ s.gets) (hunread : get.policy = none)
      (hcurrent : s.current get.tenantId = some saved) :
      CacheStep ttl s (.readPolicy get)
        { s with gets := { get with policy := some saved } :: s.gets.erase get }
  | fellBack {get : PendingGet} (hget : get ∈ s.gets) (hunread : get.policy = none) :
      CacheStep ttl s (.failRead get)
        ({ s with gets := s.gets.erase get }.answer get (get.entry.map CacheEntry.saved))
  | stored {get : PendingGet} {saved : Saved} (hget : get ∈ s.gets)
      (hpolicy : get.policy = some saved) :
      CacheStep ttl s (.store get)
        ({ s with
          entries := Function.update s.entries get.tenantId (some ⟨get.now, saved⟩)
          gets := s.gets.erase get }.answer get (some saved))
  | written {tenantId : String} {body : TenantPolicy} (hown : body.tenantId = tenantId) :
      CacheStep ttl s (.writePolicy tenantId body)
        { s with
          stored := pushPolicy body s.stored
          puts := ⟨body, s.stored.length⟩ :: s.puts }
  | failed {body : TenantPolicy} {stored : Bool} :
      CacheStep ttl s (.failWrite body stored)
        { s with stored := if stored then pushPolicy body s.stored else s.stored }
  | dropped {saved : Saved} (hput : saved ∈ s.puts) :
      CacheStep ttl s (.invalidate saved)
        { s with
          entries := Function.update s.entries saved.tenantId none
          puts := s.puts.erase saved
          returned := saved :: s.returned }

theorem step_of_apply {ttl : Time} {move : CacheMove}
    (h : CacheMove.apply ttl s move = some s') : CacheStep ttl s move s' := by
  cases move with
  | lookUp tenantId now =>
      simp only [CacheMove.apply] at h
      split at h
      · next entry hfound =>
          cases h
          obtain ⟨hentry, hfresh⟩ := Option.filter_eq_some_iff.mp hfound
          exact .found hentry hfresh
      · next hnone =>
          cases h
          refine .missed fun entry hentry => ?_
          simpa using Option.filter_eq_none_iff.mp hnone entry hentry
  | readPolicy get =>
      simp only [CacheMove.apply] at h
      split at h
      · next hget =>
          obtain ⟨saved, hcurrent, rfl⟩ := Option.map_eq_some_iff.mp h
          exact .read hget.1 hget.2 hcurrent
      · cases h
  | failRead get =>
      simp only [CacheMove.apply] at h
      split at h
      · next hget =>
          cases h
          exact .fellBack hget.1 hget.2
      · cases h
  | store get =>
      simp only [CacheMove.apply] at h
      split at h
      · next hget =>
          obtain ⟨saved, hpolicy, rfl⟩ := Option.map_eq_some_iff.mp h
          exact .stored hget hpolicy
      · cases h
  | writePolicy tenantId body =>
      simp only [CacheMove.apply] at h
      split at h
      · next hown =>
          cases h
          exact .written hown
      · cases h
  | failWrite body stored =>
      cases h
      exact .failed
  | invalidate saved =>
      simp only [CacheMove.apply] at h
      split at h
      · next hput =>
          cases h
          exact .dropped hput
      · cases h

/-- What a `get` that starts is at most as new as, the entry it finds is. -/
theorem CacheInvariant.newGet_entry (h : CacheInvariant s) {tenantId : String} {now : Time}
    {entry : CacheEntry} (hentry : s.entries tenantId = some entry) :
    (s.newGet tenantId now).Admits entry.saved := by
  intro q hq
  obtain ⟨hreturned, htenant⟩ := List.mem_filter.mp hq
  exact h.entries tenantId entry hentry q hreturned (by simpa using htenant)

/-- A `get` may return what it is at least as new as. -/
theorem CacheInvariant.answer (h : CacheInvariant s) {get : PendingGet} {result : Option Saved}
    (hadmits : ∀ saved, result = some saved → get.Admits saved) :
    CacheInvariant (s.answer get result) where
  numbered := h.numbered
  puts := h.puts
  returned := h.returned
  entries := h.entries
  after := h.after
  entry := h.entry
  policy := h.policy
  visible := by
    intro get' saved hmem
    rcases List.mem_cons.mp hmem with heq | hmem
    · obtain ⟨hget, hresult⟩ := Prod.mk.inj heq
      rw [hget]
      exact hadmits saved hresult.symm
    · exact h.visible get' saved hmem

/-- A `get` goes on, or is gone. -/
theorem CacheInvariant.setGets (h : CacheInvariant s) {gets : List PendingGet}
    (hgets : ∀ get ∈ gets, get ∈ s.gets ∨
      (∀ q ∈ get.after, q ∈ s.stored ∧ q.tenantId = get.tenantId) ∧
      (∀ entry, get.entry = some entry → get.Admits entry.saved) ∧
      ∀ saved, get.policy = some saved → get.Admits saved) :
    CacheInvariant { s with gets := gets } where
  numbered := h.numbered
  puts := h.puts
  returned := h.returned
  entries := h.entries
  after get hget := (hgets get hget).elim (h.after get) And.left
  entry get hget := (hgets get hget).elim (h.entry get) fun hnew => hnew.2.1
  policy get hget := (hgets get hget).elim (h.policy get) fun hnew => hnew.2.2
  visible := h.visible

/-- The PDP stores a policy. -/
theorem CacheInvariant.push (h : CacheInvariant s) (policy : TenantPolicy) :
    CacheInvariant { s with stored := pushPolicy policy s.stored } where
  numbered := numbered_pushPolicy h.numbered
  puts q hq := mem_pushPolicy (h.puts q hq)
  returned q hq := mem_pushPolicy (h.returned q hq)
  entries := h.entries
  after get hget q hq := (h.after get hget q hq).imp_left mem_pushPolicy
  entry := h.entry
  policy := h.policy
  visible := h.visible

/-- The entry of a tenant is replaced by one that nothing returned is newer than,
or dropped. -/
theorem CacheInvariant.setEntry (h : CacheInvariant s) {tenantId : String}
    {new : Option CacheEntry}
    (hnew : ∀ entry, new = some entry →
      ∀ q ∈ s.returned, q.tenantId = tenantId → q.version ≤ entry.saved.version) :
    CacheInvariant { s with entries := Function.update s.entries tenantId new } where
  numbered := h.numbered
  puts := h.puts
  returned := h.returned
  entries other entry hentry q hq htenant := by
    by_cases hsame : other = tenantId
    · subst hsame
      exact hnew entry (by simpa using hentry) q hq htenant
    · exact h.entries other entry (by simpa [hsame] using hentry) q hq htenant
  after := h.after
  entry := h.entry
  policy := h.policy
  visible := h.visible

/-- One step keeps the invariant. -/
theorem cacheInvariant_apply {ttl : Time} {move : CacheMove} (h : CacheInvariant s)
    (hallowed : NotOvertaken s move) (hstep : CacheMove.apply ttl s move = some s') :
    CacheInvariant s' := by
  cases step_of_apply hstep with
  | found hentry =>
      refine h.answer fun saved hsaved => ?_
      obtain rfl := Option.some.inj hsaved
      exact h.newGet_entry hentry
  | missed =>
      refine h.setGets fun get hget => (List.mem_cons.mp hget).symm.imp_right ?_
      rintro rfl
      refine ⟨fun q hq => ?_, fun entry hentry => h.newGet_entry hentry, by
        simp [CacheState.newGet]⟩
      obtain ⟨hreturned, htenant⟩ := List.mem_filter.mp hq
      exact ⟨h.returned q hreturned, by simpa [CacheState.newGet] using htenant⟩
  | @read get saved hget _ hcurrent =>
      refine h.setGets fun get' hget' => ?_
      rcases List.mem_cons.mp hget' with rfl | hget'
      · refine Or.inr ⟨h.after get hget, h.entry get hget, fun saved' hsaved' q hq => ?_⟩
        obtain rfl := Option.some.inj hsaved'
        obtain ⟨hstored, htenant⟩ := h.after get hget q hq
        exact version_le_of_find h.numbered.2 hcurrent hstored htenant
      · exact Or.inl (List.mem_of_mem_erase hget')
  | fellBack hget =>
      refine (h.setGets fun get' hget' => Or.inl (List.mem_of_mem_erase hget')).answer
        fun saved hsaved => ?_
      obtain ⟨entry, hentry, rfl⟩ := Option.map_eq_some_iff.mp hsaved
      exact h.entry _ hget entry hentry
  | @stored get saved hget hpolicy =>
      have hkept := h.setGets fun get' (hget' : get' ∈ s.gets.erase get) =>
        Or.inl (List.mem_of_mem_erase hget')
      refine CacheInvariant.answer (hkept.setEntry fun entry hentry => ?_)
        fun saved' hsaved' => ?_
      · -- here the condition is needed: nothing newer has been returned
        obtain rfl := Option.some.inj hentry
        exact hallowed saved hpolicy
      · obtain rfl := Option.some.inj hsaved'
        exact h.policy get hget saved hpolicy
  | @written tenantId body =>
      refine { h.push body with puts := fun q hq => ?_ }
      rcases List.mem_cons.mp hq with rfl | hq
      · exact List.mem_cons_self ..
      · exact mem_pushPolicy (h.puts q hq)
  | @failed body stored =>
      cases stored with
      | false => exact h
      | true => exact h.push body
  | @dropped saved hput =>
      have hdropped : CacheInvariant
          { s with entries := Function.update s.entries saved.tenantId none } :=
        h.setEntry (by simp)
      refine { hdropped with
        puts := fun q hq => h.puts q (List.mem_of_mem_erase hq)
        returned := List.forall_mem_cons.mpr ⟨h.puts _ hput, h.returned⟩
        entries := fun tenantId entry hentry =>
          List.forall_mem_cons.mpr ⟨?_, hdropped.entries tenantId entry hentry⟩ }
      rintro rfl
      simp at hentry

theorem cacheInvariant_run {ttl : Time} {policies : List TenantPolicy} {moves : List CacheMove}
    (run : EventRun (CacheMove.apply ttl) NotOvertaken (.start policies) moves s) :
    CacheInvariant s :=
  run.invariant (fun _ _ _ => cacheInvariant_apply) (cacheInvariant_start policies)

/-- **A saved policy is visible at once**, in every interleaving of any number of
`get` and `put_policy` calls in which no `get` stores what a policy whose
`put_policy` has returned replaced. -/
theorem saved_is_visible {ttl : Time} {policies : List TenantPolicy} {moves : List CacheMove}
    (run : EventRun (CacheMove.apply ttl) NotOvertaken (.start policies) moves s) :
    SavedIsVisible s :=
  (cacheInvariant_run run).visible

/-- A `get` that finds a fresh entry returns its policy. -/
theorem apply_lookUp_fresh {ttl now : Time} {tenantId : String} {entry : CacheEntry}
    (hentry : s.entries tenantId = some entry) (hfresh : entry.isFresh ttl now = true) :
    CacheMove.apply ttl s (.lookUp tenantId now) =
      some (s.answer (s.newGet tenantId now) (some entry.saved)) := by
  have hfilter : (s.newGet tenantId now).entry.filter (fun entry => entry.isFresh ttl now) =
      some entry := by
    simp [CacheState.newGet, hentry, Option.filter, hfresh]
  simp only [CacheMove.apply, hfilter]

/-- The condition is what it takes: a `get` that starts right after another one has
stored a policy that had been overtaken returns it. -/
theorem overtaken_is_served {ttl now : Time} {get : PendingGet} {saved q : Saved}
    (hstep : CacheMove.apply ttl s (.store get) = some s') (hpolicy : get.policy = some saved)
    (hq : q ∈ s.returned) (htenant : q.tenantId = get.tenantId)
    (hnewer : saved.version < q.version) (hnow : now - get.now < ttl) :
    ∃ s'', CacheMove.apply ttl s' (.lookUp get.tenantId now) = some s'' ∧ ¬ SavedIsVisible s'' := by
  cases step_of_apply hstep with
  | stored _ hread =>
      obtain rfl := Option.some.inj (hpolicy.symm.trans hread)
      refine ⟨_, apply_lookUp_fresh (Function.update_self ..) (decide_eq_true hnow),
        fun hvisible => ?_⟩
      have hle := hvisible _ saved (List.mem_cons_self ..) q
        (List.mem_filter.mpr ⟨hq, beq_iff_eq.mpr htenant⟩)
      exact absurd hle (not_le.mpr hnewer)

/-! ## Runs -/

/-- The policy a tenant starts with, and the one that switches the engine off. -/
def watching : TenantPolicy where
  tenantId := "acme"
  policyVersion := "1.0.0"
  basePolicy := .PASSWORD_ONLY
  engineMode := .MONITOR
  scoreToLevel := []
  levelToAction := ⟨.ALLOW, .REQUIRE_MFA, .REAUTHENTICATE, .REAUTHENTICATE⟩
  fallbackAction := .REQUIRE_MFA

def switchedOff : TenantPolicy := { watching with policyVersion := "1.0.1", engineMode := .OFF }

/-- A `get` of the tenant, as it is after some of its steps. -/
def acmeGet (now : Time) (policy : Option Saved) (after : List Saved) : PendingGet :=
  ⟨"acme", now, none, policy, after⟩

/-- A `get` straddles a `put_policy`: it reads before the write and stores after
the invalidation.  Latest first. -/
def straddled : List CacheMove :=
  [.lookUp "acme" 1, .store (acmeGet 0 (some ⟨watching, 0⟩) []), .invalidate ⟨switchedOff, 1⟩,
    .writePolicy "acme" switchedOff, .readPolicy (acmeGet 0 none []), .lookUp "acme" 0]

/-- The same calls, the `get` being done before the policy is saved. -/
def inOrder : List CacheMove :=
  [.store (acmeGet 1 (some ⟨switchedOff, 1⟩) [⟨switchedOff, 1⟩]),
    .readPolicy (acmeGet 1 none [⟨switchedOff, 1⟩]), .lookUp "acme" 1,
    .invalidate ⟨switchedOff, 1⟩, .writePolicy "acme" switchedOff,
    .store (acmeGet 0 (some ⟨watching, 0⟩) []), .readPolicy (acmeGet 0 none []),
    .lookUp "acme" 0]

/-- The `get` that starts last returns the policy that is off. -/
theorem saved_is_visible_inOrder : ∃ s,
    EventRun (CacheMove.apply (seconds 5)) NotOvertaken (.start [watching]) inOrder s ∧
    s.answered.head? = some (acmeGet 1 (some ⟨switchedOff, 1⟩) [⟨switchedOff, 1⟩],
      some ⟨switchedOff, 1⟩) ∧ SavedIsVisible s := by
  have hplay : (replayIf (CacheMove.apply (seconds 5)) NotOvertaken (.start [watching])
      inOrder).map (fun s => s.answered.head?) = some (some (acmeGet 1 (some ⟨switchedOff, 1⟩)
        [⟨switchedOff, 1⟩], some ⟨switchedOff, 1⟩)) := by decide +kernel
  obtain ⟨s, hs, hanswered⟩ := Option.map_eq_some_iff.mp hplay
  exact ⟨s, eventRun_of_replayIf hs, hanswered, saved_is_visible (eventRun_of_replayIf hs)⟩

/-- Not so in every interleaving: a `get` that starts after the policy was switched
off still returns the one before. -/
theorem not_saved_is_visible : ¬ ∀ moves s,
    EventRun (CacheMove.apply (seconds 5)) (fun _ _ => True) (.start [watching]) moves s →
      SavedIsVisible s := by
  intro h
  have hplay : (replay (CacheMove.apply (seconds 5)) (.start [watching]) straddled).map
      (fun s => s.answered.head?) = some (some ({ acmeGet 1 none [⟨switchedOff, 1⟩] with
        entry := some ⟨0, ⟨watching, 0⟩⟩ }, some ⟨watching, 0⟩)) := by decide +kernel
  obtain ⟨s, hs, hanswered⟩ := Option.map_eq_some_iff.mp hplay
  have hle := h straddled s (eventRun_of_replay hs) _ _ (List.mem_of_mem_head? hanswered)
    ⟨switchedOff, 1⟩ (List.mem_singleton.mpr rfl)
  exact absurd hle (by decide)

end RbaIdp
