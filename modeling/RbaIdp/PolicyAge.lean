import RbaIdp.PolicyCache

/-!
# How old a cached policy can be

The steps of the policy cache on a monotone clock.  An entry carries the reading its
`get` took when it started, which is before the PDP was read.  So a fresh entry was
the PDP's policy at a moment less than `ttl` before the call that finds it, whatever
was stored over what, and in which order (`policy_within_ttl`).
-/

namespace RbaIdp

open Relational

/-- A step of a `get` or a `put_policy`, or an `invalidate` by itself. -/
inductive CacheTurn where
  | call (move : CacheMove)
  | pop (tenantId : String)

def CacheTurn.apply (ttl : Time) (s : CacheState) : CacheTurn → Option CacheState
  | call move => move.apply ttl s
  | pop tenantId => some { s with entries := Function.update s.entries tenantId none }

/-- What a turn reads into the cache: a policy, and for whom. -/
def CacheTurn.reads : CacheTurn → Option (String × Saved)
  | call (.store get) => get.policy.map fun saved => (get.tenantId, saved)
  | _ => none

/-- The cache on a clock, with what has been so far. -/
structure AgedCache where
  cache : CacheState
  /-- the moment of the last turn -/
  clock : Time
  /-- what the PDP had stored at each moment, latest first -/
  moments : List (Time × List Saved)
  /-- the policies that reads have put into the cache, latest first -/
  reads : List (String × Saved)

namespace AgedCache

def start (policies : List TenantPolicy) (clock : Time) : AgedCache where
  cache := .start policies
  clock := clock
  moments := [(clock, (CacheState.start policies).stored)]
  reads := []

/-- A turn at a moment. -/
def apply (ttl : Time) (s : AgedCache) (event : Time × CacheTurn) : Option AgedCache :=
  (event.2.apply ttl s.cache).map fun cache =>
    { cache := cache
      clock := event.1
      moments := (event.1, cache.stored) :: s.moments
      reads := event.2.reads.toList ++ s.reads }

/-- The clock does not go back, and a call has read it before it looks anything up. -/
def OnTime (s : AgedCache) (event : Time × CacheTurn) : Prop :=
  s.clock ≤ event.1 ∧
    ∀ tenantId now, event.2 = .call (.lookUp tenantId now) → now ≤ event.1

instance (s : AgedCache) : DecidablePred s.OnTime
  | (now, .call (.lookUp tenantId reading)) =>
      decidable_of_iff (s.clock ≤ now ∧ reading ≤ now) (by
        simp only [OnTime, CacheTurn.call.injEq, CacheMove.lookUp.injEq, and_imp]
        exact and_congr_right fun _ => ⟨fun h _ _ _ hnow => hnow ▸ h, fun h => h _ _ rfl rfl⟩)
  | (now, .call (.readPolicy _)) | (now, .call (.failRead _)) | (now, .call (.store _))
  | (now, .call (.writePolicy _ _)) | (now, .call (.failWrite _ _))
  | (now, .call (.invalidate _)) | (now, .pop _) =>
      decidable_of_iff (s.clock ≤ now) (by simp [OnTime])

/-- A policy was the PDP's for a tenant at a moment that is not before another one. -/
def WasCurrent (s : AgedCache) (tenantId : String) (since : Time) (saved : Saved) : Prop :=
  ∃ m ∈ s.moments, since ≤ m.1 ∧
    (m.2.find? fun saved => saved.tenantId == tenantId) = some saved

/-- What holds of what is cached and of the calls in flight, at every moment. -/
structure Invariant (s : AgedCache) : Prop where
  /-- an entry was current when its `get` read it, which is after its reading -/
  entries : ∀ tenantId entry, s.cache.entries tenantId = some entry →
    s.WasCurrent tenantId entry.readAt entry.saved ∧ (tenantId, entry.saved) ∈ s.reads
  started : ∀ get ∈ s.cache.gets, get.now ≤ s.clock
  entry : ∀ get ∈ s.cache.gets, ∀ entry, get.entry = some entry →
    (get.tenantId, entry.saved) ∈ s.reads
  policy : ∀ get ∈ s.cache.gets, ∀ saved, get.policy = some saved →
    s.WasCurrent get.tenantId get.now saved
  reads : ∀ read ∈ s.reads, read.2.tenantId = read.1

theorem tenantId_of_wasCurrent {s : AgedCache} {tenantId : String} {since : Time} {saved : Saved}
    (h : s.WasCurrent tenantId since saved) : saved.tenantId = tenantId := by
  obtain ⟨m, -, -, hfind⟩ := h
  simpa using List.find?_some hfind

theorem invariant_start (policies : List TenantPolicy) (clock : Time) :
    (start policies clock).Invariant where
  entries := by simp [start, CacheState.start]
  started := by simp [start, CacheState.start]
  entry := by simp [start, CacheState.start]
  policy := by simp [start, CacheState.start]
  reads := by simp [start]

variable {ttl : Time} {s s' : AgedCache} {now : Time} {turn : CacheTurn}

/-- What a turn does to the record: it only grows. -/
theorem apply_eq_some (h : s.apply ttl (now, turn) = some s') :
    turn.apply ttl s.cache = some s'.cache ∧ s'.clock = now ∧
      s'.moments = (now, s'.cache.stored) :: s.moments ∧
      s'.reads = turn.reads.toList ++ s.reads := by
  obtain ⟨cache, hcache, rfl⟩ := Option.map_eq_some_iff.mp h
  exact ⟨hcache, rfl, rfl, rfl⟩

theorem WasCurrent.later (h : s.apply ttl (now, turn) = some s') {tenantId : String}
    {since : Time} {saved : Saved} (hwas : s.WasCurrent tenantId since saved) :
    s'.WasCurrent tenantId since saved := by
  obtain ⟨m, hm, hsince, hfind⟩ := hwas
  obtain ⟨-, -, hmoments, -⟩ := apply_eq_some h
  exact ⟨m, hmoments ▸ List.mem_cons_of_mem _ hm, hsince, hfind⟩

theorem mem_reads_later (h : s.apply ttl (now, turn) = some s') {read : String × Saved}
    (hread : read ∈ s.reads) : read ∈ s'.reads := by
  obtain ⟨-, -, -, hreads⟩ := apply_eq_some h
  exact hreads ▸ List.mem_append_right _ hread

/-- What a turn may change for the invariant: an entry is dropped or stored by a call in
flight, and a call in flight goes on, or starts. -/
structure Changes (s s' : AgedCache) : Prop where
  entries : ∀ tenantId entry, s'.cache.entries tenantId = some entry →
    s.cache.entries tenantId = some entry ∨
      ∃ get ∈ s.cache.gets, get.tenantId = tenantId ∧ get.now = entry.readAt ∧
        get.policy = some entry.saved ∧ (tenantId, entry.saved) ∈ s'.reads
  gets : ∀ get ∈ s'.cache.gets, get ∈ s.cache.gets ∨
    (get.now ≤ s'.clock ∧ get.entry = s.cache.entries get.tenantId ∧ get.policy = none) ∨
      ∃ old ∈ s.cache.gets, ∃ saved, get = { old with policy := some saved } ∧
        s'.WasCurrent old.tenantId s'.clock saved
  reads : ∀ read ∈ s'.reads, read ∈ s.reads ∨
    ∃ get ∈ s.cache.gets, get.policy = some read.2 ∧ get.tenantId = read.1

theorem Invariant.changes (hI : s.Invariant) (h : s.apply ttl (now, turn) = some s')
    (hclock : s.clock ≤ now) (hchanges : s.Changes s') : s'.Invariant where
  entries tenantId entry hentry := by
    rcases hchanges.entries tenantId entry hentry with hold | ⟨get, hget, rfl, hnow, hpolicy, hread⟩
    · exact ⟨(hI.entries tenantId entry hold).1.later h,
        mem_reads_later h (hI.entries tenantId entry hold).2⟩
    · exact ⟨hnow ▸ (hI.policy get hget _ hpolicy).later h, hread⟩
  started get hget := by
    have hlater : s'.clock = now := (apply_eq_some h).2.1
    rcases hchanges.gets get hget with hold | ⟨hstart, -, -⟩ | ⟨old, hold, saved, rfl, -⟩
    · exact (hI.started get hold).trans (hlater ▸ hclock)
    · exact hstart
    · exact (hI.started old hold).trans (hlater ▸ hclock)
  entry get hget entry hentry := by
    rcases hchanges.gets get hget with hold | ⟨-, hfound, -⟩ | ⟨old, hold, saved, rfl, -⟩
    · exact mem_reads_later h (hI.entry get hold entry hentry)
    · exact mem_reads_later h (hI.entries _ entry (hfound ▸ hentry)).2
    · exact mem_reads_later h (hI.entry old hold entry hentry)
  policy get hget saved hpolicy := by
    rcases hchanges.gets get hget with hold | ⟨-, -, hnone⟩ | ⟨old, hold, read, rfl, hcurrent⟩
    · exact (hI.policy get hold saved hpolicy).later h
    · rw [hnone] at hpolicy
      cases hpolicy
    · -- the PDP has been read after the call started
      obtain rfl := Option.some.inj hpolicy
      obtain ⟨m, hm, hsince, hfind⟩ := hcurrent
      have hlater : s'.clock = now := (apply_eq_some h).2.1
      exact ⟨m, hm, ((hI.started old hold).trans (hlater ▸ hclock)).trans hsince, hfind⟩
  reads read hread := by
    rcases hchanges.reads read hread with hold | ⟨get, hget, hpolicy, htenant⟩
    · exact hI.reads read hold
    · rw [← htenant]
      exact tenantId_of_wasCurrent (hI.policy get hget _ hpolicy)

/-- A turn that leaves the entries and the calls in flight, or drops some. -/
theorem changes_of_dropped (hreads : turn.reads = none)
    (h : s.apply ttl (now, turn) = some s')
    (hentries : ∀ tenantId entry, s'.cache.entries tenantId = some entry →
      s.cache.entries tenantId = some entry)
    (hgets : ∀ get ∈ s'.cache.gets, get ∈ s.cache.gets) : s.Changes s' where
  entries tenantId entry hentry := Or.inl (hentries tenantId entry hentry)
  gets get hget := Or.inl (hgets get hget)
  reads read hread := by
    obtain ⟨-, -, -, hgrown⟩ := apply_eq_some h
    rw [hgrown, hreads] at hread
    exact Or.inl hread

/-- An entry that is dropped is gone. -/
theorem entries_of_update_none {entries : String → Option CacheEntry} {dropped tenantId : String}
    {entry : CacheEntry} (h : Function.update entries dropped none tenantId = some entry) :
    entries tenantId = some entry := by
  by_cases hsame : tenantId = dropped
  · subst hsame
    rw [Function.update_self] at h
    cases h
  · rwa [Function.update_of_ne hsame] at h

/-- A policy that has been read is stored, with the reading its call took. -/
theorem changes_of_stored {get : PendingGet} {saved : Saved} (hget : get ∈ s.cache.gets)
    (hpolicy : get.policy = some saved) (hreads : s'.reads = (get.tenantId, saved) :: s.reads)
    (hentries : s'.cache.entries =
      Function.update s.cache.entries get.tenantId (some ⟨get.now, saved⟩))
    (hgets : s'.cache.gets = s.cache.gets.erase get) : s.Changes s' where
  entries tenantId entry hentry := by
    rw [hentries] at hentry
    by_cases hsame : tenantId = get.tenantId
    · subst hsame
      rw [Function.update_self] at hentry
      obtain rfl := Option.some.inj hentry
      exact Or.inr ⟨get, hget, rfl, rfl, hpolicy, hreads ▸ List.mem_cons_self⟩
    · rw [Function.update_of_ne hsame] at hentry
      exact Or.inl hentry
  gets get' hget' := Or.inl (List.mem_of_mem_erase (hgets ▸ hget'))
  reads read hread := by
    rw [hreads] at hread
    rcases List.mem_cons.mp hread with rfl | hold
    · exact Or.inr ⟨get, hget, hpolicy, rfl⟩
    · exact Or.inl hold

/-- What a turn does. -/
theorem changes_of_apply (hon : s.OnTime (now, turn)) (h : s.apply ttl (now, turn) = some s') :
    s.Changes s' := by
  obtain ⟨hcache, hclock, hmoments, hreads⟩ := apply_eq_some h
  cases turn with
  | pop tenantId =>
      have hpopped := Option.some.inj hcache
      refine changes_of_dropped rfl h ?_ ?_ <;> rw [← hpopped]
      · exact fun _ _ => entries_of_update_none
      · exact fun _ hget => hget
  | call move =>
      generalize hnext : s'.cache = next at hcache hmoments
      cases step_of_apply hcache with
      | found | written | failed =>
          refine changes_of_dropped rfl h ?_ ?_ <;> rw [hnext]
          · exact fun _ _ hentry => hentry
          · exact fun _ hget => hget
      | @missed tenantId reading =>
          refine ⟨?_, ?_, fun read hread => Or.inl (by rwa [hreads] at hread)⟩ <;> rw [hnext]
          · exact fun _ _ hentry => Or.inl hentry
          · intro get hget
            rcases List.mem_cons.mp hget with rfl | hget
            · refine Or.inr (Or.inl ⟨?_, rfl, rfl⟩)
              rw [hclock]
              exact hon.2 tenantId reading rfl
            · exact Or.inl hget
      | @read get saved hget _ hcurrent =>
          refine ⟨?_, ?_, fun read hread => Or.inl (by rwa [hreads] at hread)⟩ <;> rw [hnext]
          · exact fun _ _ hentry => Or.inl hentry
          · intro get' hget'
            rcases List.mem_cons.mp hget' with rfl | hget'
            · have hmoment : s'.WasCurrent get.tenantId s'.clock saved :=
                ⟨(now, s.cache.stored), hmoments ▸ List.mem_cons_self, hclock.le, hcurrent⟩
              exact Or.inr (Or.inr ⟨get, hget, saved, rfl, hmoment⟩)
            · exact Or.inl (List.mem_of_mem_erase hget')
      | fellBack =>
          refine changes_of_dropped rfl h ?_ ?_ <;> rw [hnext]
          · exact fun _ _ hentry => hentry
          · exact fun _ => List.mem_of_mem_erase
      | @stored get saved hget hpolicy =>
          refine changes_of_stored hget hpolicy ?_ ?_ ?_
          · rw [hreads]
            simp [CacheTurn.reads, hpolicy]
          · rw [hnext, CacheState.answer]
          · rw [hnext, CacheState.answer]
      | dropped =>
          refine changes_of_dropped rfl h ?_ ?_ <;> rw [hnext]
          · exact fun _ _ => entries_of_update_none
          · exact fun _ hget => hget

/-- One turn keeps the invariant, and so does a run. -/
theorem Invariant.apply (hI : s.Invariant) (hon : s.OnTime (now, turn))
    (h : s.apply ttl (now, turn) = some s') : s'.Invariant :=
  hI.changes h hon.1 (changes_of_apply hon h)

theorem invariant_run {policies : List TenantPolicy} {clock : Time}
    {events : List (Time × CacheTurn)}
    (run : EventRun (AgedCache.apply ttl) OnTime (start policies clock) events s) : s.Invariant :=
  run.invariant (fun _ _ _ hI hon h => hI.apply hon h) (invariant_start policies clock)

/-! ## What a call returns -/

variable {get : PendingGet} {saved : Saved}

/-- The ways a call returns a policy: it finds a fresh entry, it fails to read and falls
back on the entry it found, or it has read the policy. -/
theorem returns_cases (h : turn.apply ttl s.cache = some s'.cache)
    (hreturns : s'.cache.answered = (get, some saved) :: s.cache.answered) :
    (∃ reading entry, turn = .call (.lookUp get.tenantId reading) ∧ get.now = reading ∧
      s.cache.entries get.tenantId = some entry ∧ entry.isFresh ttl reading = true ∧
      saved = entry.saved) ∨
    (∃ entry, turn = .call (.failRead get) ∧ get ∈ s.cache.gets ∧ get.entry = some entry ∧
      saved = entry.saved) ∨
    (turn = .call (.store get) ∧ get ∈ s.cache.gets ∧ get.policy = some saved) := by
  have hsilent : ¬ s.cache.answered = (get, some saved) :: s.cache.answered := by
    intro hsame
    have hlength := congrArg List.length hsame
    simp at hlength
  cases turn with
  | pop tenantId =>
      rw [← Option.some.inj h] at hreturns
      exact absurd hreturns hsilent
  | call move =>
      generalize s'.cache = next at h hreturns
      cases step_of_apply h with
      | found hentry hfresh =>
          simp only [CacheState.answer, List.cons.injEq, Prod.mk.injEq, Option.some.injEq,
            and_true] at hreturns
          obtain ⟨rfl, rfl⟩ := hreturns
          exact Or.inl ⟨_, _, rfl, rfl, hentry, hfresh, rfl⟩
      | fellBack hget =>
          simp only [CacheState.answer, List.cons.injEq, Prod.mk.injEq, and_true,
            Option.map_eq_some_iff] at hreturns
          obtain ⟨rfl, entry, hentry, hsaved⟩ := hreturns
          exact Or.inr (Or.inl ⟨entry, rfl, hget, hentry, hsaved.symm⟩)
      | stored hget hpolicy =>
          simp only [CacheState.answer, List.cons.injEq, Prod.mk.injEq, Option.some.injEq,
            and_true] at hreturns
          obtain ⟨rfl, rfl⟩ := hreturns
          exact Or.inr (Or.inr ⟨rfl, hget, hpolicy⟩)
      | missed | read | written | failed | dropped => exact absurd hreturns hsilent

/-- What a call that returns a policy promises: it is a policy of the tenant; it was the
PDP's less than `ttl` before the call started, or later, unless reading it failed; and
if it did, an earlier read has stored it. -/
structure Promise (ttl : Time) (s : AgedCache) (turn : CacheTurn) (get : PendingGet)
    (saved : Saved) : Prop where
  own : saved.tenantId = get.tenantId
  recent : turn ≠ .call (.failRead get) →
    ∃ m ∈ s.moments, get.now - ttl < m.1 ∧
      (m.2.find? fun saved => saved.tenantId == get.tenantId) = some saved
  fallback : turn = .call (.failRead get) → (get.tenantId, saved) ∈ s.reads

/-- **No policy is older than its ttl** while the PDP answers.  In every interleaving of
the steps of any number of calls, every policy a call returns is as promised. -/
theorem policy_within_ttl (httl : 0 < ttl) {policies : List TenantPolicy} {clock : Time}
    {events : List (Time × CacheTurn)}
    (run : EventRun (AgedCache.apply ttl) OnTime (start policies clock) events s)
    (h : s.apply ttl (now, turn) = some s')
    (hreturns : s'.cache.answered = (get, some saved) :: s.cache.answered) :
    Promise ttl s turn get saved := by
  have hI := invariant_run run
  have hrecent : ∀ since, s.WasCurrent get.tenantId since saved → get.now - ttl < since →
      ∃ m ∈ s.moments, get.now - ttl < m.1 ∧
        (m.2.find? fun saved => saved.tenantId == get.tenantId) = some saved := by
    rintro since ⟨m, hm, hsince, hfind⟩ hlate
    exact ⟨m, hm, hlate.trans_le hsince, hfind⟩
  rcases returns_cases (apply_eq_some h).1 hreturns with
    ⟨reading, entry, rfl, hnow, hentry, hfresh, rfl⟩ | ⟨entry, rfl, hget, hentry, rfl⟩ |
      ⟨rfl, hget, hpolicy⟩
  · obtain ⟨hwas, -⟩ := hI.entries _ _ hentry
    refine ⟨tenantId_of_wasCurrent hwas, fun _ => hrecent _ hwas ?_, fun hfail => by cases hfail⟩
    have hage : reading - entry.readAt < ttl := by simpa [CacheEntry.isFresh] using hfresh
    rw [hnow]
    linarith
  · have hread := hI.entry get hget entry hentry
    exact ⟨hI.reads _ hread, fun hfine => absurd rfl hfine, fun _ => hread⟩
  · have hwas := hI.policy get hget saved hpolicy
    refine ⟨tenantId_of_wasCurrent hwas, fun _ => hrecent _ hwas ?_, fun hfail => by cases hfail⟩
    linarith

/-- A policy is read and stored; its tenant saves another one meanwhile. -/
def aged : List (Time × CacheTurn) :=
  [(3, .call (.store (acmeGet 0 (some ⟨watching, 0⟩) []))),
    (2, .call (.writePolicy "acme" switchedOff)), (1, .call (.readPolicy (acmeGet 0 none []))),
    (0, .call (.lookUp "acme" 0))]

/-- The `get` that finds the entry at 4, with a ttl of 5, returns what was the policy at 1. -/
theorem policy_within_ttl_aged : ∃ s s',
    AgedCache.apply 5 s (4, .call (.lookUp "acme" 4)) = some s' ∧
    s'.cache.answered = ({ acmeGet 4 none [] with entry := some ⟨0, ⟨watching, 0⟩⟩ },
      some ⟨watching, 0⟩) :: s.cache.answered ∧
    Promise 5 s (.call (.lookUp "acme" 4))
      { acmeGet 4 none [] with entry := some ⟨0, ⟨watching, 0⟩⟩ } ⟨watching, 0⟩ := by
  have hplay : ((replayIf (AgedCache.apply 5) OnTime (start [watching] 0) aged).bind fun s =>
      (AgedCache.apply 5 s (4, .call (.lookUp "acme" 4))).map fun s' =>
        decide (s'.cache.answered = ({ acmeGet 4 none [] with entry := some ⟨0, ⟨watching, 0⟩⟩ },
          some ⟨watching, 0⟩) :: s.cache.answered)) = some true := by
    decide +kernel
  obtain ⟨s, hs, hlast⟩ := Option.bind_eq_some_iff.mp hplay
  obtain ⟨s', hs', hreturns⟩ := Option.map_eq_some_iff.mp hlast
  have hanswered := of_decide_eq_true hreturns
  exact ⟨s, s', hs', hanswered,
    policy_within_ttl (by decide) (eventRun_of_replayIf hs) hs' hanswered⟩

end AgedCache

end RbaIdp
