import RbaIdp.Relational.Program

/-!
# Programs that provide what is missing

A provisioning program goes through a list of entries and sees to it that each is
there: it looks, and writes what it does not find.  `Provision` says for every
entry when it is there and which statements put it there; that no such statement
takes another entry away is a field, `lasting`.

`Provides P m ns Q` is the judgement that `m`, from a state in `P`, provides the
entries `ns` in this order and returns into `Q`.  Its rules follow the
constructors of programs.  Three facts follow from it:

* `Provides.provided`: when the program returns, every entry is there, and
  nothing was written but entries that were missing;
* `Provides.returns`: it does return, when the statement for a missing entry is
  accepted once the entries before it are there;
* `Provides.idle`: where every entry is there already, it returns and changes
  nothing.
-/

namespace Relational

variable {N σ ω χ ε : Type*} [Statement σ ω]

/-- When an entry is there, and the statements that put it there in a state. -/
structure Provision (N σ ω : Type*) [Statement σ ω] where
  Met : N → σ → Prop
  Writes : N → σ → ω → Prop
  lasting : ∀ {n n' : N} {w : ω} {db : σ}, Met n db → Writes n' db w →
    Statement.violates w db = false → Met n (Statement.effect w db)

namespace Provision

variable {p : Provision N σ ω} {ns ns' : List N} {n : N} {w : ω} {db db' : σ}

/-- The statement is for an entry that is missing, or changes nothing. -/
def Adds (p : Provision N σ ω) (ns : List N) (db : σ) (w : ω) : Prop :=
  ∃ n ∈ ns, p.Writes n db w ∧ (p.Met n db → Statement.effect w db = db)

theorem Adds.mono (h : p.Adds ns db w) (hsub : ns ⊆ ns') : p.Adds ns' db w := by
  obtain ⟨n, hn, hwrites⟩ := h
  exact ⟨n, hsub hn, hwrites⟩

/-- What is there stays there. -/
theorem met_of_path {ws : List ω} (path : Path (p.Adds ns) db ws db') (h : p.Met n db) :
    p.Met n db' := by
  refine path.invariant (fun db w hdb hadds haccepted => ?_) h
  obtain ⟨n', -, hwrites, -⟩ := hadds
  exact p.lasting hdb hwrites haccepted

/-- Where nothing is missing, nothing changes. -/
theorem eq_of_path {ws : List ω} (path : Path (p.Adds ns) db ws db') (h : ∀ n ∈ ns, p.Met n db) :
    db' = db := by
  refine path.invariant (I := fun db' => db' = db) (fun db' w hdb hadds _ => ?_) rfl
  subst hdb
  obtain ⟨n, hn, -, hidle⟩ := hadds
  exact hidle (h n hn)

/-- From `t₀`, the program has come to `t`, and some entries are there. -/
structure Provided (p : Provision N σ ω) (t₀ : Trace σ ω χ) (ns : List N) (t : Trace σ ω χ) :
    Prop where
  path : Extends (p.Adds ns) t₀ t
  met : ∀ n ∈ ns, p.Met n t.db

theorem Provided.start (t : Trace σ ω χ) : p.Provided t [] t := ⟨Extends.refl t, by simp⟩

theorem Provided.met_of_met {t₀ t : Trace σ ω χ} (h : p.Provided t₀ ns t) (hmet : p.Met n t₀.db) :
    p.Met n t.db := by
  obtain ⟨ws, -, path⟩ := h.path
  exact met_of_path path hmet

/-- One more entry, by a statement for it. -/
theorem Provided.exec {t₀ t : Trace σ ω χ} (h : p.Provided t₀ ns t) (hwrites : p.Writes n t.db w)
    (hidle : p.Met n t.db → Statement.effect w t.db = t.db)
    (haccepted : Statement.violates w t.db = false) (hmet : p.Met n (Statement.effect w t.db)) :
    p.Provided t₀ (ns ++ [n]) (t.exec w) := by
  obtain ⟨⟨ws, hws, path⟩, hmets⟩ := h
  refine ⟨Extends.exec ⟨ws, hws, path.mono fun _ _ hadds =>
    hadds.mono (List.subset_append_left _ _)⟩ ⟨n, by simp, hwrites, hidle⟩ haccepted, ?_⟩
  intro m hm
  rcases List.mem_append.mp hm with hm | hm
  · exact p.lasting (hmets m hm) hwrites haccepted
  · rw [List.mem_singleton.mp hm]
    exact hmet

/-! ## The judgement -/

variable {α β : Type}

/-- From a state in `P`, the program provides the entries in order and returns into
`Q`; it raises, if at all, where the database refuses a statement for an entry that is
missing although the entries before it are there. -/
def Provides (p : Provision N σ ω) (P : σ → Prop) (m : Program σ ω χ ε α) (ns : List N)
    (Q : α → σ → Prop) : Prop :=
  ∀ (t₀ t : Trace σ ω χ) (S : List N) (E : Prop), p.Provided t₀ S t → P t.db →
    (∀ before n after, ns = before ++ n :: after → ∀ (u : Trace σ ω χ) (w : ω),
      p.Provided t₀ (S ++ before) u → ¬ p.Met n u.db → p.Writes n u.db w →
        Statement.violates w u.db = true → E) →
    m.wp (fun a u => p.Provided t₀ (S ++ ns) u ∧ Q a u.db) (fun _ => E) t

variable {P P' : σ → Prop} {Q Q' : α → σ → Prop}

theorem Provides.mono {m : Program σ ω χ ε α} (h : p.Provides P m ns Q) (hP : ∀ db, P' db → P db)
    (hQ : ∀ a db, Q a db → Q' a db) : p.Provides P' m ns Q' := by
  intro t₀ t S E ht hpre hrefused
  exact Program.wp_mono (h t₀ t S E ht (hP _ hpre) hrefused)
    (fun a u hu => ⟨hu.1, hQ a _ hu.2⟩) fun _ he => he

theorem provides_pure {a : α} (h : ∀ db, P db → Q a db) :
    p.Provides P (pure a : Program σ ω χ ε α) [] Q := by
  intro t₀ t S E ht hpre _
  rw [Program.wp_pure, List.append_nil]
  exact ⟨ht, h _ hpre⟩

/-- Entries that the program leaves there besides. -/
theorem Provides.also {m : Program σ ω χ ε α}
    (h : p.Provides P m ns fun a db => (∀ n ∈ ns', p.Met n db) ∧ Q a db) :
    p.Provides P m (ns ++ ns') Q := by
  intro t₀ t S E ht hpre hrefused
  refine Program.wp_mono (h t₀ t S E ht hpre fun before n after hsplit => ?_) (fun a u hu => ?_)
    fun _ he => he
  · exact hrefused before n (after ++ ns') (by rw [hsplit, List.append_assoc, List.cons_append])
  · obtain ⟨⟨⟨ws, hws, path⟩, hmets⟩, hmets', hq⟩ := hu
    have hsub : S ++ ns ⊆ S ++ (ns ++ ns') := by
      rw [← List.append_assoc]
      exact List.subset_append_left _ _
    refine ⟨⟨⟨ws, hws, path.mono fun _ _ hadds => hadds.mono hsub⟩, fun n hn => ?_⟩, hq⟩
    rw [← List.append_assoc] at hn
    exact (List.mem_append.mp hn).elim (hmets n) (hmets' n)

/-- Entries that are there already. -/
theorem provides_there {a : α} (h : ∀ db, P db → (∀ n ∈ ns, p.Met n db) ∧ Q a db) :
    p.Provides P (pure a : Program σ ω χ ε α) ns Q :=
  (provides_pure h).also

/-- What is known of values, and not of the state. -/
theorem provides_of_fact {φ : Prop} {m : Program σ ω χ ε α} (h : φ → p.Provides P m ns Q) :
    p.Provides (fun db => P db ∧ φ) m ns Q :=
  fun t₀ t S E ht hpre => h hpre.2 t₀ t S E ht hpre.1

theorem provides_read {f : σ → α} :
    p.Provides P (Program.read f : Program σ ω χ ε α) [] fun a db => P db ∧ f db = a := by
  intro t₀ t S E ht hpre _
  rw [Program.wp_read, List.append_nil]
  exact ⟨ht, hpre, rfl⟩

/-- The rule for sequences: the entries of the first program, then those of the second. -/
theorem provides_bind {m : Program σ ω χ ε α} {f : α → Program σ ω χ ε β} {I : α → σ → Prop}
    {Q : β → σ → Prop} (hm : p.Provides P m ns I) (hf : ∀ a, p.Provides (I a) (f a) ns' Q) :
    p.Provides P (m >>= f) (ns ++ ns') Q := by
  intro t₀ t S E ht hpre hrefused
  refine Program.wp_seq (hm t₀ t S E ht hpre fun before n after hsplit => ?_) fun a u hu => ?_
  · exact hrefused before n (after ++ ns') (by rw [hsplit, List.append_assoc, List.cons_append])
  · rw [← List.append_assoc]
    refine hf a t₀ u (S ++ ns) E hu.1 hu.2 fun before n after hsplit u' w hu' => ?_
    refine hrefused (ns ++ before) n after (by rw [hsplit, List.append_assoc]) u' w ?_
    rw [← List.append_assoc]
    exact hu'

/-- A program that looks first. -/
theorem provides_look {f : σ → α} {k : α → Program σ ω χ ε β} {Q : β → σ → Prop}
    (hk : ∀ a, p.Provides (fun db => P db ∧ f db = a) (k a) ns Q) :
    p.Provides P (Program.read f >>= k) ns Q :=
  provides_bind provides_read hk

/-- One entry, and the rest. -/
theorem provides_cons {m : Program σ ω χ ε α} {f : α → Program σ ω χ ε β} {I : α → σ → Prop}
    {Q : β → σ → Prop} (hm : p.Provides P m [n] I) (hf : ∀ a, p.Provides (I a) (f a) ns Q) :
    p.Provides P (m >>= f) (n :: ns) Q :=
  provides_bind hm hf

/-- A statement for one entry, executed whether or not the entry is there. -/
theorem provides_execute {Q : Unit → σ → Prop} (hwrites : ∀ db, P db → p.Writes n db w)
    (hidle : ∀ db, P db → p.Met n db →
      Statement.violates w db = false ∧ Statement.effect w db = db)
    (hmade : ∀ db, P db → Statement.violates w db = false →
      p.Met n (Statement.effect w db) ∧ Q () (Statement.effect w db)) :
    p.Provides P (Program.execute w : Program σ ω χ ε Unit) [n] Q := by
  intro t₀ t S E ht hpre hrefused
  rw [Program.wp_execute]
  refine ⟨fun hviolates => ?_, fun haccepted => ?_⟩
  · refine hrefused [] n [] rfl t w (by rwa [List.append_nil]) (fun hmet => ?_)
      (hwrites _ hpre) hviolates
    rw [(hidle _ hpre hmet).1] at hviolates
    cases hviolates
  · exact ⟨ht.exec (hwrites _ hpre) (fun hmet => (hidle _ hpre hmet).2) haccepted
      (hmade _ hpre haccepted).1, (hmade _ hpre haccepted).2⟩

theorem provides_transaction {m : Program σ ω χ ε α} (h : p.Provides P m ns Q) :
    p.Provides P (Program.transaction m) ns Q := by
  intro t₀ t S E ht hpre hrefused
  rw [Program.wp_transaction]
  exact h t₀ t S E ht hpre hrefused

theorem provides_when {c : Prop} [Decidable c] {m : Program σ ω χ ε Unit} {Q : Unit → σ → Prop}
    (hm : c → p.Provides P m ns Q)
    (hthere : ¬ c → ∀ db, P db → (∀ n ∈ ns, p.Met n db) ∧ Q () db) :
    p.Provides P (Program.when c m) ns Q := by
  unfold Program.when
  split
  · next hc => exact hm hc
  · next hc => exact provides_there (hthere hc)

/-- The rule for a row that is written only when it was not found. -/
theorem provides_missing {ρ : Type} [DecidableEq ρ] (find : σ → Option ρ) {existing : Option ρ}
    (hwrites : ∀ db, P db → find db = none → p.Writes n db w)
    (hmet : ∀ db, P db → (p.Met n db ↔ find db ≠ none))
    (hmade : ∀ db, P db → find db = none → Statement.violates w db = false →
      p.Met n (Statement.effect w db) ∧ P (Statement.effect w db)) :
    p.Provides (fun db => P db ∧ find db = existing)
      (Program.when (existing = none) (Program.execute w) : Program σ ω χ ε Unit) [n]
      fun _ => P := by
  refine provides_when (fun hnone => provides_execute
    (fun db hpre => hwrites db hpre.1 (hpre.2.trans hnone)) (fun db hpre hthere => ?_)
    fun db hpre haccepted => hmade db hpre.1 (hpre.2.trans hnone) haccepted)
    fun hsome db hpre => ⟨?_, hpre.1⟩
  · exact absurd (hpre.2.trans hnone) ((hmet db hpre.1).mp hthere)
  · intro m hm
    rw [List.mem_singleton.mp hm, hmet db hpre.1, hpre.2]
    exact hsome

theorem provides_ifSome {o : Option α} {f : α → Program σ ω χ ε Unit} {Q : Unit → σ → Prop}
    {entries : α → List N} (hf : ∀ a, o = some a → p.Provides P (f a) (entries a) Q)
    (hnone : ∀ db, P db → Q () db) :
    p.Provides P (Program.ifSome o f) (o.toList.flatMap entries) Q := by
  cases o with
  | none => exact provides_pure hnone
  | some a => simpa [Program.ifSome] using hf a rfl

/-- The rule for loops: the entries of every iteration, in order. -/
theorem provides_forEach {xs : List α} {f : α → Program σ ω χ ε Unit} {entries : α → List N}
    (hf : ∀ a ∈ xs, p.Provides P (f a) (entries a) fun _ => P) :
    p.Provides P (Program.forEach xs f) (xs.flatMap entries) fun _ => P := by
  induction xs with
  | nil => exact provides_pure fun _ h => h
  | cons a rest ih =>
      rw [List.flatMap_cons]
      exact provides_bind (hf a (List.mem_cons_self ..)) fun _ =>
        ih fun b hb => hf b (List.mem_cons_of_mem _ hb)

/-- The same, with one entry for every iteration. -/
theorem provides_forEach_map {xs : List α} {f : α → Program σ ω χ ε Unit} {entry : α → N}
    (hf : ∀ a ∈ xs, p.Provides P (f a) [entry a] fun _ => P) :
    p.Provides P (Program.forEach xs f) (xs.map entry) fun _ => P := by
  rw [List.map_eq_flatMap]
  exact provides_forEach hf

/-! ## What follows -/

variable {m : Program σ ω χ ε α} {t u : Trace σ ω χ} {a : α}

theorem Provides.provided (h : p.Provides P m ns Q) (hpre : P t.db) (hrun : m.run t = (.ok a, u)) :
    p.Provided t ns u ∧ Q a u.db :=
  Program.wp_of_ok (h t t [] True (.start t) hpre fun _ _ _ _ _ _ _ _ _ _ => trivial) hrun

/-- A program returns when the statement for a missing entry is accepted wherever the
entries before it are there. -/
theorem Provides.returns (h : p.Provides P m ns Q) (hpre : P t.db)
    (haccepted : ∀ before n after, ns = before ++ n :: after → ∀ (u : Trace σ ω χ) (w : ω),
      p.Provided t before u → ¬ p.Met n u.db → p.Writes n u.db w →
        Statement.violates w u.db = false) : ∃ a u, m.run t = (.ok a, u) := by
  have hwp := h t t [] False (.start t) hpre
    fun before n after hsplit u w hu hnot hwrites hrefused => by
      simp [haccepted before n after hsplit u w hu hnot hwrites] at hrefused
  rcases hrun : m.run t with ⟨e | a, u⟩
  · exact (Program.wp_of_error hwp hrun).elim
  · exact ⟨a, u, rfl⟩

/-- Where every entry is there, the program returns and changes nothing. -/
theorem Provides.idle (h : p.Provides P m ns Q) (hpre : P t.db) (hmet : ∀ n ∈ ns, p.Met n t.db) :
    ∃ a u, m.run t = (.ok a, u) ∧ u.db = t.db := by
  obtain ⟨a, u, hrun⟩ := h.returns hpre fun before n after hsplit u w hu hnot hwrites =>
    absurd (hu.met_of_met (hmet n (by simp [hsplit]))) hnot
  obtain ⟨ws, -, path⟩ := (h.provided hpre hrun).1.path
  exact ⟨a, u, hrun, eq_of_path path hmet⟩

end Provision

/-! ## Entries in the order of what they need -/

section Order

variable {M : Type*} [DecidableEq M] {gives needs : N → List M}

/-- Every entry comes after entries that give what it needs. -/
def needsFirst (gives needs : N → List M) : List M → List N → Bool
  | _, [] => true
  | known, n :: rest =>
      (needs n).all (fun m => decide (m ∈ known)) &&
        needsFirst gives needs (gives n ++ known) rest

theorem mem_of_needsFirst {known : List M} {before after : List N} {n : N} {m : M}
    (h : needsFirst gives needs known (before ++ n :: after) = true) (hm : m ∈ needs n) :
    m ∈ known ∨ ∃ b ∈ before, m ∈ gives b := by
  induction before generalizing known with
  | nil =>
      simp only [List.nil_append, needsFirst, Bool.and_eq_true, List.all_eq_true,
        decide_eq_true_eq] at h
      exact Or.inl (h.1 m hm)
  | cons b before ih =>
      simp only [List.cons_append, needsFirst, Bool.and_eq_true] at h
      rcases ih h.2 with hknown | ⟨b', hb', hgives⟩
      · rcases List.mem_append.mp hknown with hgives | hknown
        · exact Or.inr ⟨b, List.mem_cons_self .., hgives⟩
        · exact Or.inl hknown
      · exact Or.inr ⟨b', List.mem_cons_of_mem _ hb', hgives⟩

end Order

end Relational
