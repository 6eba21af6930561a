import Mathlib.Data.Set.Insert

/-!
# Role-based grants

Users are members of groups, groups are assigned roles, and a role, on one
application, carries permissions; a permission gives scopes on an application.
What a user may do on an application is what the paths through these relations
lead to.

`Edit` is what can be done to the relations, one edge or one node at a time.
For each kind of edit there is a theorem that bounds its reach: for whom, and on
which applications, the answers may differ afterwards.  `gives_of_gained` and
`takes_of_lost` go the other way: from an answer that differs to what the edit was.
-/

namespace Relational

variable {U G R A P S : Type*}

@[ext]
structure Grants (U G R A P S : Type*) where
  member : G → U → Prop
  assigned : G → R → Prop
  roleOn : R → A → Prop
  carries : R → P → Prop
  gives : P → A → S → Prop

namespace Grants

variable (γ δ : Grants U G R A P S) (u : U) (a : A)

/-- A path from a user to an application, by a group and a role. -/
structure Path (g : G) (r : R) : Prop where
  member : γ.member g u
  assigned : γ.assigned g r
  roleOn : γ.roleOn r a

/-- Is the role assigned to one of the user's groups? -/
def Holds (r : R) : Prop := ∃ g, γ.member g u ∧ γ.assigned g r

/-- Does any path lead there? -/
def Access : Prop := ∃ g r, γ.Path u a g r

/-- The scopes at the ends of the paths. -/
def permissions : Set S := {s | ∃ g r p, γ.Path u a g r ∧ γ.carries r p ∧ γ.gives p a s}

/-- The user may do the same on the application under both. -/
def Same : Prop :=
  γ.permissions u a = δ.permissions u a ∧ (γ.Access u a ↔ δ.Access u a)

/-- A step on the relations. -/
inductive Edit (U G R A P S : Type*) where
  | keep
  | join (g : G) (u : U)
  | leave (g : G) (u : U)
  | dropGroup (g : G)
  | assign (g : G) (r : R)
  | unassign (g : G) (r : R)
  | setCarried (r : R) (ps : Set P)
  | dropRole (r : R)
  | addRole (r : R) (a : A)
  | addPermission (p : P) (a : A) (s : S)

namespace Edit

/-- The group whose members a step changes. -/
def group? : Edit U G R A P S → Option G
  | join g _ | leave g _ | dropGroup g => some g
  | _ => none

/-- The role a step takes from groups, gives to them, or gives other contents. -/
def role? : Edit U G R A P S → Option R
  | assign _ r | unassign _ r | setCarried r _ | dropRole r => some r
  | _ => none

/-- The relations after a step. -/
def apply : Edit U G R A P S → Grants U G R A P S → Grants U G R A P S
  | keep, γ => γ
  | join g u, γ => { γ with member := fun h v => γ.member h v ∨ (h = g ∧ v = u) }
  | leave g u, γ => { γ with member := fun h v => γ.member h v ∧ ¬ (h = g ∧ v = u) }
  | dropGroup g, γ =>
      { γ with
        member := fun h v => γ.member h v ∧ h ≠ g
        assigned := fun h r => γ.assigned h r ∧ h ≠ g }
  | assign g r, γ => { γ with assigned := fun h q => γ.assigned h q ∨ (h = g ∧ q = r) }
  | unassign g r, γ => { γ with assigned := fun h q => γ.assigned h q ∧ ¬ (h = g ∧ q = r) }
  | setCarried r ps, γ =>
      { γ with carries := fun q p => (γ.carries q p ∧ q ≠ r) ∨ (q = r ∧ p ∈ ps) }
  | dropRole r, γ =>
      { γ with
        assigned := fun g q => γ.assigned g q ∧ q ≠ r
        carries := fun q p => γ.carries q p ∧ q ≠ r
        roleOn := fun q a => γ.roleOn q a ∧ q ≠ r }
  | addRole r a, γ => { γ with roleOn := fun q b => γ.roleOn q b ∨ (q = r ∧ b = a) }
  | addPermission p a s, γ =>
      { γ with gives := fun q b x => γ.gives q b x ∨ (q = p ∧ b = a ∧ x = s) }

end Edit

variable {γ δ u a} {e : Edit U G R A P S}

theorem join_of_member {g : G} (h : γ.member g u) : (Edit.join g u).apply γ = γ := by
  ext x y
  case member =>
    refine ⟨fun hor => hor.elim id ?_, Or.inl⟩
    rintro ⟨rfl, rfl⟩
    exact h
  all_goals rfl

theorem leave_of_not_member {g : G} (h : ¬ γ.member g u) : (Edit.leave g u).apply γ = γ := by
  ext x y
  case member =>
    refine ⟨And.left, fun hold => ⟨hold, ?_⟩⟩
    rintro ⟨rfl, rfl⟩
    exact h hold
  all_goals rfl

/-- Two graphs whose paths pass the same roles, with the same contents, answer
alike. -/
theorem same_of_paths (hpaths : ∀ r, (∃ g, γ.Path u a g r) ↔ ∃ g, δ.Path u a g r)
    (hcontents : ∀ r g, γ.Path u a g r → ∀ s,
      (∃ p, γ.carries r p ∧ γ.gives p a s) ↔ ∃ p, δ.carries r p ∧ δ.gives p a s) :
    γ.Same δ u a := by
  constructor
  · ext s
    constructor
    · rintro ⟨g, r, p, hpath, hcarries⟩
      obtain ⟨g', hpath'⟩ := (hpaths r).mp ⟨g, hpath⟩
      obtain ⟨p', hcarries'⟩ := (hcontents r g hpath s).mp ⟨p, hcarries⟩
      exact ⟨g', r, p', hpath', hcarries'⟩
    · rintro ⟨g, r, p, hpath, hcarries⟩
      obtain ⟨g', hpath'⟩ := (hpaths r).mpr ⟨g, hpath⟩
      obtain ⟨p', hcarries'⟩ := (hcontents r g' hpath' s).mpr ⟨p, hcarries⟩
      exact ⟨g', r, p', hpath', hcarries'⟩
  · constructor
    · rintro ⟨g, r, hpath⟩
      obtain ⟨g', hpath'⟩ := (hpaths r).mp ⟨g, hpath⟩
      exact ⟨g', r, hpath'⟩
    · rintro ⟨g, r, hpath⟩
      obtain ⟨g', hpath'⟩ := (hpaths r).mpr ⟨g, hpath⟩
      exact ⟨g', r, hpath'⟩

/-- Nothing changes for a user on an application when no path there passes
anything that changed. -/
theorem same_of_agree (hpaths : ∀ g r, γ.Path u a g r ↔ δ.Path u a g r)
    (hcontents : ∀ g r, γ.Path u a g r → ∀ p s,
      (γ.carries r p ∧ γ.gives p a s) ↔ (δ.carries r p ∧ δ.gives p a s)) : γ.Same δ u a :=
  same_of_paths (fun r => exists_congr fun g => hpaths g r)
    fun r g hpath s => exists_congr fun p => hcontents g r hpath p s

/-! ## The reach of a step -/

/-- A step on the members of a group concerns those who join or leave it. -/
theorem same_of_member {g : G} (he : e.group? = some g)
    (hmember : γ.member g u ↔ (e.apply γ).member g u) : γ.Same (e.apply γ) u a := by
  cases e with
  | join h v =>
      obtain rfl : h = g := Option.some.inj he
      have hstays : u = v → γ.member h u := fun heq => hmember.mpr (Or.inr ⟨rfl, heq⟩)
      refine same_of_agree (fun g r => ⟨fun hpath => ⟨Or.inl hpath.1, hpath.2, hpath.3⟩, ?_⟩)
        fun _ _ _ _ _ => Iff.rfl
      rintro ⟨hold | ⟨rfl, hv⟩, hassigned, hrole⟩
      · exact ⟨hold, hassigned, hrole⟩
      · exact ⟨hstays hv, hassigned, hrole⟩
  | leave h v =>
      obtain rfl : h = g := Option.some.inj he
      refine same_of_agree (fun g r => ⟨fun hpath => ⟨⟨hpath.1, ?_⟩, hpath.2, hpath.3⟩,
        fun hpath => ⟨hpath.1.1, hpath.2, hpath.3⟩⟩) fun _ _ _ _ _ => Iff.rfl
      rintro ⟨rfl, hv⟩
      exact (hmember.mp hpath.1).2 ⟨rfl, hv⟩
  | dropGroup h =>
      obtain rfl : h = g := Option.some.inj he
      refine same_of_agree (fun g r => ⟨fun hpath => ?_,
        fun hpath => ⟨hpath.1.1, hpath.2.1, hpath.3⟩⟩) fun _ _ _ _ _ => Iff.rfl
      have hother : g ≠ h := by
        rintro rfl
        exact (hmember.mp hpath.1).2 rfl
      exact ⟨⟨hpath.1, hother⟩, ⟨hpath.2, hother⟩, hpath.3⟩
  | keep | assign | unassign | setCarried | dropRole | addRole | addPermission => cases he

/-- A step on a role concerns the role's application, and those who hold the
role before or after it. -/
theorem same_of_role {r : R} (he : e.role? = some r)
    (hout : ¬ (γ.roleOn r a ∧ (γ.Holds u r ∨ (e.apply γ).Holds u r))) :
    γ.Same (e.apply γ) u a := by
  -- no path to the application passes the role
  have hbefore : ∀ g q, γ.Path u a g q → q ≠ r := by
    rintro g q hpath rfl
    exact hout ⟨hpath.roleOn, Or.inl ⟨g, hpath.member, hpath.assigned⟩⟩
  cases e with
  | assign h q =>
      obtain rfl : q = r := Option.some.inj he
      refine same_of_agree (fun g r => ⟨fun hpath => ⟨hpath.1, Or.inl hpath.2, hpath.3⟩, ?_⟩)
        fun _ _ _ _ _ => Iff.rfl
      rintro ⟨hmember, hassigned, hrole⟩
      refine ⟨hmember, hassigned.resolve_right ?_, hrole⟩
      rintro ⟨rfl, rfl⟩
      exact hout ⟨hrole, Or.inr ⟨g, hmember, hassigned⟩⟩
  | unassign h q =>
      obtain rfl : q = r := Option.some.inj he
      exact same_of_agree (fun g r => ⟨fun hpath =>
        ⟨hpath.1, ⟨hpath.2, fun heq => hbefore g r hpath heq.2⟩, hpath.3⟩,
        fun hpath => ⟨hpath.1, hpath.2.1, hpath.3⟩⟩) fun _ _ _ _ _ => Iff.rfl
  | setCarried q ps =>
      obtain rfl : q = r := Option.some.inj he
      refine same_of_agree (fun _ _ => ⟨fun hpath => ⟨hpath.1, hpath.2, hpath.3⟩,
        fun hpath => ⟨hpath.1, hpath.2, hpath.3⟩⟩) fun g r hpath p s => and_congr_left' ?_
      simp [Edit.apply, hbefore g r hpath]
  | dropRole q =>
      obtain rfl : q = r := Option.some.inj he
      refine same_of_agree (fun g r => ⟨fun hpath =>
        ⟨hpath.1, ⟨hpath.2, hbefore g r hpath⟩, hpath.3, hbefore g r hpath⟩,
        fun hpath => ⟨hpath.1, hpath.2.1, hpath.3.1⟩⟩) fun g r hpath p s => and_congr_left' ?_
      simp [Edit.apply, hbefore g r hpath]
  | keep | join | leave | dropGroup | addRole | addPermission => cases he

/-- A role that no group is assigned may be put anywhere. -/
theorem same_of_addRole {r : R} {b : A} (hfree : ∀ g, ¬ γ.assigned g r) :
    γ.Same ((Edit.addRole r b).apply γ) u a := by
  refine same_of_agree (fun g q => ⟨fun hpath => ⟨hpath.1, hpath.2, Or.inl hpath.3⟩,
    fun hpath => ⟨hpath.1, hpath.2, hpath.3.resolve_right ?_⟩⟩) fun _ _ _ _ _ => Iff.rfl
  rintro ⟨rfl, -⟩
  exact hfree g hpath.2

/-- A permission that no role carries may give anything. -/
theorem same_of_addPermission {p : P} {b : A} {s : S} (hfree : ∀ r, ¬ γ.carries r p) :
    γ.Same ((Edit.addPermission p b s).apply γ) u a := by
  refine same_of_agree (fun _ _ => ⟨fun hpath => ⟨hpath.1, hpath.2, hpath.3⟩,
    fun hpath => ⟨hpath.1, hpath.2, hpath.3⟩⟩) fun g r _ q x =>
      ⟨fun h => ⟨h.1, Or.inl h.2⟩, fun h => ⟨h.1, h.2.resolve_right ?_⟩⟩
  rintro ⟨rfl, -⟩
  exact hfree r h.1

/-- New contents of a role change nobody's access. -/
theorem access_setCarried {r : R} {ps : Set P} :
    ((Edit.setCarried r ps).apply γ).Access u a ↔ γ.Access u a :=
  exists₂_congr fun _ _ => ⟨fun h => ⟨h.1, h.2, h.3⟩, fun h => ⟨h.1, h.2, h.3⟩⟩

/-- Whoever holds a role has, once its contents are replaced, the new contents
and what the other roles on its application give. -/
theorem permissions_setCarried {r : R} {ps : Set P} (hholds : γ.Holds u r) (hon : γ.roleOn r a) :
    ((Edit.setCarried r ps).apply γ).permissions u a =
      {s | ∃ p ∈ ps, γ.gives p a s} ∪
        {s | ∃ g q p, q ≠ r ∧ γ.Path u a g q ∧ γ.carries q p ∧ γ.gives p a s} := by
  ext s
  constructor
  · rintro ⟨g, q, p, hpath, ⟨hcarries, hother⟩ | ⟨rfl, hp⟩, hgives⟩
    · exact Or.inr ⟨g, q, p, hother, ⟨hpath.1, hpath.2, hpath.3⟩, hcarries, hgives⟩
    · exact Or.inl ⟨p, hp, hgives⟩
  · rintro (⟨p, hp, hgives⟩ | ⟨g, q, p, hother, hpath, hcarries, hgives⟩)
    · obtain ⟨g, hmember, hassigned⟩ := hholds
      exact ⟨g, r, p, ⟨hmember, hassigned, hon⟩, Or.inr ⟨rfl, hp⟩, hgives⟩
    · exact ⟨g, q, p, ⟨hpath.1, hpath.2, hpath.3⟩, Or.inl ⟨hcarries, hother⟩, hgives⟩

/-! ## What a step gives and takes -/

section Gains

variable (γ a) in
/-- The role has the scope on its application. -/
def RoleGives (r : R) (s : S) : Prop := γ.roleOn r a ∧ ∃ p, γ.carries r p ∧ γ.gives p a s

variable (γ a) in
/-- One of the group's roles has the scope. -/
def GroupGives (g : G) (s : S) : Prop := ∃ r, γ.assigned g r ∧ γ.RoleGives a r s

variable {s : S}

theorem mem_permissions_iff :
    s ∈ γ.permissions u a ↔ ∃ r, γ.Holds u r ∧ γ.RoleGives a r s := by
  constructor
  · rintro ⟨g, r, p, hpath, hcarries, hgives⟩
    exact ⟨r, ⟨g, hpath.member, hpath.assigned⟩, hpath.roleOn, p, hcarries, hgives⟩
  · rintro ⟨r, ⟨g, hmember, hassigned⟩, hon, p, hcarries, hgives⟩
    exact ⟨g, r, p, ⟨hmember, hassigned, hon⟩, hcarries, hgives⟩

variable (γ u a s) in
/-- The steps at the end of which there is a path to the scope that passes what the
step adds. -/
inductive Edit.Gives : Edit U G R A P S → Prop
  | join {g : G} (leads : γ.GroupGives a g s) : Gives (.join g u)
  | assign {g : G} {r : R} (member : γ.member g u) (has : γ.RoleGives a r s) :
      Gives (.assign g r)
  | setCarried {r : R} {ps : Set P} {p : P} (holds : γ.Holds u r) (on : γ.roleOn r a)
      (mem : p ∈ ps) (gives : γ.gives p a s) : Gives (.setCarried r ps)
  | addRole {r : R} {p : P} (holds : γ.Holds u r) (carries : γ.carries r p)
      (gives : γ.gives p a s) : Gives (.addRole r a)
  | addPermission {r : R} {p : P} (holds : γ.Holds u r) (on : γ.roleOn r a)
      (carries : γ.carries r p) : Gives (.addPermission p a s)

variable (γ u a s) in
/-- The steps that cut a path to the scope. -/
inductive Edit.Takes : Edit U G R A P S → Prop
  | leave {g : G} (member : γ.member g u) (leads : γ.GroupGives a g s) : Takes (.leave g u)
  | dropGroup {g : G} (member : γ.member g u) (leads : γ.GroupGives a g s) : Takes (.dropGroup g)
  | unassign {g : G} {r : R} (member : γ.member g u) (assigned : γ.assigned g r)
      (has : γ.RoleGives a r s) : Takes (.unassign g r)
  | setCarried {r : R} {ps : Set P} (holds : γ.Holds u r) (has : γ.RoleGives a r s)
      (lacks : ∀ p ∈ ps, ¬ γ.gives p a s) : Takes (.setCarried r ps)
  | dropRole {r : R} (holds : γ.Holds u r) (has : γ.RoleGives a r s) : Takes (.dropRole r)

/-- A scope that is new to a user was given by the step. -/
theorem gives_of_gained (hbefore : s ∉ γ.permissions u a)
    (hafter : s ∈ (e.apply γ).permissions u a) : e.Gives γ u a s := by
  obtain ⟨r, ⟨g, hmember, hassigned⟩, hon, p, hcarries, hgives⟩ := mem_permissions_iff.mp hafter
  have hnew : γ.member g u → γ.assigned g r → γ.roleOn r a → γ.carries r p →
      ¬ γ.gives p a s := fun hm hr ho hc hg =>
    hbefore ⟨g, r, p, ⟨hm, hr, ho⟩, hc, hg⟩
  cases e with
  | keep => exact absurd hafter hbefore
  | join h v =>
      rcases hmember with hmember | ⟨rfl, rfl⟩
      · exact absurd hgives (hnew hmember hassigned hon hcarries)
      · exact .join ⟨r, hassigned, hon, p, hcarries, hgives⟩
  | leave h v => exact absurd hgives (hnew hmember.1 hassigned hon hcarries)
  | dropGroup h => exact absurd hgives (hnew hmember.1 hassigned.1 hon hcarries)
  | assign h q =>
      rcases hassigned with hassigned | ⟨rfl, rfl⟩
      · exact absurd hgives (hnew hmember hassigned hon hcarries)
      · exact .assign hmember ⟨hon, p, hcarries, hgives⟩
  | unassign h q => exact absurd hgives (hnew hmember hassigned.1 hon hcarries)
  | setCarried q ps =>
      rcases hcarries with ⟨hcarries, -⟩ | ⟨rfl, hp⟩
      · exact absurd hgives (hnew hmember hassigned hon hcarries)
      · exact .setCarried ⟨g, hmember, hassigned⟩ hon hp hgives
  | dropRole q => exact absurd hgives (hnew hmember hassigned.1 hon.1 hcarries.1)
  | addRole q b =>
      rcases hon with hon | ⟨rfl, rfl⟩
      · exact absurd hgives (hnew hmember hassigned hon hcarries)
      · exact .addRole ⟨g, hmember, hassigned⟩ hcarries hgives
  | addPermission q b x =>
      rcases hgives with hgives | ⟨rfl, rfl, rfl⟩
      · exact absurd hgives (hnew hmember hassigned hon hcarries)
      · exact .addPermission ⟨g, hmember, hassigned⟩ hon hcarries

/-- A scope that a user no longer has was taken by the step. -/
theorem takes_of_lost (hbefore : s ∈ γ.permissions u a)
    (hafter : s ∉ (e.apply γ).permissions u a) : e.Takes γ u a s := by
  obtain ⟨r, ⟨g, hmember, hassigned⟩, hon, p, hcarries, hgives⟩ := mem_permissions_iff.mp hbefore
  have hrole : γ.RoleGives a r s := ⟨hon, p, hcarries, hgives⟩
  -- the path is gone
  have hcut : (e.apply γ).member g u → (e.apply γ).assigned g r → (e.apply γ).roleOn r a →
      (e.apply γ).carries r p → ¬ (e.apply γ).gives p a s := fun hm hr ho hc hg =>
    hafter ⟨g, r, p, ⟨hm, hr, ho⟩, hc, hg⟩
  cases e with
  | keep => exact absurd hbefore hafter
  | join h v => exact absurd hgives (hcut (Or.inl hmember) hassigned hon hcarries)
  | assign h q => exact absurd hgives (hcut hmember (Or.inl hassigned) hon hcarries)
  | addRole q b => exact absurd hgives (hcut hmember hassigned (Or.inl hon) hcarries)
  | addPermission q b x => exact absurd (Or.inl hgives) (hcut hmember hassigned hon hcarries)
  | leave h v =>
      by_cases hsame : g = h ∧ u = v
      · obtain ⟨rfl, rfl⟩ := hsame
        exact .leave hmember ⟨r, hassigned, hrole⟩
      · exact absurd hgives (hcut ⟨hmember, hsame⟩ hassigned hon hcarries)
  | dropGroup h =>
      by_cases hsame : g = h
      · obtain rfl := hsame
        exact .dropGroup hmember ⟨r, hassigned, hrole⟩
      · exact absurd hgives (hcut ⟨hmember, hsame⟩ ⟨hassigned, hsame⟩ hon hcarries)
  | unassign h q =>
      by_cases hsame : g = h ∧ r = q
      · obtain ⟨rfl, rfl⟩ := hsame
        exact .unassign hmember hassigned hrole
      · exact absurd hgives (hcut hmember ⟨hassigned, hsame⟩ hon hcarries)
  | setCarried q ps =>
      by_cases hsame : r = q
      · obtain rfl := hsame
        refine .setCarried ⟨g, hmember, hassigned⟩ hrole fun p' hp' hgives' => ?_
        exact hafter ⟨g, r, p', ⟨hmember, hassigned, hon⟩, Or.inr ⟨rfl, hp'⟩, hgives'⟩
      · exact absurd hgives (hcut hmember hassigned hon (Or.inl ⟨hcarries, hsame⟩))
  | dropRole q =>
      by_cases hsame : r = q
      · obtain rfl := hsame
        exact .dropRole ⟨g, hmember, hassigned⟩ hrole
      · exact absurd hgives (hcut hmember ⟨hassigned, hsame⟩ ⟨hon, hsame⟩ ⟨hcarries, hsame⟩)

end Gains

end Grants

end Relational
