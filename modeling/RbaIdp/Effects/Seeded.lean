import RbaIdp.Db.Constraints
import RbaIdp.Db.Integrity
import RbaIdp.Effects.Seeding

/-!
# What the seed adds

`Grown` says of two directories that the second has the rows of the first and
rows that the seed has entries for; every run of the seed grows its directory.
What the entries say about each other is evaluated once: every entry comes after
the entries of the rows it names, and an id or a name stands for one entry.
-/

namespace RbaIdp

open Relational Program

/-! ## The entries -/

/-- A row, as other entries name it. -/
inductive SeedName where
  | tenant (tenantId : String)
  | application (applicationId : String)
  | applicationOf (applicationId tenantId : String)
  | permission (applicationId : String) (s : Scope)
  | role (roleId tenantId : String)
  | roleOn (roleId tenantId applicationId : String)
  | group (groupId tenantId : String)
deriving DecidableEq

namespace SeedRow

def gives : SeedRow → List SeedName
  | tenant tenantId => [.tenant tenantId]
  | application applicationId tenantId =>
      [.application applicationId, .applicationOf applicationId tenantId]
  | permission applicationId s => [.permission applicationId s]
  | role roleId tenantId applicationId _ =>
      [.role roleId tenantId, .roleOn roleId tenantId applicationId]
  | group groupId tenantId _ => [.group groupId tenantId]
  | _ => []

def needs : SeedRow → List SeedName
  | tenant _ => []
  | logo tenantId | domain _ tenantId | application _ tenantId | anchors tenantId
  | group _ tenantId _ | user tenantId _ _ _ => [.tenant tenantId]
  | redirect applicationId | permission applicationId _ => [.application applicationId]
  | role _ tenantId applicationId _ => [.tenant tenantId, .applicationOf applicationId tenantId]
  | rolePermission roleId tenantId applicationId s =>
      [.roleOn roleId tenantId applicationId, .permission applicationId s]
  | groupRole groupId roleId tenantId => [.group groupId tenantId, .role roleId tenantId]
  | membership tenantId _ _ groupId => [.group groupId tenantId]

/-! The columns of the entries of a table. -/

def application? : SeedRow → Option (String × String)
  | application applicationId tenantId => some (applicationId, tenantId)
  | _ => none

def permission? : SeedRow → Option (String × String)
  | permission applicationId s => some (permissionId applicationId s, applicationId)
  | _ => none

def role? : SeedRow → Option (String × String × String × String)
  | role roleId tenantId applicationId name => some (roleId, tenantId, applicationId, name)
  | _ => none

def group? : SeedRow → Option (String × String × String)
  | group groupId tenantId name => some (groupId, tenantId, name)
  | _ => none

end SeedRow

theorem needsFirst_seedRows : needsFirst SeedRow.gives SeedRow.needs [] seedRows = true := by
  decide +kernel

/-- The tables of the entries have the keys of the tables of the database. -/
structure SeedKeys : Prop where
  applications : ((seedRows.filterMap SeedRow.application?).map Prod.fst).Nodup
  permissions : ((seedRows.filterMap SeedRow.permission?).map Prod.fst).Nodup
  roles : ((seedRows.filterMap SeedRow.role?).map Prod.fst).Nodup
  roleNames : ((seedRows.filterMap SeedRow.role?).map fun r => r.2.2).Nodup
  groups : ((seedRows.filterMap SeedRow.group?).map Prod.fst).Nodup
  groupNames : ((seedRows.filterMap SeedRow.group?).map Prod.snd).Nodup

theorem seedKeys : SeedKeys := by constructor <;> decide +kernel

/-- There is an entry for the row. -/
def SeedName.Stands (ns : List SeedRow) : SeedName → Prop
  | tenant tenantId => .tenant tenantId ∈ ns
  | application applicationId => ∃ tenantId, .application applicationId tenantId ∈ ns
  | applicationOf applicationId tenantId => .application applicationId tenantId ∈ ns
  | permission applicationId s => .permission applicationId s ∈ ns
  | role roleId tenantId => ∃ applicationId name, .role roleId tenantId applicationId name ∈ ns
  | roleOn roleId tenantId applicationId => ∃ name, .role roleId tenantId applicationId name ∈ ns
  | group groupId tenantId => ∃ name, .group groupId tenantId name ∈ ns

section Entries

variable {n n' : SeedRow} {m : SeedName} {before after : List SeedRow}

theorem stands_of_gives (hn : n ∈ before) (hm : m ∈ n.gives) : m.Stands before := by
  cases n <;> simp only [SeedRow.gives, List.mem_cons, List.not_mem_nil, or_false] at hm
  case tenant | permission =>
    subst hm
    exact hn
  case group =>
    subst hm
    exact ⟨_, hn⟩
  case application =>
    rcases hm with rfl | rfl
    · exact ⟨_, hn⟩
    · exact hn
  case role =>
    rcases hm with rfl | rfl
    · exact ⟨_, _, hn⟩
    · exact ⟨_, hn⟩

/-- What an entry needs has an entry before it. -/
theorem stands_of_split (hsplit : seedRows = before ++ n :: after) (hm : m ∈ n.needs) :
    m.Stands before := by
  have horder := needsFirst_seedRows
  rw [hsplit] at horder
  obtain ⟨b, hb, hgives⟩ := (mem_of_needsFirst horder hm).resolve_left List.not_mem_nil
  exact stands_of_gives hb hgives

theorem SeedName.Stands.mono (h : m.Stands before) (hsub : before ⊆ after) : m.Stands after := by
  cases m with
  | tenant | applicationOf | permission => exact hsub h
  | application | roleOn | group => exact h.imp fun _ h => hsub h
  | role =>
      obtain ⟨applicationId, name, h⟩ := h
      exact ⟨applicationId, name, hsub h⟩

theorem stands_of_mem (hn : n ∈ seedRows) (hm : m ∈ n.needs) : m.Stands seedRows := by
  obtain ⟨before, after, hsplit⟩ := List.append_of_mem hn
  refine (stands_of_split hsplit hm).mono ?_
  rw [hsplit]
  exact List.subset_append_left _ _

/-- A key stands for one entry of its table. -/
theorem entry_eq {α κ : Type} {f : SeedRow → Option α} {key : α → κ} {a a' : α}
    (hkeys : ((seedRows.filterMap f).map key).Nodup) (hn : n ∈ seedRows) (hn' : n' ∈ seedRows)
    (ha : f n = some a) (ha' : f n' = some a') (heq : key a = key a') : a = a' :=
  List.inj_on_of_nodup_map hkeys (List.mem_filterMap.mpr ⟨n, hn, ha⟩)
    (List.mem_filterMap.mpr ⟨n', hn', ha'⟩) heq

end Entries

/-! ## Growth -/

/-- What a directory has more than another are rows that the seed has entries for. -/
structure Grown (env : Env) (before after : Directory) : Prop where
  tenants : ∀ t ∈ after.tenants, (before.tenants.get t.tenantId).isSome ∨
    .tenant t.tenantId ∈ seedRows
  applications : ∀ a ∈ after.applications,
    before.applicationTenant a.applicationId = some a.tenantId ∨
      .application a.applicationId a.tenantId ∈ seedRows
  permissions : ∀ p ∈ after.permissions, p ∈ before.permissions ∨
    ∃ s, .permission p.applicationId s ∈ seedRows ∧ p.permissionId = permissionId p.applicationId s
  users : ∀ u ∈ after.users, u ∈ before.users ∨
    ∃ email, .user u.tenantId u.userId email u.isAdmin ∈ seedRows ∧
      u.email = env.lib.lower (strip email)
  groups : ∀ g ∈ after.groups, g ∈ before.groups ∨ .group g.groupId g.tenantId g.name ∈ seedRows
  roles : ∀ r ∈ after.roles, r ∈ before.roles ∨
    .role r.roleId r.tenantId r.applicationId r.name ∈ seedRows
  memberships : ∀ m ∈ after.groupMemberships, m ∈ before.groupMemberships ∨
    ∃ tenantId email row, .membership tenantId m.userId email m.groupId ∈ seedRows ∧
      addressee env after tenantId email = some row ∧ row.userId = m.userId
  groupRoles : ∀ gr ∈ after.groupRoles, gr ∈ before.groupRoles ∨
    ∃ tenantId, .groupRole gr.groupId gr.roleId tenantId ∈ seedRows
  rolePermissions : ∀ rp ∈ after.rolePermissions, rp ∈ before.rolePermissions ∨
    ∃ tenantId applicationId s, .rolePermission rp.roleId tenantId applicationId s ∈ seedRows ∧
      rp.permissionId = permissionId applicationId s

/-- The rows of a directory that the seed may write about are in another. -/
structure Kept (before after : Directory) : Prop where
  groups : ∀ g ∈ before.groups, g ∈ after.groups
  roles : ∀ r ∈ before.roles, r ∈ after.roles
  memberships : ∀ m ∈ before.groupMemberships, m ∈ after.groupMemberships

variable {env : Env} {d : Draws} {before db : Directory} {n : SeedRow} {w : DirectoryWrite}

theorem grown_refl (db : Directory) : Grown env db db where
  tenants t ht := Or.inl (by simp [Table.get_of_mem ht])
  applications a ha := Or.inl (by simp [Directory.applicationTenant, Table.get_of_mem ha])
  permissions _ hp := Or.inl hp
  users _ hu := Or.inl hu
  groups _ hg := Or.inl hg
  roles _ hr := Or.inl hr
  memberships _ hm := Or.inl hm
  groupRoles _ hgr := Or.inl hgr
  rolePermissions _ hrp := Or.inl hrp

theorem tenantIds_effect {t : Tenant} (h : t ∈ (w.effect db).tenants) :
    (∃ old ∈ db.tenants, old.tenantId = t.tenantId) ∨ w = .insertTenant t := by
  cases w with
  | insertTenant row =>
      exact (Table.mem_or_eq_of_mem_insert h).imp (fun hold => ⟨t, hold, rfl⟩)
        fun heq => by rw [heq]
  | setTenantName | setTenantBranding | setTenantLogo | setTenantAnchors =>
      simp only [DirectoryWrite.effect, Directory.updateTenant, Table.mem_modify] at h
      obtain ⟨old, hold, rfl⟩ := h
      exact Or.inl ⟨old, hold, by split <;> rfl⟩
  | _ => exact Or.inl ⟨t, h, rfl⟩

/-- One statement of the seed. -/
theorem grown_step (hn : n ∈ seedRows) (hw : n.Writes env db w) (h : Grown env before db) :
    Grown env before (w.effect db) := by
  constructor
  case tenants =>
    intro t ht
    rcases tenantIds_effect ht with ⟨old, hold, hid⟩ | rfl
    · rw [← hid]
      exact h.tenants old hold
    · cases hw
      exact Or.inr hn
  case applications =>
    intro a ha
    rcases mem_applications_effect ha with ⟨old, hold, hid, htenant⟩ | rfl
    · rw [← hid, ← htenant]
      exact h.applications old hold
    · cases hw
      exact Or.inr hn
  case permissions =>
    intro p hp
    rcases mem_permissions_effect hp with hold | rfl
    · exact h.permissions p hold
    · cases hw with
      | permission _ hid => exact Or.inr ⟨_, hn, hid⟩
  case users =>
    intro u hu
    cases hw with
    | user row hemail =>
        rcases Table.mem_or_eq_of_mem_insert hu with hold | rfl
        · exact h.users u hold
        · exact Or.inr ⟨_, hn, hemail⟩
    | _ => exact h.users u hu
  case groups =>
    intro g hg
    cases hw with
    | group row =>
        rcases Table.mem_or_eq_of_mem_insert hg with hold | rfl
        · exact h.groups g hold
        · exact Or.inr hn
    | _ => exact h.groups g hg
  case roles =>
    intro r hr
    cases hw with
    | role row =>
        rcases Table.mem_or_eq_of_mem_insert hr with hold | rfl
        · exact h.roles r hold
        · exact Or.inr hn
    | _ => exact h.roles r hr
  case memberships =>
    intro m hm
    rcases mem_groupMemberships_effect hm with hold | rfl
    · refine (h.memberships m hold).imp_right ?_
      rintro ⟨tenantId, email, row, hentry, hrow, hid⟩
      exact ⟨tenantId, email, row, hentry, addressee_effect hw hrow, hid⟩
    · cases hw with
      | membership hrow hid => exact Or.inr ⟨_, _, _, hn, hrow, hid⟩
  case groupRoles =>
    intro gr hgr
    rcases mem_groupRoles_effect hgr with hold | rfl
    · exact h.groupRoles gr hold
    · cases hw
      exact Or.inr ⟨_, hn⟩
  case rolePermissions =>
    intro rp hrp
    rcases mem_rolePermissions_effect hrp with hold | rfl
    · exact h.rolePermissions rp hold
    · cases hw
      exact Or.inr ⟨_, _, _, hn, rfl⟩

theorem kept_step (hw : n.Writes env db w) (h : Kept before db) : Kept before (w.effect db) where
  groups g hg := by
    have hold := h.groups g hg
    cases hw with
    | group => exact Table.mem_insert_of_mem hold
    | _ => exact hold
  roles r hr := by
    have hold := h.roles r hr
    cases hw with
    | role => exact Table.mem_insert_of_mem hold
    | _ => exact hold
  memberships m hm := groupMemberships_seed hw (h.memberships m hm)

/-! ## A run of the seed -/

section Run

variable {start last : Db} {ws : List Write} {ns : List SeedRow}

theorem grown_of_path (path : Path ((seedProvision env).Adds ns) start ws last)
    (hns : ns ⊆ seedRows) : Grown env start.toDirectory last.toDirectory := by
  refine path.invariant (I := fun db => Grown env start.toDirectory db.toDirectory)
    (fun db w hdb hadds _ => ?_) (grown_refl _)
  obtain ⟨n, hn, ⟨edit, rfl, hedit⟩, -⟩ := hadds
  exact grown_step (hns hn) hedit hdb

theorem kept_of_path (path : Path ((seedProvision env).Adds ns) start ws last) :
    Kept start.toDirectory last.toDirectory := by
  refine path.invariant (I := fun db => Kept start.toDirectory db.toDirectory)
    (fun db w hdb hadds _ => ?_) ⟨fun _ h => h, fun _ h => h, fun _ h => h⟩
  obtain ⟨n, -, ⟨edit, rfl, hedit⟩, -⟩ := hadds
  exact kept_step hedit hdb

/-- Where every address of the seed is taken, no user is added. -/
theorem users_of_path (path : Path ((seedProvision env).Adds ns) start ws last)
    (hmet : ∀ tenantId userId email isAdmin, .user tenantId userId email isAdmin ∈ ns →
      SeedRow.Met env start.toDirectory (.user tenantId userId email isAdmin)) :
    last.users = start.users := by
  have hkept : last.users = start.users ∧
      ∀ tenantId userId email isAdmin, .user tenantId userId email isAdmin ∈ ns →
        SeedRow.Met env last.toDirectory (.user tenantId userId email isAdmin) := by
    refine path.invariant (I := fun db => db.users = start.users ∧
      ∀ tenantId userId email isAdmin, .user tenantId userId email isAdmin ∈ ns →
        SeedRow.Met env db.toDirectory (.user tenantId userId email isAdmin))
      (fun db w hdb hadds _ => ?_) ⟨rfl, hmet⟩
    obtain ⟨n, hn, ⟨edit, rfl, hedit⟩, hidle⟩ := hadds
    refine ⟨?_, fun tenantId userId email isAdmin hentry =>
      met_effect (hdb.2 tenantId userId email isAdmin hentry) hedit⟩
    cases hedit with
    | user row hemail => rw [hidle (hdb.2 _ _ _ _ hn), hdb.1]
    | _ => exact hdb.1
  exact hkept.1

/-- What a completed run of the seed has done. -/
structure SeedRun (env : Env) (before after : Db) : Prop where
  met : ∀ n ∈ seedRows, n.Met env after.toDirectory
  named : Named after.toDirectory
  grown : Grown env before.toDirectory after.toDirectory
  kept : Kept before.toDirectory after.toDirectory
  users : (∀ tenantId userId email isAdmin, .user tenantId userId email isAdmin ∈ seedRows →
    SeedRow.Met env before.toDirectory (.user tenantId userId email isAdmin)) →
      after.users = before.users

theorem seedRun_of_ok {t : World} (hnamed : Named start.toDirectory)
    (hrun : (seedIdentity env d).run ⟨start, [], []⟩ = (.ok (), t)) : SeedRun env start t.db := by
  obtain ⟨⟨⟨ws, -, path⟩, hmet⟩, hnamed'⟩ := provides_seed.provided hnamed hrun
  exact ⟨hmet, hnamed', grown_of_path path fun _ h => h, kept_of_path path, users_of_path path⟩

theorem db_of_seed_error {t : World} {e : Failure HTTPException}
    (hrun : (seedIdentity env d).run ⟨start, [], []⟩ = (.error e, t)) : t.db = start := by
  have hwp : (seedIdentity env d).wp (fun _ _ => True) (fun t => t.db = start)
      ⟨start, [], []⟩ := by
    rw [seedIdentity, wp_transaction]
    exact wp_intro (fun _ _ _ => trivial) fun _ _ _ => rfl
  exact wp_of_error hwp hrun

end Run

/-! ## Whose rows stand under the ids of the seed -/

section Owners

variable {after : Directory}

theorem groupTenant_grown (hgrown : Grown env before after) (hkept : Kept before after)
    {groupId tenantId name : String} (hentry : .group groupId tenantId name ∈ seedRows)
    (hmet : (after.groups.get groupId).isSome) :
    after.groupTenant groupId = some ((before.groupTenant groupId).getD tenantId) := by
  obtain ⟨g, hg⟩ := Option.isSome_iff_exists.mp hmet
  obtain rfl : g.groupId = groupId := Table.key_of_get hg
  cases hbefore : before.groups.get g.groupId with
  | some old =>
      have hold := Table.get_of_mem (hkept.groups old (Table.mem_of_get hbefore))
      rw [Table.key_of_get hbefore, hg, Option.some.injEq] at hold
      rw [Directory.groupTenant, Directory.groupTenant, hbefore, hg, hold]
      rfl
  | none =>
      rcases hgrown.groups g (Table.mem_of_get hg) with hold | hadded
      · rw [Table.get_of_mem hold] at hbefore
        cases hbefore
      · have hsame := entry_eq seedKeys.groups hadded hentry rfl rfl rfl
        simp only [Prod.mk.injEq] at hsame
        simp [Directory.groupTenant, hbefore, hg, hsame]

theorem roleOwners_grown (hgrown : Grown env before after) (hkept : Kept before after)
    {roleId tenantId applicationId name : String}
    (hentry : .role roleId tenantId applicationId name ∈ seedRows)
    (hmet : (after.roles.get roleId).isSome) :
    after.roleOwners roleId =
      some ((before.roleOwners roleId).getD (tenantId, applicationId)) := by
  obtain ⟨r, hr⟩ := Option.isSome_iff_exists.mp hmet
  obtain rfl : r.roleId = roleId := Table.key_of_get hr
  cases hbefore : before.roles.get r.roleId with
  | some old =>
      have hold := Table.get_of_mem (hkept.roles old (Table.mem_of_get hbefore))
      rw [Table.key_of_get hbefore, hr, Option.some.injEq] at hold
      rw [Directory.roleOwners, Directory.roleOwners, hbefore, hr, hold]
      rfl
  | none =>
      rcases hgrown.roles r (Table.mem_of_get hr) with hold | hadded
      · rw [Table.get_of_mem hold] at hbefore
        cases hbefore
      · have hsame := entry_eq seedKeys.roles hadded hentry rfl rfl rfl
        simp only [Prod.mk.injEq] at hsame
        simp [Directory.roleOwners, hbefore, hr, hsame]

end Owners

end RbaIdp
