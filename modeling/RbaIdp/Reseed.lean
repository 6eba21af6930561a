import RbaIdp.Effects.Seeded
import RbaIdp.Effects.Standing
import RbaIdp.SelfContained

/-!
# Running the seed again

The seed finds a row by its primary key and takes whatever stands there.  In a
directory that operators have worked on since the first run, a group or a role of
the seed may be gone while its name is taken, and a group or a role under the id
of the seed may be another tenant's.  `Reseedable` says that neither is so where
the seed has something to add; exactly then the seed can be run again
(`reseed_iff`).

`Settled` is the part of a first run that no request undoes.
-/

namespace RbaIdp

open Relational Program

variable {env : Env} {d : Draws}

/-! ## What no request undoes -/

structure Settled (env : Env) (db : Directory) : Prop where
  tenants : ∀ {tenantId}, .tenant tenantId ∈ seedRows → (db.tenants.get tenantId).isSome
  applications : ∀ {applicationId tenantId}, .application applicationId tenantId ∈ seedRows →
    db.applicationTenant applicationId = some tenantId
  permissions : ∀ {applicationId s}, .permission applicationId s ∈ seedRows →
    db.permissionApplication (permissionId applicationId s) = some applicationId
  users : ∀ {tenantId userId email isAdmin}, .user tenantId userId email isAdmin ∈ seedRows →
    (addressee env db tenantId email).isSome

theorem addressee_isSome {db : Directory} {tenantId email : String} :
    (addressee env db tenantId email).isSome ↔
      ∃ u ∈ db.users, u.tenantId = tenantId ∧ u.email = env.lib.lower (strip email) := by
  simp only [addressee, Table.first?, List.find?_isSome, Bool.and_eq_true, beq_iff_eq]
  exact Iff.rfl

/-- Users stay, with their tenants and their addresses. -/
theorem addressee_isSome_effect {db : Directory} {w : DirectoryWrite} {tenantId email : String}
    (h : (addressee env db tenantId email).isSome) :
    (addressee env (w.effect db) tenantId email).isSome := by
  rw [addressee_isSome] at h ⊢
  obtain ⟨u, hu, hat⟩ := h
  cases w with
  | insertUser => exact ⟨u, Table.mem_insert_of_mem hu, hat⟩
  | setUserEnabled | setUserIsAdmin | setUserPasswordHash | setUserAlwaysPasskey
  | setUserLastLogin =>
      simp only [DirectoryWrite.effect, Directory.updateUser, Table.mem_modify]
      refine ⟨_, ⟨u, hu, rfl⟩, ?_⟩
      split
      · exact hat
      · exact hat
  | _ => exact ⟨u, hu, hat⟩

theorem settled_effect {db : Directory} {w : DirectoryWrite} (h : Settled env db) :
    Settled env (w.effect db) where
  tenants hentry := tenants_effect (h.tenants hentry)
  applications hentry := applicationTenant_effect (h.applications hentry)
  permissions hentry := permissionApplication_effect (h.permissions hentry)
  users hentry := addressee_isSome_effect (h.users hentry)

theorem settled_invariant : Invariant Write fun db : Db => Settled env db.toDirectory := by
  rintro w db - h
  cases w with
  | directory w => exact settled_effect h
  | artefact w => exact h

/-- A first run settles the database. -/
theorem settled_of_seedRun {db : Db} (h : SeedRun env Db.empty db) :
    Settled env db.toDirectory where
  tenants hentry := h.met _ hentry
  applications {applicationId tenantId} hentry := by
    obtain ⟨app, happ⟩ := Option.isSome_iff_exists.mp (h.met _ hentry)
    obtain rfl : app.applicationId = applicationId := Table.key_of_get happ
    rcases h.grown.applications app (Table.mem_of_get happ) with hold | hadded
    · cases hold
    · have hsame := entry_eq seedKeys.applications hadded hentry rfl rfl rfl
      simp only [Prod.mk.injEq] at hsame
      simp [Directory.applicationTenant, happ, hsame]
  permissions {applicationId s} hentry := by
    obtain ⟨p, hp⟩ := Option.isSome_iff_exists.mp (h.met _ hentry)
    rcases h.grown.permissions p (Table.mem_of_get hp) with hold | ⟨s', hadded, hid⟩
    · exact absurd hold (Table.not_mem_empty _)
    · have hkey : p.permissionId = permissionId applicationId s := Table.key_of_get hp
      have hsame := entry_eq seedKeys.permissions hadded hentry rfl rfl (hid.symm.trans hkey)
      simp only [Prod.mk.injEq] at hsame
      simp [Directory.permissionApplication, hp, hsame]
  users hentry := h.met _ hentry

/-! Every application keeps a client id. -/

theorem named_after {s : Served} (h : Prepared s.before) : Prepared (s.after env) := by
  refine Served.after_of_names (fun w db hw hnamed => ?_) h
  cases w with
  | directory w =>
      refine named_effect ?_ hnamed
      rintro row rfl
      exact hw
  | artefact w => exact hnamed

/-- What is known of the database after a first run of the seed and any requests. -/
structure Reached (env : Env) (db : Db) : Prop where
  settled : Settled env db.toDirectory
  named : Named db.toDirectory
  constraints : Constraints db.toDirectory

variable (env d) in
/-- The database after a run of the seed. -/
def reseeded (db : Db) : Db := ((seedIdentity env d).run ⟨db, [], []⟩).2.db

theorem seedRun_reseeded {db : Db} (hnamed : Prepared db)
    (hok : ((seedIdentity env d).run ⟨db, [], []⟩).1 = .ok ()) :
    SeedRun env db (reseeded env d db) := by
  unfold reseeded
  rcases hrun : (seedIdentity env d).run ⟨db, [], []⟩ with ⟨result, t⟩
  rw [hrun] at hok
  have hresult : result = .ok () := hok
  rw [hresult] at hrun
  exact seedRun_of_ok hnamed hrun

theorem seedRun_seeded {seed : Draws}
    (hseed : ((seedIdentity env seed).run ⟨Db.empty, [], []⟩).1 = .ok ()) :
    SeedRun env Db.empty (seeded env seed) :=
  seedRun_reseeded (fun _ happ => absurd happ (Table.not_mem_empty _)) hseed

theorem constraints_seeded (env : Env) (d : Draws) : Constraints (seeded env d).toDirectory := by
  unfold seeded
  exact run_invariant (I := fun db => Constraints db.toDirectory) constraints_invariant
    (seedIdentity env d) (t := ⟨Db.empty, [], []⟩) constraints_empty

theorem reached_seeded {seed : Draws}
    (hseed : ((seedIdentity env seed).run ⟨Db.empty, [], []⟩).1 = .ok ()) :
    Reached env (seeded env seed) where
  settled := settled_of_seedRun (seedRun_seeded hseed)
  named := (seedRun_seeded hseed).named
  constraints := constraints_seeded env seed

theorem reached_after {s : Served} (h : Reached env s.before) : Reached env (s.after env) where
  settled := commit_invariant (I := fun db : Db => Settled env db.toDirectory) settled_invariant
    (s.commit_writes env) h.settled
  named := named_after h.named
  constraints := commit_invariant (I := fun db : Db => Constraints db.toDirectory)
    constraints_invariant (s.commit_writes env) h.constraints

theorem reached_of_run {seed : Draws} {hist : List Served} {db : Db}
    (hseed : ((seedIdentity env seed).run ⟨Db.empty, [], []⟩).1 = .ok ())
    (run : Run env (seeded env seed) hist db) : Reached env db :=
  run.invariant (fun _ h => reached_after h) (reached_seeded hseed)

/-! ## When the seed completes -/

/-- The names of the groups and roles that are missing are free. -/
structure NamesFree (db : Directory) : Prop where
  groups : ∀ {groupId tenantId name}, .group groupId tenantId name ∈ seedRows →
    db.groups.get groupId = none → ∀ g ∈ db.groups, ¬ (g.tenantId = tenantId ∧ g.name = name)
  roles : ∀ {roleId tenantId applicationId name},
    .role roleId tenantId applicationId name ∈ seedRows → db.roles.get roleId = none →
      ∀ r ∈ db.roles, ¬ (r.applicationId = applicationId ∧ r.name = name)

section Completes

variable {db : Db}

/-- A name that was free is free for the entry it belongs to, whatever the entries
before it have added. -/
theorem groupName_free {start : Directory} {db : Directory} (hgrown : Grown env start db)
    (hkept : Kept start db) (hfree : NamesFree start) {groupId tenantId name : String}
    (hentry : .group groupId tenantId name ∈ seedRows) (hmissing : db.groups.get groupId = none) :
    ∀ g ∈ db.groups, ¬ (g.tenantId = tenantId ∧ g.name = name) := by
  rintro g hg ⟨rfl, rfl⟩
  rcases hgrown.groups g hg with hold | hadded
  · refine hfree.groups hentry (Table.get_eq_none.mpr fun g' hg' hid => ?_) g hold ⟨rfl, rfl⟩
    exact Table.get_eq_none.mp hmissing g' (hkept.groups g' hg') hid
  · have hsame := entry_eq seedKeys.groupNames hadded hentry rfl rfl rfl
    simp only [Prod.mk.injEq] at hsame
    exact Table.get_eq_none.mp hmissing g hg hsame.1

theorem roleName_free {start : Directory} {db : Directory} (hgrown : Grown env start db)
    (hkept : Kept start db) (hfree : NamesFree start)
    {roleId tenantId applicationId name : String}
    (hentry : .role roleId tenantId applicationId name ∈ seedRows)
    (hmissing : db.roles.get roleId = none) :
    ∀ r ∈ db.roles, ¬ (r.applicationId = applicationId ∧ r.name = name) := by
  rintro r hr ⟨rfl, rfl⟩
  rcases hgrown.roles r hr with hold | hadded
  · refine hfree.roles hentry (Table.get_eq_none.mpr fun r' hr' hid => ?_) r hold ⟨rfl, rfl⟩
    exact Table.get_eq_none.mp hmissing r' (hkept.roles r' hr') hid
  · have hsame := entry_eq seedKeys.roleNames hadded hentry rfl rfl rfl
    simp only [Prod.mk.injEq] at hsame
    exact Table.get_eq_none.mp hmissing r hr hsame.1

theorem isSome_of_map {α β : Type} {o : Option α} {f : α → β} {b : β} (h : o.map f = some b) :
    o.isSome := by
  obtain ⟨a, rfl, -⟩ := Option.map_eq_some_iff.mp h
  rfl

/-- A statement for a missing entry is accepted where the entries before it are there. -/
theorem accepted_of_free {start : Directory} {db : Directory} {before after : List SeedRow}
    {n : SeedRow} {w : DirectoryWrite} (hsettled : Settled env db) (hgrown : Grown env start db)
    (hkept : Kept start db) (hfree : NamesFree start) (hsplit : seedRows = before ++ n :: after)
    (hmet : ∀ b ∈ before, b.Met env db) (hmissing : ¬ n.Met env db) (hw : n.Writes env db w) :
    w.violates db = false := by
  have hn : n ∈ seedRows := by simp [hsplit]
  have htenant : ∀ {tenantId}, .tenant tenantId ∈ n.needs → (db.tenants.get tenantId).isSome :=
    fun hneeds => hsettled.tenants (stands_of_mem hn hneeds)
  have happlication : ∀ {applicationId}, .application applicationId ∈ n.needs →
      (db.applications.get applicationId).isSome := by
    intro applicationId hneeds
    obtain ⟨tenantId, hentry⟩ := stands_of_mem hn hneeds
    exact isSome_of_map (hsettled.applications hentry)
  have hgroup : ∀ {groupId tenantId}, .group groupId tenantId ∈ n.needs →
      (db.groups.get groupId).isSome := by
    intro groupId tenantId hneeds
    obtain ⟨name, hentry⟩ := stands_of_split hsplit hneeds
    exact hmet _ hentry
  cases hw with
  | tenant => exact absurd (hsettled.tenants hn) hmissing
  | logo | anchors => simp [DirectoryWrite.violates, htenant (List.mem_singleton.mpr rfl)]
  | @domain name tenantId =>
      have hnone : db.tenantDomains.get name = none := by simpa [SeedRow.Met] using hmissing
      have hthere : (db.tenants.get tenantId).isSome := htenant (List.mem_singleton.mpr rfl)
      simp [DirectoryWrite.violates, hnone, hthere]
  | application row => exact absurd (isSome_of_map (hsettled.applications hn)) hmissing
  | redirect => simp [DirectoryWrite.violates, happlication (List.mem_singleton.mpr rfl)]
  | permission row hid =>
      have hthere := isSome_of_map (hsettled.permissions hn)
      exact absurd hthere hmissing
  | role row =>
      have hnone : db.roles.get row.roleId = none := by simpa [SeedRow.Met] using hmissing
      have hthere : (db.tenants.get row.tenantId).isSome := htenant (List.mem_cons_self ..)
      have happ : SeedRow.application row.applicationId row.tenantId ∈ seedRows :=
        stands_of_mem hn (m := .applicationOf _ _) (by simp [SeedRow.needs])
      have hname := roleName_free hgrown hkept hfree hn hnone
      simpa [DirectoryWrite.violates, hnone, hthere, Table.exists?_eq_false,
        isSome_of_map (hsettled.applications happ)] using hname
  | @rolePermission roleId tenantId applicationId s =>
      obtain ⟨name, hrole⟩ := stands_of_split hsplit
        (m := .roleOn roleId tenantId applicationId) (List.mem_cons_self ..)
      have hpermission : .permission applicationId s ∈ seedRows :=
        stands_of_mem hn (m := .permission _ _) (by simp [SeedRow.needs])
      have hnone := mt (Table.mem_iff_get_ne_none RolePermission.key_injective).mpr hmissing
      have hthere : (db.roles.get roleId).isSome := hmet _ hrole
      simp [DirectoryWrite.violates, not_not.mp hnone, hthere,
        isSome_of_map (hsettled.permissions hpermission)]
  | group row =>
      have hnone : db.groups.get row.groupId = none := by simpa [SeedRow.Met] using hmissing
      have hthere : (db.tenants.get row.tenantId).isSome := htenant (List.mem_singleton.mpr rfl)
      have hname := groupName_free hgrown hkept hfree hn hnone
      simpa [DirectoryWrite.violates, hnone, hthere, Table.exists?_eq_false] using hname
  | @groupRole groupId roleId tenantId =>
      obtain ⟨applicationId, name, hrole⟩ := stands_of_split hsplit
        (m := .role roleId tenantId) (by simp [SeedRow.needs])
      have hnone := mt (Table.mem_iff_get_ne_none GroupRole.key_injective).mpr hmissing
      have hthere : (db.roles.get roleId).isSome := hmet _ hrole
      have hgroupThere : (db.groups.get groupId).isSome := hgroup (List.mem_cons_self ..)
      simp [DirectoryWrite.violates, not_not.mp hnone, hthere, hgroupThere]
  | user row hemail => exact absurd (hsettled.users hn) hmissing
  | @membership tenantId userId email groupId row hrow hid =>
      have hnone := mt (Table.mem_iff_get_ne_none (r := ⟨groupId, userId⟩)
        GroupMembership.key_injective).mpr fun hmember => hmissing ⟨row, hrow, fun _ => hmember⟩
      have hthere : (db.groups.get groupId).isSome := hgroup (List.mem_singleton.mpr rfl)
      have huser : db.users.get userId = some row := by
        rw [← hid]
        exact Table.get_of_mem (Table.first?_eq_some hrow).1
      simp [DirectoryWrite.violates, not_not.mp hnone, hthere, huser]

/-- Where the names are free, the seed completes. -/
theorem seed_completes (h : Reached env db) (hfree : NamesFree db.toDirectory) :
    ((seedIdentity env d).run ⟨db, [], []⟩).1 = .ok () := by
  obtain ⟨a, t, hrun⟩ := provides_seed.returns (t := ⟨db, [], []⟩) h.named
    fun before n after hsplit u w hu hmissing hwrites => by
      obtain ⟨edit, rfl, hedit⟩ := hwrites
      obtain ⟨⟨ws, -, path⟩, hmet⟩ := hu
      have hsub : before ⊆ seedRows := by
        rw [hsplit]
        exact List.subset_append_left _ _
      have hsettled : Settled env u.db.toDirectory :=
        path.invariant (I := fun db => Settled env db.toDirectory)
          (fun db w hdb _ haccepted => settled_invariant w db haccepted hdb) h.settled
      exact accepted_of_free hsettled (grown_of_path path hsub) (kept_of_path path) hfree hsplit
        hmet hmissing hedit
  rw [hrun]

/-- Where it completes, they were. -/
theorem namesFree_of_seedRun {after : Db} (hunique : Constraints after.toDirectory)
    (h : SeedRun env db after) : NamesFree db.toDirectory where
  groups {groupId tenantId name} hentry hmissing g hg := by
    rintro ⟨rfl, rfl⟩
    obtain ⟨new, hnew⟩ := Option.isSome_iff_exists.mp (h.met _ hentry)
    obtain rfl : new.groupId = groupId := Table.key_of_get hnew
    rcases h.grown.groups new (Table.mem_of_get hnew) with hold | hadded
    · exact Table.get_eq_none.mp hmissing new hold rfl
    · have hsame := entry_eq seedKeys.groups hadded hentry rfl rfl rfl
      simp only [Prod.mk.injEq, true_and] at hsame
      have heq := hunique.groups new (Table.mem_of_get hnew) g (h.kept.groups g hg)
        (by simp [hsame])
      rw [heq] at hmissing
      exact Table.get_eq_none.mp hmissing g hg rfl
  roles {roleId tenantId applicationId name} hentry hmissing r hr := by
    rintro ⟨rfl, rfl⟩
    obtain ⟨new, hnew⟩ := Option.isSome_iff_exists.mp (h.met _ hentry)
    obtain rfl : new.roleId = roleId := Table.key_of_get hnew
    rcases h.grown.roles new (Table.mem_of_get hnew) with hold | hadded
    · exact Table.get_eq_none.mp hmissing new hold rfl
    · have hsame := entry_eq seedKeys.roles hadded hentry rfl rfl rfl
      simp only [Prod.mk.injEq, true_and] at hsame
      have heq := hunique.roles new (Table.mem_of_get hnew) r (h.kept.roles r hr)
        (by simp [hsame])
      rw [heq] at hmissing
      exact Table.get_eq_none.mp hmissing r hr rfl

end Completes

/-! ## What it adds -/

/-- No edge that a directory has more than another crosses a tenant or an application. -/
structure AddsOwned (before after : Directory) : Prop where
  memberships : ∀ m ∈ after.groupMemberships, m ∉ before.groupMemberships → ∃ tenantId,
    after.groupTenant m.groupId = some tenantId ∧ after.userTenant m.userId = some tenantId
  groupRoles : ∀ gr ∈ after.groupRoles, gr ∉ before.groupRoles → ∃ tenantId applicationId,
    after.groupTenant gr.groupId = some tenantId ∧
      after.roleOwners gr.roleId = some (tenantId, applicationId)
  rolePermissions : ∀ rp ∈ after.rolePermissions, rp ∉ before.rolePermissions →
    ∃ tenantId applicationId, after.roleOwners rp.roleId = some (tenantId, applicationId) ∧
      after.permissionApplication rp.permissionId = some applicationId ∧
        after.applicationTenant applicationId = some tenantId

/-- Where an edge of the seed is missing, the rows under its ids belong together; a row
that is missing counts as the seed's. -/
structure EdgesFree (env : Env) (db : Directory) : Prop where
  memberships : ∀ {tenantId userId email groupId row},
    .membership tenantId userId email groupId ∈ seedRows →
      addressee env db tenantId email = some row → row.userId = userId →
        ⟨groupId, userId⟩ ∉ db.groupMemberships →
          (db.groupTenant groupId).getD tenantId = tenantId
  groupRoles : ∀ {groupId roleId tenantId}, .groupRole groupId roleId tenantId ∈ seedRows →
    ⟨groupId, roleId⟩ ∉ db.groupRoles →
      (db.groupTenant groupId).getD tenantId =
        ((db.roleOwners roleId).map Prod.fst).getD tenantId
  rolePermissions : ∀ {roleId tenantId applicationId s},
    .rolePermission roleId tenantId applicationId s ∈ seedRows →
      ⟨roleId, permissionId applicationId s⟩ ∉ db.rolePermissions →
        (db.roleOwners roleId).getD (tenantId, applicationId) = (tenantId, applicationId)

section Edges

variable {before after : Db}

theorem membership_owners (hbefore : Settled env before.toDirectory)
    (h : SeedRun env before after) {tenantId userId email groupId : String} {row : User}
    (hentry : .membership tenantId userId email groupId ∈ seedRows)
    (hrow : addressee env before.toDirectory tenantId email = some row)
    (hid : row.userId = userId) :
    after.groupTenant groupId = some ((before.groupTenant groupId).getD tenantId) ∧
      after.userTenant userId = some tenantId := by
  obtain ⟨name, hgroup⟩ := stands_of_mem hentry (List.mem_singleton.mpr rfl)
  refine ⟨groupTenant_grown h.grown h.kept hgroup (h.met _ hgroup), ?_⟩
  obtain ⟨hmem, hat⟩ := Table.first?_eq_some hrow
  simp only [Bool.and_eq_true, beq_iff_eq] at hat
  rw [Directory.userTenant, h.users fun _ _ _ _ hentry => hbefore.users hentry, ← hid,
    Table.get_of_mem hmem, Option.map_some, hat.1]

theorem groupRole_owners (h : SeedRun env before after) {groupId roleId tenantId : String}
    (hentry : .groupRole groupId roleId tenantId ∈ seedRows) :
    ∃ applicationId,
      after.groupTenant groupId = some ((before.groupTenant groupId).getD tenantId) ∧
        after.roleOwners roleId =
          some (((before.roleOwners roleId).map Prod.fst).getD tenantId, applicationId) := by
  obtain ⟨name, hgroup⟩ :=
    stands_of_mem hentry (m := .group groupId tenantId) (List.mem_cons_self ..)
  obtain ⟨applicationId, name, hrole⟩ :=
    stands_of_mem hentry (m := .role roleId tenantId) (by simp [SeedRow.needs])
  refine ⟨((before.roleOwners roleId).getD (tenantId, applicationId)).2,
    groupTenant_grown h.grown h.kept hgroup (h.met _ hgroup), ?_⟩
  rw [roleOwners_grown h.grown h.kept hrole (h.met _ hrole)]
  cases before.roleOwners roleId with
  | none => rfl
  | some owners => rfl

theorem rolePermission_owners (hafter : Settled env after.toDirectory)
    (h : SeedRun env before after) {roleId tenantId applicationId : String} {s : Scope}
    (hentry : .rolePermission roleId tenantId applicationId s ∈ seedRows) :
    after.roleOwners roleId =
        some ((before.roleOwners roleId).getD (tenantId, applicationId)) ∧
      after.permissionApplication (permissionId applicationId s) = some applicationId ∧
        after.applicationTenant applicationId = some tenantId := by
  obtain ⟨name, hrole⟩ := stands_of_mem hentry (m := .roleOn roleId tenantId applicationId)
    (List.mem_cons_self ..)
  have hpermission : .permission applicationId s ∈ seedRows :=
    stands_of_mem hentry (m := .permission _ _) (by simp [SeedRow.needs])
  have happ : SeedRow.application applicationId tenantId ∈ seedRows :=
    stands_of_mem hrole (m := .applicationOf _ _) (by simp [SeedRow.needs])
  exact ⟨roleOwners_grown h.grown h.kept hrole (h.met _ hrole), hafter.permissions hpermission,
    hafter.applications happ⟩

theorem addsOwned_iff (hbefore : Settled env before.toDirectory)
    (hafter : Settled env after.toDirectory) (h : SeedRun env before after) :
    AddsOwned before.toDirectory after.toDirectory ↔ EdgesFree env before.toDirectory := by
  have hsame : after.users = before.users := h.users fun _ _ _ _ hentry => hbefore.users hentry
  have haddressee : ∀ tenantId email, addressee env after.toDirectory tenantId email =
      addressee env before.toDirectory tenantId email := by
    intro tenantId email
    rw [addressee, hsame]
    rfl
  constructor
  · intro howned
    constructor
    case memberships =>
      intro tenantId userId email groupId row hentry hrow hid hmissing
      obtain ⟨hgroup, huser⟩ := membership_owners hbefore h hentry hrow hid
      obtain ⟨row', hrow', hmember⟩ := h.met _ hentry
      rw [haddressee, hrow, Option.some.injEq] at hrow'
      obtain ⟨owner, hgroup', huser'⟩ :=
        howned.memberships _ (hmember (by rw [← hrow']; exact hid)) hmissing
      rw [huser, Option.some.injEq] at huser'
      rw [hgroup, Option.some.injEq] at hgroup'
      rw [hgroup', huser']
    case groupRoles =>
      intro groupId roleId tenantId hentry hmissing
      obtain ⟨applicationId, hgroup, hrole⟩ := groupRole_owners h hentry
      obtain ⟨owner, _, hgroup', hrole'⟩ := howned.groupRoles _ (h.met _ hentry) hmissing
      rw [hgroup, Option.some.injEq] at hgroup'
      rw [hrole, Option.some.injEq, Prod.mk.injEq] at hrole'
      rw [hgroup', hrole'.1]
    case rolePermissions =>
      intro roleId tenantId applicationId s hentry hmissing
      obtain ⟨hrole, hpermission, happ⟩ := rolePermission_owners hafter h hentry
      obtain ⟨tenantId', applicationId', hrole', hpermission', happ'⟩ :=
        howned.rolePermissions _ (h.met _ hentry) hmissing
      rw [hpermission, Option.some.injEq] at hpermission'
      rw [← hpermission', happ, Option.some.injEq] at happ'
      rw [hrole, Option.some.injEq] at hrole'
      rw [hrole', ← happ', ← hpermission']
  · intro hfree
    constructor
    case memberships =>
      rintro ⟨groupId, userId⟩ hm hnew
      obtain ⟨tenantId, email, row, hentry, hrow, hid⟩ :=
        (h.grown.memberships _ hm).resolve_left hnew
      rw [haddressee] at hrow
      obtain ⟨hgroup, huser⟩ := membership_owners hbefore h hentry hrow hid
      rw [hfree.memberships hentry hrow hid hnew] at hgroup
      exact ⟨tenantId, hgroup, huser⟩
    case groupRoles =>
      rintro ⟨groupId, roleId⟩ hgr hnew
      obtain ⟨tenantId, hentry⟩ := (h.grown.groupRoles _ hgr).resolve_left hnew
      obtain ⟨applicationId, hgroup, hrole⟩ := groupRole_owners h hentry
      rw [hfree.groupRoles hentry hnew] at hgroup
      exact ⟨_, applicationId, hgroup, hrole⟩
    case rolePermissions =>
      rintro ⟨roleId, pid⟩ hrp hnew
      obtain ⟨tenantId, applicationId, s, hentry, rfl⟩ :=
        (h.grown.rolePermissions _ hrp).resolve_left hnew
      obtain ⟨hrole, hpermission, happ⟩ := rolePermission_owners hafter h hentry
      rw [hfree.rolePermissions hentry hnew] at hrole
      exact ⟨tenantId, applicationId, hrole, hpermission, happ⟩

end Edges

/-! ## From every reachable directory -/

/-- Running the seed again completes, a further run changes nothing, and no edge it
adds crosses a tenant or an application. -/
structure ReseedSafe (env : Env) (d : Draws) (db : Db) : Prop where
  completes : ((seedIdentity env d).run ⟨db, [], []⟩).1 = .ok ()
  idempotent : ∀ d', ((seedIdentity env d').run ⟨reseeded env d db, [], []⟩).1 = .ok () ∧
    reseeded env d' (reseeded env d db) = reseeded env d db
  owned : AddsOwned db.toDirectory (reseeded env d db).toDirectory

structure Reseedable (env : Env) (db : Directory) : Prop where
  names : NamesFree db
  edges : EdgesFree env db

/-- What a further run of the seed asks of an entry. -/
def SeedRow.Able (env : Env) (db : Directory) : SeedRow → Prop
  | .group groupId tenantId name => db.groups.get groupId = none →
      ∀ g ∈ db.groups.rows, ¬ (g.tenantId = tenantId ∧ g.name = name)
  | .role roleId _ applicationId name => db.roles.get roleId = none →
      ∀ r ∈ db.roles.rows, ¬ (r.applicationId = applicationId ∧ r.name = name)
  | .membership tenantId userId email groupId => ∀ row ∈ addressee env db tenantId email,
      row.userId = userId → ⟨groupId, userId⟩ ∉ db.groupMemberships.rows →
        (db.groupTenant groupId).getD tenantId = tenantId
  | .groupRole groupId roleId tenantId => ⟨groupId, roleId⟩ ∉ db.groupRoles.rows →
      (db.groupTenant groupId).getD tenantId =
        ((db.roleOwners roleId).map Prod.fst).getD tenantId
  | .rolePermission roleId tenantId applicationId s =>
      ⟨roleId, permissionId applicationId s⟩ ∉ db.rolePermissions.rows →
        (db.roleOwners roleId).getD (tenantId, applicationId) = (tenantId, applicationId)
  | _ => True

instance (env : Env) (db : Directory) : DecidablePred (SeedRow.Able env db)
  | .group .. | .role .. | .groupRole .. | .rolePermission .. => inferInstanceAs (Decidable (_ → _))
  | .membership .. => inferInstanceAs (Decidable (∀ _ ∈ _, _ → _))
  | .tenant .. | .logo .. | .domain .. | .application .. | .redirect .. | .permission ..
  | .anchors .. | .user .. => isTrue trivial

theorem reseedable_iff {db : Directory} :
    Reseedable env db ↔ ∀ entry ∈ seedRows, entry.Able env db := by
  constructor
  · rintro ⟨⟨hgroups, hroles⟩, ⟨hmemberships, hgroupRoles, hrolePermissions⟩⟩ entry hentry
    cases entry with
    | group => exact hgroups hentry
    | role => exact hroles hentry
    | membership => exact fun row hrow => hmemberships hentry hrow
    | groupRole => exact hgroupRoles hentry
    | rolePermission => exact hrolePermissions hentry
    | _ => trivial
  · intro h
    exact ⟨⟨fun hentry => h _ hentry, fun hentry => h _ hentry⟩,
      ⟨fun hentry hrow => h _ hentry _ hrow, fun hentry => h _ hentry, fun hentry => h _ hentry⟩⟩

instance (env : Env) (db : Directory) : Decidable (Reseedable env db) :=
  decidable_of_iff _ reseedable_iff.symm

/-- A run that fails is rolled back. -/
theorem reseeded_of_error {db : Db} {e : Failure HTTPException} {t : World}
    (hrun : (seedIdentity env d).run ⟨db, [], []⟩ = (.error e, t)) : reseeded env d db = db := by
  rw [reseeded, hrun]
  exact db_of_seed_error hrun

/-- A second run finds every entry there. -/
theorem reseed_idempotent {db : Db} {d' : Draws} (h : SeedRun env db (reseeded env d db)) :
    ((seedIdentity env d').run ⟨reseeded env d db, [], []⟩).1 = .ok () ∧
      reseeded env d' (reseeded env d db) = reseeded env d db := by
  obtain ⟨a, t, hrun, hdb⟩ :=
    (provides_seed (d := d')).idle (t := ⟨reseeded env d db, [], []⟩) h.named h.met
  constructor
  · rw [hrun]
  · rw [reseeded, hrun]
    exact hdb

theorem reached_reseeded {db : Db} (h : Reached env db) : Reached env (reseeded env d db) where
  settled := run_invariant (I := fun db => Settled env db.toDirectory) settled_invariant
    (seedIdentity env d) (t := ⟨db, [], []⟩) h.settled
  named := by
    rcases hrun : (seedIdentity env d).run ⟨db, [], []⟩ with ⟨e | a, t⟩
    · rw [reseeded_of_error hrun]
      exact h.named
    · exact (seedRun_reseeded h.named (by rw [hrun])).named
  constraints := run_invariant (I := fun db => Constraints db.toDirectory) constraints_invariant
    (seedIdentity env d) (t := ⟨db, [], []⟩) h.constraints

theorem reseedSafe_iff {db : Db} (h : Reached env db) :
    ReseedSafe env d db ↔ Reseedable env db.toDirectory := by
  have hafter : Reached env (reseeded env d db) := reached_reseeded h
  constructor
  · intro hsafe
    have hrun := seedRun_reseeded h.named hsafe.completes
    exact ⟨namesFree_of_seedRun hafter.constraints hrun,
      (addsOwned_iff h.settled hafter.settled hrun).mp hsafe.owned⟩
  · intro hable
    have hcompletes := seed_completes (d := d) h hable.names
    have hrun := seedRun_reseeded h.named hcompletes
    exact ⟨hcompletes, fun d' => reseed_idempotent hrun,
      (addsOwned_iff h.settled hafter.settled hrun).mpr hable.edges⟩

/-- **When the seed can be run again.**  After a first run of the seed in an empty
database and any requests, a further run is safe if and only if the names of the
groups and roles that are missing are free and the rows under the ids of the missing
edges belong together. -/
theorem reseed_iff {seed : Draws} {hist : List Served} {db : Db}
    (hseed : ((seedIdentity env seed).run ⟨Db.empty, [], []⟩).1 = .ok ())
    (run : Run env (seeded env seed) hist db) (d : Draws) :
    ReseedSafe env d db ↔ Reseedable env db.toDirectory :=
  reseedSafe_iff (reached_of_run hseed run)

/-! ## A group that was made again -/

/-- An operator of the bank deletes its group of customers and makes another one. -/
def customersMade (name : String) : List Served × Db :=
  play .standIn fresh
    [(.admin ⟨"usr_rb_diego", "roku-bank", "roku-bank", ∅, false⟩
      (.createGroup ⟨some "clientes", name, ""⟩), .numbered 2),
    (.admin ⟨"usr_rb_diego", "roku-bank", "roku-bank", ∅, false⟩
      (.deleteGroup "grp_rb_customers"), .numbered 1)]

/-- The group is made again. -/
def customersRemade : List Served × Db := customersMade "Clientes"

/-- The new group has another name. -/
def customersRenamed : List Served × Db := customersMade "Minoristas"

theorem customers_evaluated :
    ((seedIdentity .standIn (.numbered 0)).run ⟨Db.empty, [], []⟩).1 = .ok () ∧
      (customersRemade.2.groups.get "grp_rb_customers" = none ∧
        ∃ g ∈ customersRemade.2.groups.rows, g.tenantId = "roku-bank" ∧ g.name = "Clientes") ∧
      customersRenamed.2.groups.get "grp_rb_customers" = none ∧
        Reseedable .standIn customersRenamed.2.toDirectory := by
  decide +kernel

/-- With the name free, the seed makes its own group again. -/
theorem reseed_iff_renamed : customersRenamed.2.groups.get "grp_rb_customers" = none ∧
    ReseedSafe .standIn (.numbered 9) customersRenamed.2 := by
  obtain ⟨hseed, -, hmissing, hable⟩ := customers_evaluated
  exact ⟨hmissing, (reseed_iff hseed (run_play _) (.numbered 9)).mpr hable⟩

/-- With its name taken by the other group, the seed is refused. -/
theorem not_reseedSafe_remade :
    ∃ hist db, Run .standIn fresh hist db ∧ ¬ ReseedSafe .standIn (.numbered 9) db := by
  obtain ⟨hseed, ⟨hmissing, g, hg, htenant, hname⟩, -⟩ := customers_evaluated
  have hrun : Run .standIn fresh customersRemade.1 customersRemade.2 := run_play _
  refine ⟨_, _, hrun, fun hsafe => ?_⟩
  have hable := (reseedSafe_iff (reached_of_run hseed hrun)).mp hsafe
  have hentry : .group "grp_rb_customers" "roku-bank" "Clientes" ∈ seedRows := by decide +kernel
  exact hable.names.groups hentry hmissing g hg ⟨htenant, hname⟩

end RbaIdp
