import RbaIdp.Probing
import RbaIdp.Reseed

/-!
# Permission ids

The id of a permission joins its application, resource and operation with
underscores and then writes every hyphen as an underscore.  What is left of the
three parts is the sequence of their words: two permissions have the same id
exactly when they have the same words in a row, however these are divided among the
three parts and whatever separated them (`permissionId_eq_iff`).

Every stored permission has the id of its own parts (`permissionsNamed_of_reachable`).
So a lookup by id finds a permission with the same words, and whether it finds the
one it was made for is a condition on the words of the stored permissions.
-/

namespace RbaIdp

open Relational Program

/-! ## Words -/

/-- The words of a text: what its hyphens and underscores separate. -/
def words (s : String) : List String := split (hyphensToUnderscores s) '_'

/-- The words of the three parts of a permission, in a row. -/
def scopeWords (applicationId : String) (s : Scope) : List String :=
  words applicationId ++ (words s.1 ++ words s.2)

theorem words_join (a b : String) : words (a ++ "_" ++ b) = words a ++ words b :=
  split_append (by simp [hyphensToUnderscores])

theorem words_eq_iff {a b : String} :
    words a = words b ↔ hyphensToUnderscores a = hyphensToUnderscores b :=
  (split_injective '_').eq_iff

/-- An id tells the words of a permission, and nothing else of it. -/
theorem permissionId_eq_iff {a a' : String} {s s' : Scope} :
    permissionId a s = permissionId a' s' ↔ scopeWords a s = scopeWords a' s' := by
  have hparts : ∀ (a : String) (s : Scope), "perm_" ++ a ++ "_" ++ s.1 ++ "_" ++ s.2 =
      "perm_" ++ (a ++ "_" ++ (s.1 ++ "_" ++ s.2)) := by
    intro a s
    simp only [String.append_assoc]
  have hwords : ∀ (a : String) (s : Scope),
      words (a ++ "_" ++ (s.1 ++ "_" ++ s.2)) = scopeWords a s := by
    intro a s
    rw [words_join, words_join, scopeWords]
  rw [permissionId, permissionId, hparts, hparts, hyphensToUnderscores_append_inj,
    ← words_eq_iff, hwords, hwords]

/-- The words of a stored permission. -/
def Permission.words (p : Permission) : List String :=
  scopeWords p.applicationId (p.resource, p.operation)

/-! ## Every stored permission has its own id -/

/-- Every permission stands under the id of its parts. -/
def PermissionsNamed (db : Directory) : Prop :=
  ∀ p ∈ db.permissions, p.permissionId = permissionId p.applicationId (p.resource, p.operation)

/-- Runs of the seed and requests, in any order, from the empty database. -/
inductive Reachable (env : Env) : Db → Prop where
  | empty : Reachable env Db.empty
  | seed {db : Db} (init : Reachable env db) (d : Draws) : Reachable env (reseeded env d db)
  | request {db : Db} (init : Reachable env db) (request : Request) (d : Draws) :
      Reachable env (Served.after env ⟨db, request, d⟩)

variable {env : Env} {d : Draws} {dir : Directory} {db : Db} {op : Operator}

theorem permissionsNamed_effect {w : DirectoryWrite} (hw : (Write.directory w).Names)
    (h : PermissionsNamed dir) : PermissionsNamed (w.effect dir) := by
  intro p hp
  cases w with
  | insertPermission row =>
      rcases Table.mem_or_eq_of_mem_insert hp with hold | rfl
      · exact h p hold
      · exact hw
  | _ => exact h p hp

/-- The statements of the seed name what they insert. -/
theorem names_seed {n : SeedRow} {w : DirectoryWrite} (hw : n.Writes env dir w) :
    (Write.directory w).Names := by
  cases hw with
  | application _ hclient => exact hclient
  | permission _ hid => exact hid
  | _ => trivial

theorem permissionsNamed_after {s : Served} (h : PermissionsNamed s.before.toDirectory) :
    PermissionsNamed (s.after env).toDirectory := by
  refine Served.after_of_names (I := fun db => PermissionsNamed db.toDirectory)
    (fun w db hw hnamed => ?_) h
  cases w with
  | directory w => exact permissionsNamed_effect hw hnamed
  | artefact w => exact hnamed

theorem permissionsNamed_reseeded (hprepared : Prepared db) (h : PermissionsNamed db.toDirectory) :
    PermissionsNamed (reseeded env d db).toDirectory ∧ Prepared (reseeded env d db) := by
  unfold reseeded
  rcases hrun : (seedIdentity env d).run ⟨db, [], []⟩ with ⟨e | _, t⟩
  · rw [db_of_seed_error hrun]
    exact ⟨h, hprepared⟩
  · obtain ⟨⟨⟨ws, -, path⟩, -⟩, hprepared'⟩ := provides_seed.provided hprepared hrun
    refine ⟨path.invariant (I := fun db => PermissionsNamed db.toDirectory)
      (fun db w hdb hadds _ => ?_) h, hprepared'⟩
    obtain ⟨n, -, ⟨edit, rfl, hedit⟩, -⟩ := hadds
    exact permissionsNamed_effect (names_seed hedit) hdb

theorem permissionsNamed_of_reachable (h : Reachable env db) : PermissionsNamed db.toDirectory := by
  suffices hboth : PermissionsNamed db.toDirectory ∧ Prepared db from hboth.1
  induction h with
  | empty =>
      exact ⟨fun p hp => absurd hp (Table.not_mem_empty p),
        fun app happ => absurd happ (Table.not_mem_empty app)⟩
  | seed _ d ih => exact permissionsNamed_reseeded ih.2 ih.1
  | request _ request d ih =>
      exact ⟨permissionsNamed_after (s := ⟨_, request, d⟩) ih.1,
        named_after (s := ⟨_, request, d⟩) ih.2⟩

/-- A lookup by id is a lookup by words. -/
theorem words_of_get (hnamed : PermissionsNamed dir) {a : String} {s : Scope} {p : Permission}
    (hget : dir.permissions.get (permissionId a s) = some p) : p.words = scopeWords a s :=
  permissionId_eq_iff.mp ((hnamed p (Table.mem_of_get hget)).symm.trans (Table.key_of_get hget))

theorem get_of_words (hnamed : PermissionsNamed dir) {a : String} {s : Scope} {p : Permission}
    (hp : p ∈ dir.permissions) (hwords : p.words = scopeWords a s) :
    dir.permissions.get (permissionId a s) = some p := by
  rw [← permissionId_eq_iff.mpr hwords, ← hnamed p hp]
  exact Table.get_of_mem hp

/-! ## Creating a permission -/

/-- The permission of an application to do something to a resource. -/
def Permission.IsOf (p : Permission) (applicationId : String) (s : Scope) : Prop :=
  p.applicationId = applicationId ∧ (p.resource, p.operation) = s

instance {p : Permission} {a : String} {s : Scope} : Decidable (p.IsOf a s) :=
  inferInstanceAs (Decidable (_ ∧ _))

theorem Permission.IsOf.words_eq {p : Permission} {a : String} {s : Scope} (h : p.IsOf a s) :
    p.words = scopeWords a s := by
  rw [Permission.words, h.1, h.2]

/-- Does the call answer 409? -/
def Conflicts (env : Env) (d : Draws) (op : Operator) (db : Db) (body : CreatePermissionRequest) :
    Prop :=
  ∃ detail, Served.answer env ⟨db, .admin op (.createPermission body), d⟩ =
    .error (.raised ⟨409, detail⟩)

theorem conflicts_iff {body : CreatePermissionRequest} (hnamed : PermissionsNamed db.toDirectory)
    (happ : Creation.ownApplication op.tenantId db.toDirectory body.applicationId = true) :
    Conflicts env d op db body ↔
      ∃ p ∈ db.permissions,
        p.words = scopeWords body.applicationId (body.resource, body.operation) := by
  have hrefusal : refusalOf (Served.answer env ⟨db, .admin op (.createPermission body), d⟩) =
      ((Creation.permission body).verdict env op.tenantId
        ((Creation.permission body).taken d db.toDirectory) db.toDirectory).map .raised :=
    refusal_answer.trans (refusal_createPermission (t := ⟨db, [], []⟩))
  have htaken : (Creation.permission body).taken d db.toDirectory = true ↔
      ∃ p ∈ db.permissions,
        p.words = scopeWords body.applicationId (body.resource, body.operation) := by
    rw [Creation.taken, Option.isSome_iff_exists]
    constructor
    · rintro ⟨p, hget⟩
      exact ⟨p, Table.mem_of_get hget, words_of_get hnamed hget⟩
    · rintro ⟨p, hp, hwords⟩
      exact ⟨p, get_of_words hnamed hp hwords⟩
  have hused : Creation.scopeUsed db.toDirectory body.applicationId body.resource body.operation =
      true → (Creation.permission body).taken d db.toDirectory = true := by
    intro hscope
    obtain ⟨p, hp, hmatch⟩ := Table.exists?_eq_true.mp hscope
    simp only [Bool.and_eq_true, beq_iff_eq] at hmatch
    obtain ⟨⟨ha, hr⟩, ho⟩ := hmatch
    exact htaken.mpr ⟨p, hp, Permission.IsOf.words_eq ⟨ha, Prod.ext hr ho⟩⟩
  rw [← htaken, Conflicts]
  simp only [Creation.verdict, happ] at hrefusal
  cases hbit : (Creation.permission body).taken d db.toDirectory with
  | true =>
      simp only [hbit, Bool.true_or] at hrefusal
      refine iff_of_true ⟨"permission already exists", ?_⟩ rfl
      cases hanswer : Served.answer env ⟨db, .admin op (.createPermission body), d⟩ with
      | error e =>
          rw [hanswer] at hrefusal
          rw [Option.some.inj hrefusal]
      | ok a =>
          rw [hanswer] at hrefusal
          cases hrefusal
  | false =>
      have hunused := Bool.eq_false_iff.mpr (mt hused (by simp [hbit]))
      simp only [hbit, hunused] at hrefusal
      refine iff_of_false ?_ (by simp)
      rintro ⟨detail, hanswer⟩
      rw [hanswer] at hrefusal
      cases hrefusal

/-! ## Seeing to permissions -/

/-- `_ensure_permissions`: what was there stays, and what is added is the
application's. -/
theorem wp_ensurePermissions {a : String} {specs : List PermissionSpec} {t : World} :
    (ensurePermissions a specs).wp (fun _ t' =>
      (∀ p ∈ t.db.permissions, p ∈ t'.db.permissions) ∧
        (∀ p ∈ t'.db.permissions, p ∈ t.db.permissions ∨ p.applicationId = a) ∧
        ∀ spec ∈ specs, (t'.db.permissions.get (permissionId a spec.scope)).isSome)
      (fun _ => True) t := by
  let J : List String → World → Prop := fun pids t' =>
    (∀ p ∈ t.db.permissions, p ∈ t'.db.permissions) ∧
      (∀ p ∈ t'.db.permissions, p ∈ t.db.permissions ∨ p.applicationId = a) ∧
        ∀ pid ∈ pids, (t'.db.permissions.get pid).isSome
  have hmono : ∀ {S S' : List String} {t' : World}, S' ⊆ S → J S t' → J S' t' :=
    fun hsub h => ⟨h.1, h.2.1, fun pid hpid => h.2.2 pid (hsub hpid)⟩
  have hloop : (forEach specs (ensurePermission a)).wp
      (fun _ => J (specs.map (fun spec => permissionId a spec.scope) ++ [])) (fun _ => True) t := by
    refine wp_forEach_collect (J := J) hmono (fun spec _ S t' h => ?_)
      ⟨fun _ hp => hp, fun _ hp => Or.inl hp, fun pid hpid => absurd hpid List.not_mem_nil⟩
    simp only [ensurePermission, wp_bind, wp_read, wp_when]
    refine ⟨fun hnone => wp_onDirectory fun _ => ?_, fun hsome => ?_⟩
    · refine ⟨fun p hp => Table.mem_insert_of_mem (h.1 p hp), fun p hp => ?_, ?_⟩
      · rcases Table.mem_or_eq_of_mem_insert hp with hold | rfl
        · exact h.2.1 p hold
        · exact Or.inr rfl
      · intro pid hpid
        rcases List.mem_cons.mp hpid with rfl | hpid
        · simp [DirectoryWrite.effect, hnone]
        · simp [DirectoryWrite.effect, h.2.2 pid hpid]
    · refine ⟨h.1, h.2.1, fun pid hpid => ?_⟩
      rcases List.mem_cons.mp hpid with rfl | hpid
      · exact Option.isSome_iff_ne_none.mpr hsome
      · exact h.2.2 pid hpid
  refine wp_mono hloop (fun _ t' h => ⟨h.1, h.2.1, fun spec hspec => ?_⟩) fun _ h => h
  exact h.2.2 _ (List.mem_append_left _ (List.mem_map_of_mem hspec))

/-- `_ensure_role`: the permissions stay as they are, and the role carries one under
every id it was asked for. -/
theorem wp_ensureRole {tenantId roleId a name description : String} {scopes : List Scope}
    {t : World} :
    (ensureRole d tenantId roleId a name description scopes).wp (fun _ t' =>
      t'.db.permissions = t.db.permissions ∧
        ∀ s ∈ scopes, (t'.db.rolePermissions.get (roleId, permissionId a s)).isSome)
      (fun _ => True) t := by
  let J : List (String × String) → World → Prop := fun keys t' =>
    t'.db.permissions = t.db.permissions ∧
      ∀ key ∈ keys, (t'.db.rolePermissions.get key).isSome
  have hmono : ∀ {S S' : List (String × String)} {t' : World}, S' ⊆ S → J S t' → J S' t' :=
    fun hsub h => ⟨h.1, fun key hkey => h.2 key (hsub hkey)⟩
  have hloop : ∀ {t' : World}, t'.db.permissions = t.db.permissions →
      (forEach scopes (ensureRolePermission roleId a)).wp
        (fun _ => J (scopes.map (fun s => (roleId, permissionId a s)) ++ [])) (fun _ => True)
        t' := by
    intro t' hsame
    refine wp_forEach_collect (J := J) hmono (fun s _ S t' h => ?_)
      ⟨hsame, fun key hkey => absurd hkey List.not_mem_nil⟩
    simp only [ensureRolePermission, wp_bind, wp_read, wp_when]
    refine ⟨fun hnone => wp_onDirectory fun _ => ⟨h.1, fun key hkey => ?_⟩, fun hsome =>
      ⟨h.1, fun key hkey => ?_⟩⟩
    · rcases List.mem_cons.mp hkey with rfl | hkey
      · have hkeySame : RolePermission.key ⟨roleId, permissionId a s⟩ =
          (roleId, permissionId a s) := rfl
        simp [DirectoryWrite.effect, hkeySame]
      · simp [DirectoryWrite.effect, h.2 key hkey]
    · rcases List.mem_cons.mp hkey with rfl | hkey
      · exact Option.isSome_iff_ne_none.mpr hsome
      · exact h.2 key hkey
  simp only [ensureRole, wp_bind, wp_read, wp_when]
  have hdone : ∀ {t' : World}, t'.db.permissions = t.db.permissions →
      (forEach scopes (ensureRolePermission roleId a)).wp (fun _ t' =>
        t'.db.permissions = t.db.permissions ∧
          ∀ s ∈ scopes, (t'.db.rolePermissions.get (roleId, permissionId a s)).isSome)
        (fun _ => True) t' := fun hsame =>
    wp_mono (hloop hsame) (fun _ t' h => ⟨h.1, fun s hs =>
      h.2 _ (List.mem_append_left _ (List.mem_map_of_mem hs))⟩) fun _ h => h
  exact ⟨fun _ => wp_onDirectory fun _ => hdone rfl, fun _ => hdone rfl⟩

/-- An id that was asked for holds a permission of another application. -/
def Mistaken (applicationId : String) (scopes : List Scope) (dir : Directory) : Prop :=
  ∃ s ∈ scopes, ∃ p, dir.permissions.get (permissionId applicationId s) = some p ∧
    p.applicationId ≠ applicationId

/-- A permission of another application has the words of one that is asked for. -/
def Overlap (applicationId : String) (scopes : List Scope) (dir : Directory) : Prop :=
  ∃ s ∈ scopes, ∃ p ∈ dir.permissions, p.applicationId ≠ applicationId ∧
    p.words = scopeWords applicationId s

/-- Adding permissions of the application neither makes nor mends a mistake. -/
theorem mistaken_iff {a : String} {scopes : List Scope} {dir dir' : Directory}
    (hnamed : PermissionsNamed dir) (hkept : ∀ p ∈ dir.permissions, p ∈ dir'.permissions)
    (hnew : ∀ p ∈ dir'.permissions, p ∈ dir.permissions ∨ p.applicationId = a) :
    Mistaken a scopes dir' ↔ Overlap a scopes dir := by
  constructor
  · rintro ⟨s, hs, p, hget, hother⟩
    have hold : p ∈ dir.permissions := (hnew p (Table.mem_of_get hget)).resolve_right hother
    have hid : permissionId p.applicationId (p.resource, p.operation) = permissionId a s :=
      (hnamed p hold).symm.trans (Table.key_of_get hget)
    exact ⟨s, hs, p, hold, hother, permissionId_eq_iff.mp hid⟩
  · rintro ⟨s, hs, p, hp, hother, hwords⟩
    refine ⟨s, hs, p, ?_, hother⟩
    rw [← permissionId_eq_iff.mpr hwords, ← hnamed p hp]
    exact Table.get_of_mem (hkept p hp)

/-! ## What an id identifies -/

/-- Permission ids identify permissions exactly as far as their words do.
`create_permission` refuses for another permission, and the seed takes another
application's permission for its own, exactly when one with the same words is
stored. -/
theorem permission_ids_identify_iff (d : Draws) (a : String) :
    (∀ (a' : String) (s s' : Scope), (a, s) ≠ (a', s') →
      (permissionId a s ≠ permissionId a' s' ↔ scopeWords a s ≠ scopeWords a' s')) ∧
    (∀ (env : Env) (db : Db), Reachable env db →
      PermissionsNamed db.toDirectory ∧
      ∀ (op : Operator) (body : CreatePermissionRequest),
        Creation.ownApplication op.tenantId db.toDirectory body.applicationId = true →
        ((Conflicts env d op db body ↔ ∃ p ∈ db.permissions,
            p.IsOf body.applicationId (body.resource, body.operation)) ↔
          ∀ p ∈ db.permissions,
            p.words = scopeWords body.applicationId (body.resource, body.operation) →
              p.IsOf body.applicationId (body.resource, body.operation))) ∧
    (∀ t : World, PermissionsNamed t.db.toDirectory →
      (∀ specs : List PermissionSpec, (ensurePermissions a specs).wp (fun _ t' =>
          (∀ spec ∈ specs, (t'.db.permissions.get (permissionId a spec.scope)).isSome) ∧
            (¬ Mistaken a (specs.map PermissionSpec.scope) t'.db.toDirectory ↔
              ¬ Overlap a (specs.map PermissionSpec.scope) t.db.toDirectory))
        (fun _ => True) t) ∧
      ∀ (tenantId roleId name description : String) (scopes : List Scope),
        (ensureRole d tenantId roleId a name description scopes).wp (fun _ t' =>
          (∀ s ∈ scopes, (t'.db.rolePermissions.get (roleId, permissionId a s)).isSome) ∧
            (¬ Mistaken a scopes t'.db.toDirectory ↔ ¬ Overlap a scopes t.db.toDirectory))
        (fun _ => True) t) := by
  refine ⟨fun a' s s' _ => not_congr permissionId_eq_iff, fun env db hreach => ?_,
    fun t hnamed => ⟨fun specs => ?_, fun tenantId roleId name description scopes => ?_⟩⟩
  · have hnamed := permissionsNamed_of_reachable hreach
    refine ⟨hnamed, fun op body happ => ?_⟩
    rw [conflicts_iff hnamed happ]
    constructor
    · intro hsame p hp hwords
      obtain ⟨q, hq, hof⟩ := hsame.mp ⟨p, hp, hwords⟩
      have hpq : some p = some q :=
        (get_of_words hnamed hp hwords).symm.trans (get_of_words hnamed hq hof.words_eq)
      rw [Option.some.inj hpq]
      exact hof
    · intro honly
      constructor
      · rintro ⟨p, hp, hwords⟩
        exact ⟨p, hp, honly p hp hwords⟩
      · rintro ⟨p, hp, hof⟩
        exact ⟨p, hp, hof.words_eq⟩
  · exact wp_mono wp_ensurePermissions (fun _ t' h =>
      ⟨h.2.2, not_congr (mistaken_iff hnamed h.1 h.2.1)⟩) fun _ h => h
  · refine wp_mono wp_ensureRole (fun _ t' h => ⟨h.2, not_congr ?_⟩) fun _ h => h
    refine mistaken_iff hnamed ?_ ?_
    · intro p hp
      rw [h.1]
      exact hp
    · intro p hp
      rw [h.1] at hp
      exact Or.inl hp

/-- A tenant that is created and registers an application under its own name. -/
def Db.founded : Db :=
  let created := Served.after Env.standIn
    ⟨Db.empty, .admin .standIn (.createTenant ⟨"acme", "Acme", [], none⟩), .usual 0⟩
  Served.after Env.standIn
    ⟨created, .admin .standIn (.createApplication ⟨"acme", "Acme", none⟩), .usual 1⟩

theorem reachable_founded : Reachable .standIn .founded := .request (.request .empty _ _) _ _

/-- Nothing stored has the words of a permission to read accounts. -/
theorem permission_ids_identify_founded :
    permissionId "acme" ("accounts", "read") ≠ permissionId "acme" ("accounts", "write") ∧
      (Conflicts .standIn (.usual 2) .standIn .founded ⟨"acme", "accounts", "read", ""⟩ ↔
        ∃ p ∈ Db.founded.permissions, p.IsOf "acme" ("accounts", "read")) ∧
      (ensureRole (.usual 2) "acme" "tellers" "acme" "Tellers" "" [("accounts", "read")]).wp
        (fun _ t' => (∀ s ∈ [("accounts", "read")],
            (t'.db.rolePermissions.get ("tellers", permissionId "acme" s)).isSome) ∧
          (¬ Mistaken "acme" [("accounts", "read")] t'.db.toDirectory ↔
            ¬ Overlap "acme" [("accounts", "read")] Db.founded.toDirectory))
        (fun _ => True) ⟨.founded, [], []⟩ :=
  have hids := permission_ids_identify_iff (.usual 2) "acme"
  have hfounded := hids.2.1 .standIn .founded reachable_founded
  ⟨(hids.1 _ _ _ (by decide)).mpr (by decide +kernel),
    (hfounded.2 .standIn ⟨"acme", "accounts", "read", ""⟩ (by decide +kernel)).mpr
      (by decide +kernel),
    (hids.2.2 ⟨.founded, [], []⟩ hfounded.1).2 _ _ _ _ _⟩

/-- The administration of a tenant's console is taken for a resource of the tenant's
application. -/
theorem not_permission_ids_identify :
    (¬ ∀ (a a' : String) (s s' : Scope), (a, s) ≠ (a', s') →
        permissionId a s ≠ permissionId a' s') ∧
      ¬ ∀ (env : Env) (db : Db), Reachable env db →
        ∀ (d : Draws) (op : Operator) (body : CreatePermissionRequest),
          Creation.ownApplication op.tenantId db.toDirectory body.applicationId = true →
          (Conflicts env d op db body ↔ ∃ p ∈ db.permissions,
            p.IsOf body.applicationId (body.resource, body.operation)) := by
  constructor
  · intro h
    exact h "acme" "acme-console" ("console_admin", "read") ("admin", "read") (by decide)
      (by decide +kernel)
  · intro h
    let body : CreatePermissionRequest := ⟨"acme", "console_admin", "read", ""⟩
    have hconflicts : Conflicts .standIn (.usual 2) .standIn .founded body :=
      (conflicts_iff (permissionsNamed_of_reachable reachable_founded) (by decide +kernel)).mpr
        (by decide +kernel)
    have hexists := (h .standIn .founded reachable_founded (.usual 2) .standIn body
      (by decide +kernel)).mp hconflicts
    revert hexists
    decide +kernel

end RbaIdp
