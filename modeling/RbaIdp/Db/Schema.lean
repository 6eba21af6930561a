import RbaIdp.Relational.Catalog

/-!
# Creating the schema, and keeping a database

`create_tables` runs before anything is served, on a database that is new, kept from an
earlier release or left by an init job that did not finish.  It refuses one from before
tenancy, drops an `auth_codes` that holds raw session tokens, creates what is missing
and adds the new columns that may be null.

The tables are an instance of `Relational/Catalog.lean`.  Two things follow from it for
`create_tables`: what comes out for every database there may be (`schema_upgrade`), and
that it may be interrupted anywhere and run again (`schema_resume`).

Types, defaults, keys and indexes of columns are left out: nothing here reads them.  So are
foreign keys, and with them the refusal of a table that refers to a missing one: every
table is created after those it refers to.
-/

namespace RbaIdp

open Relational Program

/-! ## The tables of `db/models.py` -/

/-- A column that may not be null. -/
def required (name : String) : Column := ⟨name, false⟩

/-- `nullable=True` -/
def optional (name : String) : Column := ⟨name, true⟩

/-- The tables of `Base.metadata`, every table after the ones it refers to.  Of the orders
that are so this is one, and not the one `sorted_tables` comes in; nothing below depends on
which it is. -/
def sortedTables : List Definition :=
  [⟨"tenants", [required "tenant_id", required "name", required "is_platform",
      optional "console_application_id", optional "admin_group_id", required "display_name",
      required "login_style", optional "logo_url", required "primary_colour",
      required "accent_colour", required "created_at"]⟩,
    ⟨"tenant_domains", [required "domain", required "tenant_id"]⟩,
    ⟨"applications", [required "application_id", optional "client_id", required "tenant_id",
      required "name", required "enabled", optional "redirect_uri", optional "always_passkey",
      required "created_at"]⟩,
    ⟨"users", [required "user_id", required "tenant_id", required "email",
      required "password_hash", required "enabled", required "is_admin", optional "always_passkey",
      required "created_at", optional "last_login_at"]⟩,
    ⟨"groups", [required "group_id", required "tenant_id", required "name",
      required "description", required "created_at"]⟩,
    ⟨"group_memberships", [required "group_id", required "user_id", required "created_at"]⟩,
    ⟨"permissions", [required "permission_id", required "application_id", required "resource",
      required "operation", required "description", required "created_at"]⟩,
    ⟨"roles", [required "role_id", required "tenant_id", required "application_id",
      required "name", required "description", required "created_at"]⟩,
    ⟨"role_permissions", [required "role_id", required "permission_id", required "created_at"]⟩,
    ⟨"group_roles", [required "group_id", required "role_id", required "created_at"]⟩,
    ⟨"sessions", [required "token_hash", required "user_id", required "application_id",
      required "expires_at", optional "enroll_until", optional "webauthn_challenge",
      required "created_at"]⟩,
    ⟨"activation_codes", [required "code_hash", required "user_id", required "issued_by",
      required "expires_at", optional "consumed_at", optional "webauthn_challenge",
      required "created_at"]⟩,
    ⟨"mfa_challenges", [required "challenge_id", required "user_id", required "application_id",
      optional "event_id", required "action", optional "risk_score", optional "risk_level",
      required "reasons", required "expires_at", optional "consumed_at",
      optional "webauthn_challenge", optional "webauthn_mode", optional "denied_reason",
      required "created_at"]⟩,
    ⟨"webauthn_credentials", [required "credential_id", required "user_id", required "public_key",
      required "sign_count", required "created_at"]⟩,
    ⟨"auth_codes", [required "code_hash", required "session_hash", required "user_id",
      required "application_id", required "redirect_uri", required "expires_at",
      optional "consumed_at", required "created_at"]⟩]

/-! ## `db/session.py` -/

/-- The database was created before ADR-0033 and has no `tenant_id` columns. -/
structure SchemaPredatesTenancy where
  message : String
deriving DecidableEq

abbrev Migration (V : Type) := Program (Catalog V) Ddl Empty SchemaPredatesTenancy

variable {V : Type}

def predatesTenancy : SchemaPredatesTenancy :=
  ⟨"rba_idp database predates multi-tenancy (no users.tenant_id); " ++
    "drop it and start again (k3d-down.sh + k3d-up.sh)"⟩

def refusePreTenancySchema : Migration V Unit := do
  let users ← read fun db => db.get "users"
  ifSome users fun table => raiseIf ("tenant_id" ∉ table.columns) predatesTenancy

def dropRawTokenAuthCodes : Migration V Unit := do
  let codes ← read fun db => db.get "auth_codes"
  ifSome codes fun table =>
    when ("session_token" ∈ table.columns) (transaction (execute (.dropTable "auth_codes")))

/-- `Base.metadata.create_all` -/
def createAll : Migration V Unit :=
  transaction do
    let missing ← read fun db => sortedTables.filter fun table => (db.get table.name).isNone
    forEach missing fun table => execute (.createTable table)

def addNullableColumns : Migration V Unit := do
  let existing ← read fun db => db.rows.map Stored.name
  transaction (forEach sortedTables fun table => when (table.name ∈ existing) do
    let present ← read fun db => ((db.get table.name).map Stored.columns).getD []
    forEach table.columns fun column =>
      when (¬ (column.name ∈ present ∨ column.nullable = false))
        (execute (.addColumn table.name column.name)))

def createTables : Migration V Unit := do
  refusePreTenancySchema
  dropRawTokenAuthCodes
  createAll
  addNullableColumns

/-- What the database is brought up to. -/
def schema : Plan where
  definitions := sortedTables
  retired table column := table == "auth_codes" && column == "session_token"
  tables_nodup := by decide
  columns_nodup := by decide
  current := by decide

variable {t t₀ : Trace (Catalog V) Ddl Empty} {db : Catalog V}

/-- The database was created before tenancy. -/
def Predates (db : Catalog V) : Prop :=
  ∃ users, db.get "users" = some users ∧ "tenant_id" ∉ users.columns

/-! ## The parts -/

theorem stale_iff {s : Stored V} :
    schema.stale s = true ↔ s.name = "auth_codes" ∧ "session_token" ∈ s.columns := by
  simp [Plan.stale, schema, and_comm]

/-- No table is too old. -/
def Current (db : Catalog V) : Prop := ∀ name s, db.get name = some s → schema.stale s = false

theorem current_create {d : Definition} (h : Current db) (hd : d ∈ sortedTables)
    (hnone : db.get d.name = none) : Current (Statement.effect (Ddl.createTable d) db) := by
  intro name s hget
  rw [get_createTable hnone] at hget
  split at hget
  · rw [← Option.some.inj hget]
    exact Plan.stale_fresh hd
  · exact h name s hget

theorem current_add {d : Definition} {c : Column} (h : Current db) (hd : d ∈ sortedTables)
    (hc : c ∈ d.columns) : Current (Statement.effect (Ddl.addColumn d.name c.name) db) := by
  intro name s hget
  rw [get_addColumn] at hget
  split at hget
  · next hsame =>
    obtain ⟨old, hold, rfl⟩ := Option.map_eq_some_iff.mp hget
    have hname : old.name = d.name := (Table.key_of_get hold).trans hsame
    rw [Plan.stale_extend (p := schema) hd hname hc]
    exact h name old hold
  · exact h name s hget

theorem current_drop (db : Catalog V) :
    Current (Statement.effect (Ddl.dropTable "auth_codes") db) := by
  intro name s hget
  rw [get_dropTable] at hget
  split at hget
  · cases hget
  · next hne =>
    rw [Bool.eq_false_iff]
    intro hstale
    exact hne ((Table.key_of_get hget).symm.trans (stale_iff.mp hstale).1)

theorem wp_dropRawTokenAuthCodes :
    (dropRawTokenAuthCodes (V := V)).wp
      (fun _ t' => Extends schema.Step t t' ∧ Current t'.db) (fun _ => False) t := by
  simp only [dropRawTokenAuthCodes, wp_bind, wp_read, wp_ifSome, wp_when, wp_transaction,
    wp_execute, violates_dropTable]
  have hkept (hfine : ∀ s, t.db.get "auth_codes" = some s → "session_token" ∉ s.columns) :
      Current t.db := by
    intro name s hget
    rw [Bool.eq_false_iff]
    intro hstale
    obtain ⟨hname, hraw⟩ := stale_iff.mp hstale
    rw [← Table.key_of_get hget, hname] at hget
    exact hfine s hget hraw
  refine ⟨fun hnone => ⟨.refl t, hkept fun s hget => ?_⟩, fun s hget => ⟨fun hraw => ?_, fun hnot =>
    ⟨.refl t, hkept fun s' hget' => ?_⟩⟩⟩
  · rw [hnone] at hget
    cases hget
  · have hname : s.name = "auth_codes" := Table.key_of_get hget
    have hstale : schema.stale s = true := stale_iff.mpr ⟨hname, hraw⟩
    refine ⟨by simp [hget], fun haccepted => ⟨(Extends.refl t).exec ?_ haccepted,
      current_drop t.db⟩⟩
    rw [← hname]
    exact .drop (by rw [hname]; exact hget) hstale
  · rwa [Option.some.inj (hget'.symm.trans hget)]

/-- The loop that creates tables that are not there. -/
theorem wp_createMissing {ds : List Definition} (hds : ∀ d ∈ ds, d ∈ sortedTables)
    (hnodup : (ds.map Definition.name).Nodup) (hextends : Extends schema.Step t₀ t)
    (hcurrent : Current t.db) (habsent : ∀ d ∈ ds, t.db.get d.name = none) :
    (forEach ds fun d => execute (.createTable d) : Migration V Unit).wp
      (fun _ t' => Extends schema.Step t₀ t' ∧ Current t'.db ∧
        (∀ d ∈ ds, t'.db.get d.name ≠ none) ∧
        ∀ name, t.db.get name ≠ none → t'.db.get name ≠ none) (fun _ => False) t := by
  induction ds generalizing t with
  | nil => exact ⟨hextends, hcurrent, by simp, fun _ h => h⟩
  | cons d rest ih =>
      obtain ⟨hd, hrest⟩ := List.forall_mem_cons.mp hds
      obtain ⟨hnone, habsent⟩ := List.forall_mem_cons.mp habsent
      rw [List.map_cons, List.nodup_cons] at hnodup
      simp only [forEach, wp_bind, wp_execute, violates_createTable]
      refine ⟨by simp [hnone], fun haccepted => ?_⟩
      have hget : ∀ name, (t.exec (.createTable d)).db.get name =
          if name = d.name then some (d.fresh V) else t.db.get name := fun name =>
        get_createTable hnone
      refine wp_mono (ih hrest hnodup.2 (hextends.exec (.create hd hnone) haccepted)
        (current_create hcurrent hd hnone) fun e he => ?_) ?_ fun _ h => h
      · have hne : e.name ≠ d.name := fun h => hnodup.1 (h ▸ List.mem_map_of_mem he)
        rw [hget, if_neg hne]
        exact habsent e he
      · rintro _ t' ⟨hextends', hcurrent', hthere, hkept⟩
        refine ⟨hextends', hcurrent', List.forall_mem_cons.mpr ⟨hkept _ ?_, hthere⟩,
          fun name hname => hkept name ?_⟩
        · rw [hget, if_pos rfl]
          exact Option.some_ne_none _
        · rw [hget]
          split
          · exact Option.some_ne_none _
          · exact hname

theorem wp_createAll (hextends : Extends schema.Step t₀ t) (hcurrent : Current t.db) :
    (createAll (V := V)).wp (fun _ t' => Extends schema.Step t₀ t' ∧ Current t'.db ∧
      ∀ d ∈ sortedTables, t'.db.get d.name ≠ none) (fun _ => False) t := by
  simp only [createAll, wp_transaction, wp_bind, wp_read]
  refine wp_mono (wp_createMissing (fun d hd => List.mem_of_mem_filter hd) ?_ hextends hcurrent
    fun d hd => ?_) ?_ fun _ h => h
  · exact schema.tables_nodup.sublist (List.filter_sublist.map _)
  · simpa using (List.mem_filter.mp hd).2
  · rintro _ t' ⟨hextends', hcurrent', hthere, hkept⟩
    refine ⟨hextends', hcurrent', fun d hd => ?_⟩
    cases hget : t.db.get d.name with
    | none => exact hthere d (List.mem_filter.mpr ⟨hd, by simp [hget]⟩)
    | some s => exact hkept d.name (by simp [hget])

/-- The loop that adds the columns of one table, from some column on: of the columns
that are left, those that are there are the ones that were `present` at the start. -/
theorem wp_addMissing {d : Definition} (hd : d ∈ sortedTables) {before after : List Column}
    (hcolumns : d.columns = before ++ after) {present : List String} {s : Stored V}
    (hget : t.db.get d.name = some s) (hpresent : ∀ name ∈ present, name ∈ s.columns)
    (hbefore : ∀ b ∈ before, b.nullable = true → b.name ∈ s.columns)
    (hafter : ∀ c ∈ after, c.name ∈ s.columns → c.name ∈ present)
    (hextends : Extends schema.Step t₀ t) (hcurrent : Current t.db) :
    (forEach after fun column => when (¬ (column.name ∈ present ∨ column.nullable = false))
        (execute (.addColumn d.name column.name)) : Migration V Unit).wp
      (fun _ t' => Extends schema.Step t₀ t' ∧ Current t'.db ∧ Filled d t'.db ∧
        (∀ e, Filled e t.db → Filled e t'.db) ∧
        ∀ name, t.db.get name ≠ none → t'.db.get name ≠ none) (fun _ => False) t := by
  induction after generalizing before s t with
  | nil =>
      rw [List.append_nil] at hcolumns
      refine ⟨hextends, hcurrent, ⟨s, hget, missing_eq_nil.mpr ?_⟩, fun _ h => h, fun _ h => h⟩
      rwa [hcolumns]
  | cons c rest ih =>
      obtain ⟨hc, hrest⟩ := List.forall_mem_cons.mp hafter
      have hnext : d.columns = (before ++ [c]) ++ rest := by
        rw [hcolumns, List.append_assoc, List.singleton_append]
      simp only [forEach, wp_bind, wp_when, wp_execute, violates_addColumn]
      constructor
      · intro hadd
        rw [not_or, Bool.not_eq_false] at hadd
        obtain ⟨habsent, hnullable⟩ := hadd
        have hmissing : c.name ∉ s.columns := fun h => habsent (hc h)
        refine ⟨by simp [hget, hmissing], fun haccepted => ?_⟩
        have hafterwards : ∀ name, (t.exec (.addColumn d.name c.name)).db.get name =
            if name = d.name then (t.db.get name).map fun s => s.extend [c.name]
            else t.db.get name := fun name => get_addColumn
        refine wp_mono (ih hnext (s := s.extend [c.name]) ?_ ?_ ?_ ?_
          (hextends.exec (.add hd hget hcolumns hnullable hmissing hbefore) haccepted)
          (current_add hcurrent hd (by simp [hcolumns]))) ?_ fun _ h => h
        · rw [hafterwards, if_pos rfl, hget, Option.map_some]
        · exact fun name hname => List.mem_append_left _ (hpresent name hname)
        · intro b hb hnull
          rcases List.mem_append.mp hb with hb | hb
          · exact List.mem_append_left _ (hbefore b hb hnull)
          · rw [List.mem_singleton.mp hb]
            exact List.mem_append_right _ (List.mem_singleton.mpr rfl)
        · intro b hb hthere
          rcases List.mem_append.mp hthere with hthere | hthere
          · exact hrest b hb hthere
          · -- no two columns of a table have one name
            have hnodup := schema.columns_nodup d hd
            rw [hcolumns, List.map_append, List.nodup_append, List.map_cons,
              List.nodup_cons] at hnodup
            rw [List.mem_singleton] at hthere
            exact absurd (List.mem_map_of_mem hb) (hthere ▸ hnodup.2.1.1)
        · rintro _ t' ⟨hextends', hcurrent', hfilled, hothers, hkept⟩
          refine ⟨hextends', hcurrent', hfilled, fun e he => hothers e (filled_addColumn he),
            fun name hname => hkept name ?_⟩
          rw [hafterwards]
          split
          · simpa using hname
          · exact hname
      · intro hskip
        refine ih hnext hget hpresent (fun b hb hnull => ?_) hrest hextends hcurrent
        rcases List.mem_append.mp hb with hb | hb
        · exact hbefore b hb hnull
        · rw [List.mem_singleton.mp hb] at hnull ⊢
          rw [not_not] at hskip
          exact hpresent _ (hskip.resolve_right (by simp [hnull]))

theorem wp_addNullableColumns (hextends : Extends schema.Step t₀ t) (hcurrent : Current t.db)
    (hthere : ∀ d ∈ sortedTables, t.db.get d.name ≠ none) :
    (addNullableColumns (V := V)).wp
      (fun _ t' => Extends schema.Step t₀ t' ∧ schema.Done t'.db) (fun _ => False) t := by
  simp only [addNullableColumns, wp_bind, wp_read, wp_transaction]
  have hexisting : ∀ d ∈ sortedTables, d.name ∈ t.db.rows.map Stored.name := by
    intro d hd
    obtain ⟨s, hget⟩ := Option.ne_none_iff_exists'.mp (hthere d hd)
    exact List.mem_map.mpr ⟨s, Table.mem_of_get hget, Table.key_of_get hget⟩
  refine wp_mono (wp_forEach_collect (g := id) (S := []) (J := fun filled t' =>
    Extends schema.Step t₀ t' ∧ Current t'.db ∧ (∀ d ∈ filled, Filled d t'.db) ∧
      ∀ d ∈ sortedTables, t'.db.get d.name ≠ none) (fun hsub h => ?_)
    (fun d hd filled t' h => ?_) ?_) ?_ fun _ h => h
  · exact ⟨h.1, h.2.1, fun d hd => h.2.2.1 d (hsub hd), h.2.2.2⟩
  · obtain ⟨hextends, hcurrent, hfilled, hthere⟩ := h
    simp only [wp_when, wp_bind, wp_read]
    refine ⟨fun _ => ?_, fun hnot => absurd (hexisting d hd) hnot⟩
    obtain ⟨s, hget⟩ := Option.ne_none_iff_exists'.mp (hthere d hd)
    refine wp_mono (wp_addMissing hd (List.nil_append _).symm hget (fun name hname => ?_)
      (by simp) (fun c _ hc => ?_) hextends hcurrent) ?_ fun _ h => h
    · simpa [hget] using hname
    · simpa [hget] using hc
    · rintro _ t'' ⟨hextends', hcurrent', hdone, hothers, hkept⟩
      exact ⟨hextends', hcurrent', List.forall_mem_cons.mpr
        ⟨hdone, fun e he => hothers e (hfilled e he)⟩, fun e he => hkept _ (hthere e he)⟩
  · exact ⟨hextends, hcurrent, by simp, hthere⟩
  · rintro _ t' ⟨hextends', hcurrent', hfilled, -⟩
    exact ⟨hextends', hcurrent', fun d hd => hfilled d (by rwa [List.map_id, List.append_nil])⟩

/-! ## Any database -/

theorem run_createTables_predates (h : Predates t.db) :
    createTables.run t = (.error (.raised predatesTenancy), t) := by
  obtain ⟨users, hget, hmissing⟩ := h
  simp [createTables, refusePreTenancySchema, run_bind, hget, ifSome, raiseIf, hmissing]

theorem wp_createTables (hnot : ¬ Predates t.db) : (createTables (V := V)).wp
    (fun _ t' => Extends schema.Step t t' ∧ schema.Done t'.db) (fun _ => False) t := by
  simp only [createTables, refusePreTenancySchema, wp_bind, wp_read, wp_ifSome, wp_raiseIf]
  have hrest : dropRawTokenAuthCodes.wp (fun _ t' => createAll.wp (fun _ t'' =>
      addNullableColumns.wp (fun _ t' => Extends schema.Step t t' ∧ schema.Done t'.db)
        (fun _ => False) t'') (fun _ => False) t') (fun _ => False) t := by
    refine wp_mono wp_dropRawTokenAuthCodes ?_ fun _ h => h
    rintro _ t' ⟨hextends, hcurrent⟩
    refine wp_mono (wp_createAll hextends hcurrent) ?_ fun _ h => h
    rintro _ t'' ⟨hextends', hcurrent', hthere⟩
    exact wp_addNullableColumns hextends' hcurrent' hthere
  exact ⟨fun _ => hrest, fun users hget =>
    ⟨fun hmissing => hnot ⟨users, hget, hmissing⟩, fun _ => hrest⟩⟩

/-- A database that is not from before tenancy is brought up to date. -/
theorem run_createTables (hnot : ¬ Predates db) : ∃ t' : Trace (Catalog V) Ddl Empty,
    createTables.run ⟨db, [], []⟩ = (.ok (), t') ∧ Path schema.Step db t'.writes t'.db ∧
      schema.Done t'.db := by
  have hwp := wp_createTables (t := ⟨db, [], []⟩) hnot
  rcases hrun : createTables.run ⟨db, [], []⟩ with ⟨e | ⟨⟩, t'⟩
  · exact (wp_of_error hwp hrun).elim
  · obtain ⟨⟨ws, hws, path⟩, hdone⟩ := wp_of_ok hwp hrun
    rw [List.nil_append] at hws
    exact ⟨t', rfl, hws ▸ path, hdone⟩

/-- The database has every column of the models. -/
def Complete (db : Catalog V) : Prop :=
  ∀ d ∈ sortedTables, ∃ s, db.get d.name = some s ∧ ∀ c ∈ d.columns, c.name ∈ s.columns

/-- A database that is brought up to date has every column, unless a table that was kept
lacks one that may not be null. -/
theorem complete_upgraded_iff {db' : Catalog V} (hget : db'.get = schema.upgraded db) :
    Complete db' ↔ ∀ d ∈ sortedTables, ∀ s, schema.kept db d.name = some s →
      ∀ c ∈ d.columns, c.nullable = false → c.name ∈ s.columns := by
  refine forall₂_congr fun d hd => ?_
  rw [hget, Plan.upgraded_of_mem (p := schema) hd]
  cases hkept : schema.kept db d.name with
  | none =>
      refine iff_of_true ⟨_, rfl, fun c hc => ?_⟩ (by simp)
      exact List.mem_map_of_mem hc
  | some s =>
      simp only [Option.map_some, Option.getD_some, Option.some.injEq, exists_eq_left',
        forall_eq', Stored.extend_columns, List.mem_append]
      refine forall₂_congr fun c hc => ?_
      constructor
      · rintro (hthere | hadded) hrequired
        · exact hthere
        · obtain ⟨b, hb, hname⟩ := List.mem_map.mp hadded
          obtain ⟨hmem, hcondition⟩ := List.mem_filter.mp hb
          have hsame : b = c :=
            List.inj_on_of_nodup_map (schema.columns_nodup d hd) hmem hc hname
          simp [hsame, hrequired] at hcondition
      · intro h
        by_cases hthere : c.name ∈ s.columns
        · exact Or.inl hthere
        · refine Or.inr (List.mem_map.mpr ⟨c, List.mem_filter.mpr ⟨hc, ?_⟩, rfl⟩)
          cases hnull : c.nullable with
          | false => exact absurd (h hnull) hthere
          | true => simp [hthere]

/-- **The upgrade of the schema.**  A database from before tenancy is refused and left as
it is.  Any other is brought up to date: new tables are made, and those that were there
keep their columns and their rows and get the missing columns that may be null, in
which the rows are null; only an `auth_codes` with raw tokens is made anew.  The tables
are then complete exactly when no table that was kept lacks a column that may not be
null. -/
theorem schema_upgrade (db : Catalog V) :
    (Predates db → createTables.run ⟨db, [], []⟩ =
      (.error (.raised predatesTenancy), ⟨db, [], []⟩)) ∧
    (¬ Predates db → ∃ t' : Trace (Catalog V) Ddl Empty,
      createTables.run ⟨db, [], []⟩ = (.ok (), t') ∧ t'.db.get = schema.upgraded db ∧
      (∀ name s, db.get name = some s →
        ¬ (name = "auth_codes" ∧ "session_token" ∈ s.columns) →
          ∃ added, t'.db.get name = some (s.extend added)) ∧
      (Complete t'.db ↔ ∀ d ∈ sortedTables, ∀ s, schema.kept db d.name = some s →
        ∀ c ∈ d.columns, c.nullable = false → c.name ∈ s.columns)) := by
  refine ⟨fun h => run_createTables_predates h, fun hnot => ?_⟩
  obtain ⟨t', hrun, path, hdone⟩ := run_createTables hnot
  have hget : t'.db.get = schema.upgraded db := by
    rw [← hdone.upgraded, Plan.upgraded_path path]
  refine ⟨t', hrun, hget, fun name s hname hfine => ?_, complete_upgraded_iff hget⟩
  have hkept : schema.kept db name = some s := by
    have hstale : schema.stale s = false := by
      rw [Bool.eq_false_iff]
      intro hstale
      obtain ⟨hsame, hraw⟩ := stale_iff.mp hstale
      exact hfine ⟨(Table.key_of_get hname).symm.trans hsame, hraw⟩
    simp [Plan.kept, hname, Option.filter_some, hstale]
  rw [hget, Plan.upgraded, hkept]
  split
  · exact ⟨[], by rw [Stored.extend_nil]⟩
  · exact ⟨_, rfl⟩

/-! ## Interrupted, and run again -/

theorem not_predates_step {w : Ddl} (h : ¬ Predates db) (hstep : schema.Step db w) :
    ¬ Predates (Statement.effect w db) := by
  rintro ⟨users, hget, hmissing⟩
  cases hstep with
  | drop _ _ =>
      rw [get_dropTable] at hget
      split at hget
      · cases hget
      · exact h ⟨users, hget, hmissing⟩
  | @create d hd hnone =>
      rw [get_createTable hnone] at hget
      split at hget
      · next hname =>
        have htenancy : ∀ d ∈ sortedTables, "users" = d.name →
            "tenant_id" ∈ d.columns.map Column.name := by decide
        rw [← Option.some.inj hget] at hmissing
        exact hmissing (htenancy d hd hname)
      · exact h ⟨users, hget, hmissing⟩
  | add =>
      rw [get_addColumn] at hget
      split at hget
      · obtain ⟨old, hold, rfl⟩ := Option.map_eq_some_iff.mp hget
        exact h ⟨old, hold, fun hthere => hmissing (List.mem_append_left _ hthere)⟩
      · exact h ⟨users, hget, hmissing⟩

/-- **The upgrade can be resumed.**  Interrupted after any of its statements and run
again, it comes to the same tables, with the same columns in the same order and the same
rows; and run again after its last statement, it executes none. -/
theorem schema_resume {ws vs : List Ddl} {mid : Catalog V} {t' : Trace (Catalog V) Ddl Empty}
    (hrun : createTables.run ⟨db, [], []⟩ = (.ok (), t')) (hws : t'.writes = ws ++ vs)
    (hmid : commit ws db = some mid) : ∃ t'' : Trace (Catalog V) Ddl Empty,
    createTables.run ⟨mid, [], []⟩ = (.ok (), t'') ∧ t''.db.get = t'.db.get ∧
      (vs = [] → t''.writes = []) := by
  have hnot : ¬ Predates db := by
    intro hpredates
    rw [run_createTables_predates hpredates] at hrun
    cases hrun
  obtain ⟨_, hsame, path, hdone⟩ := run_createTables hnot
  obtain rfl := (Prod.mk.inj (hsame.symm.trans hrun)).2
  have hcut : Path schema.Step db ws mid := (hws ▸ path).cut hmid
  have hnot' : ¬ Predates mid :=
    hcut.invariant (I := fun db => ¬ Predates db) (fun _ _ h hstep _ => not_predates_step h hstep)
      hnot
  obtain ⟨t'', hrun', path', hdone'⟩ := run_createTables hnot'
  refine ⟨t'', hrun', ?_, ?_⟩
  · rw [← hdone'.upgraded, Plan.upgraded_path path', Plan.upgraded_path hcut, ← hdone.upgraded,
      Plan.upgraded_path path]
  · rintro rfl
    rw [List.append_nil] at hws
    have hend := path.commit
    rw [hws, hmid, Option.some.injEq] at hend
    exact path'.eq_nil (hend ▸ hdone).not_step

/-- A database with one user, from before there was a `last_login_at`. -/
def keptDatabase : Catalog String :=
  .insert .empty {
    name := "users"
    columns := ["user_id", "tenant_id", "email", "password_hash", "enabled", "is_admin",
      "created_at"]
    rows := [fun column => if column = "user_id" then some "usr_ana" else none]
    closed := by simp }

/-- Interrupted after its third statement. -/
theorem schema_resume_kept : ∃ (t' t'' : Trace (Catalog String) Ddl Empty) (mid : Catalog String),
    createTables.run ⟨keptDatabase, [], []⟩ = (.ok (), t') ∧
      commit (t'.writes.take 3) keptDatabase = some mid ∧
      createTables.run ⟨mid, [], []⟩ = (.ok (), t'') ∧ t''.db.get = t'.db.get := by
  have hnot : ¬ Predates keptDatabase := by
    rintro ⟨users, hget, hmissing⟩
    have hthere : (keptDatabase.get "users").all fun s => s.columns.contains "tenant_id" := by
      decide +kernel
    rw [hget] at hthere
    exact hmissing (by simpa using hthere)
  obtain ⟨t', hrun, path, -⟩ := run_createTables hnot
  have hcommit := path.commit
  rw [← List.take_append_drop 3 t'.writes, commit_append, Option.bind_eq_some_iff] at hcommit
  obtain ⟨mid, hmid, -⟩ := hcommit
  obtain ⟨t'', hrun', hsame, -⟩ :=
    schema_resume hrun (List.take_append_drop 3 t'.writes).symm hmid
  exact ⟨t', t'', mid, hrun, hmid, hrun', hsame⟩

end RbaIdp
