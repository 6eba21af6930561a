import RbaIdp.Relational.Merge
import RbaIdp.Simulation

/-!
# Passkeys across a teardown

`passkeys.py` writes the passkeys of a database to a file and reads such a file into
another one.  The loop of the import inserts a row, raises a counter or skips an item;
what it does to the passkeys as a whole is a merge of counters (`importItems_cases`), so
that the order and the number of times of an import are of no account
(`passkey_import_merges`).

An item that cannot be read makes the whole import raise.  Which items those are does not
depend on the order either: an item whose passkey an earlier item stored has the same key
as that one (`importable_merged`).
-/

namespace RbaIdp

open Relational Program Encoding Simulation

/-! ## `passkeys.py` -/

/-- One object of the file; `none` for a key it does not have. -/
structure PasskeyItem where
  credentialId : Option String
  userId : Option Json
  publicKey : Option Json
  signCount : Option Json

structure ImportCounts where
  added : ℕ
  updated : ℕ
  skipped : ℕ

abbrev Script := Program Db Write Call PyException

/-- Raise what reading a value raised. -/
def orRaise {α : Type} : Except PyException α → Script α
  | .ok a => pure a
  | .error e => Program.raise e

/-- `item[key]` -/
def field {α : Type} (value : Option α) : Except PyException α :=
  value.elim (.error .keyError) .ok

/-- `base64.b64encode(data).decode()` -/
def b64encode (data : Bytes) : String := String.ofList (standard.encode data)

/-- `base64.b64decode` of a JSON value -/
def b64decode : Json → Except PyException Bytes
  | .str text =>
      if isAscii text then (standard.decode text.toList).elim (.error .valueError) .ok
      else .error .valueError
  | _ => .error .typeError

/-- The member of a set of texts that a JSON value is; lists and objects have no hash. -/
def memberOf (texts : List String) : Json → Except PyException (Option String)
  | .str text => .ok (if text ∈ texts then some text else none)
  | .arr _ | .obj _ => .error .typeError
  | _ => .ok none

namespace PasskeyItem

variable (lib : Library) (users : List String) (item : PasskeyItem)

/-- The user of an item, unless the item is skipped. -/
def user : Except PyException (Option String) := field item.userId >>= memberOf users

def key : Except PyException Bytes := field item.publicKey >>= b64decode

def count : Except PyException ℤ := field item.signCount >>= pyInt lib

end PasskeyItem

/-- `export_passkeys`: the rows in the order they were created. -/
def exportPasskeys : Script (List PasskeyItem) :=
  transaction <| read fun db => db.webauthnCredentials.rows.map fun row =>
    { credentialId := some row.credentialId
      userId := some (.str row.userId)
      publicKey := some (.str (b64encode row.publicKey))
      signCount := some (.int row.signCount) }

/-- One turn of the loop of `import_passkeys`. -/
def importItem (lib : Library) (users : List String) (counts : ImportCounts)
    (item : PasskeyItem) : Script ImportCounts := do
  match ← orRaise (item.user users) with
  | none => pure { counts with skipped := counts.skipped + 1 }
  | some userId => do
      let credentialId ← orRaise (field item.credentialId)
      match ← read fun db => db.webauthnCredentials.get credentialId with
      | none => do
          let publicKey ← orRaise item.key
          let signCount ← orRaise (item.count lib)
          execute (.artefact (.insertCredential ⟨credentialId, userId, publicKey, signCount⟩))
          pure { counts with added := counts.added + 1 }
      | some row => do
          let signCount ← orRaise (item.count lib)
          if row.signCount < signCount then do
            execute (.artefact (.setSignCount credentialId signCount))
            pure { counts with updated := counts.updated + 1 }
          else pure counts

def importItems (lib : Library) (users : List String) :
    ImportCounts → List PasskeyItem → Script ImportCounts
  | counts, [] => pure counts
  | counts, item :: rest => do
      let counts ← importItem lib users counts item
      importItems lib users counts rest

def userIds (db : Db) : List String := db.users.rows.map User.userId

/-- `import_passkeys` -/
def importPasskeys (lib : Library) (items : List PasskeyItem) : Script ImportCounts :=
  transaction do
    let users ← read userIds
    importItems lib users ⟨0, 0, 0⟩ items

/-! ## The passkeys of a database -/

/-- Whose a passkey is, its key and its signature counter. -/
def Db.passkeys (db : Db) (credentialId : String) : Option ((String × Bytes) × ℤ) :=
  (db.webauthnCredentials.get credentialId).map fun r => ((r.userId, r.publicKey), r.signCount)

/-- The second database is the first one but for its passkeys. -/
def OnlyPasskeys (db db' : Db) : Prop :=
  db' = { db with webauthnCredentials := db'.webauthnCredentials }

theorem OnlyPasskeys.trans {db db' db'' : Db} (h : OnlyPasskeys db db')
    (h' : OnlyPasskeys db' db'') : OnlyPasskeys db db'' := by
  unfold OnlyPasskeys at *
  rw [h'] at *
  rw [h]

theorem OnlyPasskeys.users {db db' : Db} (h : OnlyPasskeys db db') : db'.users = db.users := by
  rw [h]

theorem passkeys_insertCredential {db : Db} (row : WebAuthnCredential)
    (hnew : db.passkeys row.credentialId = none) :
    (Statement.effect (Write.artefact (.insertCredential row)) db).passkeys =
      Function.update db.passkeys row.credentialId
        (some ((row.userId, row.publicKey), row.signCount)) := by
  have hfree : db.webauthnCredentials.get row.credentialId = none := by
    simpa [Db.passkeys] using hnew
  funext credentialId
  by_cases hid : credentialId = row.credentialId
  · subst hid
    simp [Db.passkeys, ArtefactWrite.effect, hfree]
  · rw [Function.update_of_ne hid]
    simp [Db.passkeys, ArtefactWrite.effect, Ne.symm hid]

theorem passkeys_setSignCount {db : Db} {credentialId : String} {signCount : ℤ}
    {key : String × Bytes} {old : ℤ} (hold : db.passkeys credentialId = some (key, old)) :
    (Statement.effect (Write.artefact (.setSignCount credentialId signCount)) db).passkeys =
      Function.update db.passkeys credentialId (some (key, signCount)) := by
  obtain ⟨row, hrow, hpasskey⟩ := Option.map_eq_some_iff.mp hold
  cases hpasskey
  have hkey := Table.key_of_get hrow
  funext other
  by_cases hid : other = credentialId
  · subst hid
    simp [Db.passkeys, ArtefactWrite.effect, hrow, hkey]
  · rw [Function.update_of_ne hid]
    cases hget : db.webauthnCredentials.get other with
    | none => simp [Db.passkeys, ArtefactWrite.effect, hget]
    | some r =>
        have hne : r.credentialId ≠ credentialId := Table.key_of_get hget ▸ hid
        simp [Db.passkeys, ArtefactWrite.effect, hget, hne]

/-! ## One item -/

namespace PasskeyItem

variable (lib : Library) (users : List String) (item : PasskeyItem)

/-- What an item of a user who is there says of a passkey. -/
def entry : Option (Entry String (String × Bytes) ℤ) :=
  match item.user users, item.credentialId, item.count lib with
  | .ok (some userId), some credentialId, .ok signCount =>
      some ⟨credentialId, (userId, item.key.toOption.getD []), signCount⟩
  | _, _, _ => none

/-- An item the import can read: one that is skipped, or one of a passkey that is there
or that it has the key of. -/
def Importable (m : String → Option ((String × Bytes) × ℤ)) : Prop :=
  item.user users = .ok none ∨ ∃ e, item.entry lib users = some e ∧
    ((m e.key).isSome ∨ ∃ key, item.key = .ok key)

end PasskeyItem

variable {lib : Library} {users : List String} {item : PasskeyItem} {t : World}

theorem PasskeyItem.entry_eq_some {e : Entry String (String × Bytes) ℤ} :
    item.entry lib users = some e ↔ item.user users = .ok (some e.value.1) ∧
      item.credentialId = some e.key ∧ item.count lib = .ok e.count ∧
      item.key.toOption.getD [] = e.value.2 := by
  obtain ⟨credentialId, ⟨userId, key⟩, signCount⟩ := e
  unfold PasskeyItem.entry
  split
  · next u id n huser hid hcount =>
    simp only [huser, hid, hcount, Option.some.injEq, Entry.mk.injEq, Prod.mk.injEq,
      Except.ok.injEq]
    tauto
  · next h =>
    constructor
    · intro hnone
      cases hnone
    · rintro ⟨huser, hid, hcount, -⟩
      exact absurd hcount (h _ _ _ huser hid)

theorem memberOf_eq_some {texts : List String} {value : Json} {text : String} :
    memberOf texts value = .ok (some text) ↔ value = .str text ∧ text ∈ texts := by
  cases value with
  | str other =>
      by_cases hmem : other ∈ texts
      · simp only [memberOf, hmem, if_true, Except.ok.injEq, Option.some.injEq, Json.str.injEq]
        constructor
        · rintro rfl
          exact ⟨rfl, hmem⟩
        · exact And.left
      · simp only [memberOf, hmem, if_false, Except.ok.injEq, reduceCtorEq, Json.str.injEq,
          false_iff, not_and]
        rintro rfl
        exact hmem
  | _ => simp [memberOf]

theorem PasskeyItem.user_eq_some {userId : String} :
    item.user users = .ok (some userId) ↔ item.userId = some (.str userId) ∧ userId ∈ users := by
  unfold PasskeyItem.user
  cases item.userId with
  | none => simp [field, Bind.bind, Except.bind]
  | some value => simpa [field, Bind.bind, Except.bind] using memberOf_eq_some

theorem run_orRaise {α : Type} {x : Except PyException α} {a : α} (h : x = .ok a) :
    (orRaise x).run t = (.ok a, t) := by
  rw [h]
  rfl

theorem run_orRaise_error {α : Type} {x : Except PyException α} {e : PyException}
    (h : x = .error e) : (orRaise x).run t = (.error (.raised e), t) := by
  rw [h]
  rfl

/-- A skipped item changes nothing. -/
theorem importItem_skipped {counts : ImportCounts} (huser : item.user users = .ok none) :
    (importItem lib users counts item).run t =
      (.ok { counts with skipped := counts.skipped + 1 }, t) := by
  rw [importItem, run_bind_of_ok (run_orRaise huser)]
  rfl

section Listed

variable {counts : ImportCounts} {userId credentialId : String} {signCount : ℤ}

/-- A passkey that is not there is stored. -/
theorem importItem_new {publicKey : Bytes} (husers : ∀ u ∈ users, (t.db.users.get u).isSome)
    (huser : item.user users = .ok (some userId)) (hid : item.credentialId = some credentialId)
    (hget : t.db.webauthnCredentials.get credentialId = none)
    (hkey : item.key = .ok publicKey) (hcount : item.count lib = .ok signCount) :
    ∃ counts' t', (importItem lib users counts item).run t = (.ok counts', t') ∧
      t'.db.passkeys = merge t.db.passkeys ⟨credentialId, (userId, publicKey), signCount⟩ ∧
      OnlyPasskeys t.db t'.db := by
  let row : WebAuthnCredential := ⟨credentialId, userId, publicKey, signCount⟩
  have hnew : t.db.passkeys credentialId = none := by simp [Db.passkeys, hget]
  have hfield : field item.credentialId = .ok credentialId := by rw [hid]; rfl
  have haccepted : Statement.violates (Write.artefact (.insertCredential row)) t.db = false := by
    have hthere := husers _ (PasskeyItem.user_eq_some.mp huser).2
    simp [ArtefactWrite.violates, row, hget, hthere]
  refine ⟨{ counts with added := counts.added + 1 }, t.exec (.artefact (.insertCredential row)),
    ?_, ?_, rfl⟩
  · rw [importItem, run_bind_of_ok (run_orRaise huser), run_bind_of_ok (run_orRaise hfield),
      run_bind_of_ok (run_read ..), hget]
    simp only
    rw [run_bind_of_ok (run_orRaise hkey), run_bind_of_ok (run_orRaise hcount),
      run_bind_of_ok (run_execute haccepted)]
    rfl
  · rw [merge_new hnew]
    exact passkeys_insertCredential row hnew

/-- The counter of a passkey that is there is raised, unless it is as high. -/
theorem importItem_old {row : WebAuthnCredential} (huser : item.user users = .ok (some userId))
    (hid : item.credentialId = some credentialId)
    (hget : t.db.webauthnCredentials.get credentialId = some row)
    (hcount : item.count lib = .ok signCount) (publicKey : Bytes) :
    ∃ counts' t', (importItem lib users counts item).run t = (.ok counts', t') ∧
      t'.db.passkeys = merge t.db.passkeys ⟨credentialId, (userId, publicKey), signCount⟩ ∧
      OnlyPasskeys t.db t'.db := by
  have hold : t.db.passkeys credentialId = some ((row.userId, row.publicKey), row.signCount) := by
    simp [Db.passkeys, hget]
  have hfield : field item.credentialId = .ok credentialId := by rw [hid]; rfl
  rw [importItem, run_bind_of_ok (run_orRaise huser), run_bind_of_ok (run_orRaise hfield),
    run_bind_of_ok (run_read ..), hget, merge_old hold]
  simp only
  rw [run_bind_of_ok (run_orRaise hcount)]
  by_cases hhigher : row.signCount < signCount
  · have haccepted : Statement.violates
        (Write.artefact (.setSignCount credentialId signCount)) t.db = false := by
      simp [ArtefactWrite.violates, hget]
    refine ⟨{ counts with updated := counts.updated + 1 },
      t.exec (.artefact (.setSignCount credentialId signCount)), ?_, ?_, rfl⟩
    · rw [if_pos hhigher, run_bind_of_ok (run_execute haccepted)]
      rfl
    · rw [max_eq_right hhigher.le]
      exact passkeys_setSignCount hold
  · refine ⟨counts, t, by rw [if_neg hhigher]; rfl, ?_, rfl⟩
    rw [max_eq_left (not_lt.mp hhigher), ← hold, Function.update_eq_self]

/-- An item of a user who is there raises when it does not name its passkey, when its
counter cannot be read, and when the key of a new passkey cannot. -/
theorem importItem_error (huser : item.user users = .ok (some userId))
    (h : ∀ credentialId signCount, item.credentialId = some credentialId →
      item.count lib = .ok signCount →
      t.db.webauthnCredentials.get credentialId = none ∧ ∃ e, item.key = .error e) :
    ∃ e t', (importItem lib users counts item).run t = (.error e, t') := by
  rw [importItem, run_bind_of_ok (run_orRaise huser)]
  cases hid : item.credentialId with
  | none =>
      have hfield : field (none : Option String) = .error .keyError := rfl
      exact ⟨_, _, run_bind_of_error (run_orRaise_error hfield)⟩
  | some credentialId =>
      have hfield : field (some credentialId) = .ok credentialId := rfl
      rw [run_bind_of_ok (run_orRaise hfield), run_bind_of_ok (run_read ..)]
      cases hget : t.db.webauthnCredentials.get credentialId with
      | some row =>
          cases hcount : item.count lib with
          | error e => exact ⟨_, _, run_bind_of_error (run_orRaise_error rfl)⟩
          | ok signCount =>
              obtain ⟨hnone, -⟩ := h credentialId signCount hid hcount
              rw [hget] at hnone
              cases hnone
      | none =>
          cases hkey : item.key with
          | error e => exact ⟨_, _, run_bind_of_error (run_orRaise_error rfl)⟩
          | ok publicKey =>
              simp only
              rw [run_bind_of_ok (run_orRaise rfl)]
              cases hcount : item.count lib with
              | error e => exact ⟨_, _, run_bind_of_error (run_orRaise_error rfl)⟩
              | ok signCount =>
                  obtain ⟨-, e, hunread⟩ := h credentialId signCount hid hcount
                  rw [hkey] at hunread
                  cases hunread

/-- An item of a user who is there is read and merged, or it raises. -/
theorem importItem_listed (counts : ImportCounts)
    (husers : ∀ u ∈ users, (t.db.users.get u).isSome)
    (huser : item.user users = .ok (some userId)) :
    (item.Importable lib users t.db.passkeys ∧ ∃ counts' t',
      (importItem lib users counts item).run t = (.ok counts', t') ∧
      t'.db.passkeys = mergeAll t.db.passkeys (item.entry lib users).toList ∧
      OnlyPasskeys t.db t'.db) ∨
    (¬ item.Importable lib users t.db.passkeys ∧
      ∃ e t', (importItem lib users counts item).run t = (.error e, t')) := by
  by_cases hread : item.Importable lib users t.db.passkeys
  · refine Or.inl ⟨hread, ?_⟩
    rcases hread with hskipped | ⟨e, he, hthere⟩
    · rw [huser] at hskipped
      cases hskipped
    · obtain ⟨howner, hid, hcount, hvalue⟩ := PasskeyItem.entry_eq_some.mp he
      obtain ⟨credentialId, ⟨userId, publicKey⟩, signCount⟩ := e
      rw [he, Option.toList_some, mergeAll_cons, mergeAll_nil]
      cases hget : t.db.webauthnCredentials.get credentialId with
      | some row => exact importItem_old howner hid hget hcount publicKey
      | none =>
          rcases hthere with hthere | ⟨key, hkey⟩
          · simp [Db.passkeys, hget] at hthere
          · obtain rfl : key = publicKey := by simpa [hkey, Except.toOption] using hvalue
            exact importItem_new husers howner hid hget hkey hcount
  · refine Or.inr ⟨hread, importItem_error huser fun credentialId signCount hid hcount => ?_⟩
    have hentry : item.entry lib users =
        some ⟨credentialId, (userId, item.key.toOption.getD []), signCount⟩ := by
      simp [PasskeyItem.entry, huser, hid, hcount]
    have hneither : ¬ ((t.db.passkeys credentialId).isSome ∨ ∃ key, item.key = .ok key) :=
      fun hthere => hread (Or.inr ⟨_, hentry, hthere⟩)
    rw [not_or] at hneither
    refine ⟨?_, ?_⟩
    · simpa [Db.passkeys] using hneither.1
    · cases hkey : item.key with
      | error e => exact ⟨e, rfl⟩
      | ok key => exact absurd ⟨key, hkey⟩ hneither.2

end Listed

/-! ## A list of items -/

/-- Items of one passkey have one user and one key. -/
def ItemsAgree (items : List PasskeyItem) : Prop :=
  ∀ i ∈ items, ∀ j ∈ items, ∀ id, i.credentialId = some id → j.credentialId = some id →
    i.userId = j.userId ∧ i.publicKey = j.publicKey

theorem ItemsAgree.subset {items items' : List PasskeyItem} (h : ItemsAgree items')
    (hsub : items ⊆ items') : ItemsAgree items :=
  fun i hi j hj => h i (hsub hi) j (hsub hj)

/-- What the items of a list say of passkeys. -/
def entries (lib : Library) (users : List String) (items : List PasskeyItem) :
    List (Entry String (String × Bytes) ℤ) :=
  items.filterMap fun item => item.entry lib users

variable {items items' : List PasskeyItem} {m : String → Option ((String × Bytes) × ℤ)}

theorem mem_entries {e : Entry String (String × Bytes) ℤ} :
    e ∈ entries lib users items ↔ ∃ item ∈ items, item.entry lib users = some e := by
  simp [entries]

/-- Entries of one passkey come from items that agree. -/
theorem ItemsAgree.same (h : ItemsAgree items) {i j : PasskeyItem} (hi : i ∈ items) (hj : j ∈ items)
    {e f : Entry String (String × Bytes) ℤ} (he : i.entry lib users = some e)
    (hf : j.entry lib users = some f) (hkey : e.key = f.key) :
    i.user users = j.user users ∧ i.key = j.key := by
  have hid : j.credentialId = some e.key := by
    rw [hkey]
    exact (PasskeyItem.entry_eq_some.mp hf).2.1
  obtain ⟨huser, hpublicKey⟩ := h i hi j hj e.key (PasskeyItem.entry_eq_some.mp he).2.1 hid
  exact ⟨by rw [PasskeyItem.user, PasskeyItem.user, huser],
    by rw [PasskeyItem.key, PasskeyItem.key, hpublicKey]⟩

theorem oneValue_entries (lib : Library) (users : List String) (h : ItemsAgree items) :
    OneValue (entries lib users items) := by
  intro e he f hf hkey
  obtain ⟨i, hi, he⟩ := mem_entries.mp he
  obtain ⟨j, hj, hf⟩ := mem_entries.mp hf
  obtain ⟨huser, hpublicKey⟩ := h.same hi hj he hf hkey
  obtain ⟨heuser, -, -, hekey⟩ := PasskeyItem.entry_eq_some.mp he
  obtain ⟨hfuser, -, -, hfkey⟩ := PasskeyItem.entry_eq_some.mp hf
  have howner : f.value.1 = e.value.1 :=
    Option.some.inj (Except.ok.inj (hfuser.symm.trans (huser ▸ heuser)))
  exact Prod.ext howner.symm (by rw [← hekey, hpublicKey, hfkey])

/-- Items that were read leave the same items to be read: the passkeys they stored are
those of keys that could be read. -/
theorem importable_merged (h : ItemsAgree items) {item : PasskeyItem} (hitem : item ∈ items)
    (hsub : items' ⊆ items) (hread : ∀ i ∈ items', i.Importable lib users m) :
    item.Importable lib users (mergeAll m (entries lib users items')) ↔
      item.Importable lib users m := by
  refine or_congr_right (exists_congr fun e => and_congr_right fun he => ?_)
  rw [isSome_mergeAll]
  constructor
  · rintro ((hthere | ⟨f, hf, hkey⟩) | hkeyed)
    · exact Or.inl hthere
    · obtain ⟨i, hi, hf⟩ := mem_entries.mp hf
      obtain ⟨-, hsame⟩ := h.same (hsub hi) hitem hf he hkey
      rcases hread i hi with hskipped | ⟨f', hf', hthere⟩
      · rw [(PasskeyItem.entry_eq_some.mp hf).1] at hskipped
        cases hskipped
      · rw [hf, Option.some.injEq] at hf'
        subst hf'
        rwa [hkey, hsame] at hthere
    · exact Or.inr hkeyed
  · rintro (hthere | hkeyed)
    · exact Or.inl (Or.inl hthere)
    · exact Or.inr hkeyed

theorem importItem_cases (item : PasskeyItem) (counts : ImportCounts)
    (husers : ∀ u ∈ users, (t.db.users.get u).isSome) :
    (item.Importable lib users t.db.passkeys ∧ ∃ counts' t',
      (importItem lib users counts item).run t = (.ok counts', t') ∧
      t'.db.passkeys = mergeAll t.db.passkeys (entries lib users [item]) ∧
      OnlyPasskeys t.db t'.db) ∨
    (¬ item.Importable lib users t.db.passkeys ∧
      ∃ e t', (importItem lib users counts item).run t = (.error e, t')) := by
  have hentries : entries lib users [item] = (item.entry lib users).toList := by
    cases hentry : item.entry lib users <;> simp [entries, hentry]
  rw [hentries]
  cases huser : item.user users with
  | error e =>
      refine Or.inr ⟨?_, _, _, run_bind_of_error (run_orRaise_error huser)⟩
      simp [PasskeyItem.Importable, PasskeyItem.entry, huser]
  | ok owner =>
      cases owner with
      | none =>
          have hnone : item.entry lib users = none := by simp [PasskeyItem.entry, huser]
          exact Or.inl ⟨Or.inl huser, _, t, importItem_skipped huser, by simp [hnone], rfl⟩
      | some userId => exact importItem_listed counts husers huser

/-- The loop reads every item and merges what they say, or raises. -/
theorem importItems_cases (counts : ImportCounts)
    (husers : ∀ u ∈ users, (t.db.users.get u).isSome) (h : ItemsAgree items) :
    ((∀ item ∈ items, item.Importable lib users t.db.passkeys) ∧ ∃ counts' t',
      (importItems lib users counts items).run t = (.ok counts', t') ∧
      t'.db.passkeys = mergeAll t.db.passkeys (entries lib users items) ∧
      OnlyPasskeys t.db t'.db) ∨
    (¬ (∀ item ∈ items, item.Importable lib users t.db.passkeys) ∧
      ∃ e t', (importItems lib users counts items).run t = (.error e, t')) := by
  induction items generalizing t counts with
  | nil => exact Or.inl ⟨by simp, counts, t, rfl, rfl, rfl⟩
  | cons item rest ih =>
      have hrest : ItemsAgree rest := h.subset (List.subset_cons_self ..)
      rw [importItems]
      rcases importItem_cases item counts husers with
        ⟨hread, counts', mid, hrun, hmid, honly⟩ | ⟨hunread, e, t', hrun⟩
      · have hsame : ∀ i ∈ rest, i.Importable lib users mid.db.passkeys ↔
            i.Importable lib users t.db.passkeys := fun i hi => by
          rw [hmid]
          exact importable_merged h (List.mem_cons_of_mem _ hi) (by simp) (by simpa using hread)
        have husers' : ∀ u ∈ users, (mid.db.users.get u).isSome := by
          rw [honly.users]
          exact husers
        rw [run_bind_of_ok hrun, List.forall_mem_cons]
        rcases ih counts' husers' hrest with
          ⟨hall, counts'', t', hrun', hafter, honly'⟩ | ⟨hsome, e, t', hrun'⟩
        · refine Or.inl ⟨⟨hread, fun i hi => (hsame i hi).mp (hall i hi)⟩, counts'', t', hrun', ?_,
            honly.trans honly'⟩
          rw [hafter, hmid, ← mergeAll_append, entries, entries, ← List.filterMap_append]
          rfl
        · exact Or.inr ⟨fun hall => hsome fun i hi => (hsame i hi).mpr (hall.2 i hi), e, t', hrun'⟩
      · exact Or.inr ⟨fun hall => hunread (hall item (List.mem_cons_self ..)), e, t',
          run_bind_of_error hrun⟩

/-! ## The whole import -/

theorem isSome_of_mem_userIds {db : Db} : ∀ u ∈ userIds db, (db.users.get u).isSome := by
  intro u hu
  obtain ⟨user, huser, rfl⟩ := List.mem_map.mp hu
  rw [Table.get_of_mem huser]
  rfl

theorem importPasskeys_cases (lib : Library) (h : ItemsAgree items) (t : World) :
    ((∀ item ∈ items, item.Importable lib (userIds t.db) t.db.passkeys) ∧ ∃ counts t',
      (importPasskeys lib items).run t = (.ok counts, t') ∧
      t'.db.passkeys = mergeAll t.db.passkeys (entries lib (userIds t.db) items) ∧
      OnlyPasskeys t.db t'.db) ∨
    (¬ (∀ item ∈ items, item.Importable lib (userIds t.db) t.db.passkeys) ∧
      ∃ e t', (importPasskeys lib items).run t = (.error e, t') ∧ t'.db = t.db) := by
  have hinner : ∀ f : List String → Script ImportCounts,
      (read userIds >>= f).run t = (f (userIds t.db)).run t := fun f =>
    run_bind_of_ok (run_read ..)
  rcases importItems_cases ⟨0, 0, 0⟩ isSome_of_mem_userIds h with
    ⟨hall, counts, t', hrun, hafter⟩ | ⟨hsome, e, t', hrun⟩
  · exact Or.inl ⟨hall, counts, t', run_transaction_ok ((hinner _).trans hrun), hafter⟩
  · exact Or.inr ⟨hsome, e, _, run_transaction_error ((hinner _).trans hrun), rfl⟩

/-- The state an import leaves, whether it returns or raises. -/
def imported (lib : Library) (items : List PasskeyItem) (t : World) : World :=
  ((importPasskeys lib items).run t).2

open Classical in
/-- What an import merges: all its items, or none. -/
noncomputable def taken (lib : Library) (users : List String)
    (m : String → Option ((String × Bytes) × ℤ)) (items : List PasskeyItem) :
    List (Entry String (String × Bytes) ℤ) :=
  if ∀ item ∈ items, item.Importable lib users m then entries lib users items else []

theorem onlyPasskeys_imported (lib : Library) (h : ItemsAgree items) (t : World) :
    OnlyPasskeys t.db (imported lib items t).db := by
  rcases importPasskeys_cases lib h t with ⟨-, counts, t', hrun, -, honly⟩ |
    ⟨-, e, t', hrun, hdb⟩
  · rwa [imported, hrun]
  · rw [imported, hrun, hdb]
    rfl

theorem passkeys_imported (h : ItemsAgree items) (t : World) :
    (imported lib items t).db.passkeys =
      mergeAll t.db.passkeys (taken lib (userIds t.db) t.db.passkeys items) := by
  rcases importPasskeys_cases lib h t with ⟨hall, counts, t', hrun, hafter, -⟩ |
    ⟨hsome, e, t', hrun, hdb⟩
  · rwa [imported, hrun, taken, if_pos hall]
  · rw [imported, hrun, hdb, taken, if_neg hsome, mergeAll_nil]

theorem userIds_imported (h : ItemsAgree items) (t : World) :
    userIds (imported lib items t).db = userIds t.db := by
  rw [userIds, (onlyPasskeys_imported lib h t).users, userIds]

theorem taken_subset : taken lib users m items ⊆ entries lib users items := by
  unfold taken
  split
  · exact List.Subset.refl _
  · exact List.nil_subset _

/-- An import does not change what a second one takes. -/
theorem taken_merged (h : ItemsAgree (items ++ items')) :
    taken lib users (mergeAll m (taken lib users m items)) items' = taken lib users m items' := by
  by_cases hall : ∀ item ∈ items, item.Importable lib users m
  · have hsame : (∀ item ∈ items', item.Importable lib users
        (mergeAll m (entries lib users items))) ↔ ∀ item ∈ items', item.Importable lib users m :=
      forall₂_congr fun item hitem => importable_merged h (List.mem_append_right _ hitem)
        (List.subset_append_left ..) hall
    rw [taken, taken, if_pos hall, taken]
    classical exact if_congr hsame rfl rfl
  · rw [taken, taken, if_neg hall, mergeAll_nil, taken]

theorem taken_perm (hperm : items.Perm items') :
    (taken lib users m items).Perm (taken lib users m items') := by
  have hsame : (∀ item ∈ items, item.Importable lib users m) ↔
      ∀ item ∈ items', item.Importable lib users m := by
    simp only [hperm.mem_iff]
  by_cases hall : ∀ item ∈ items, item.Importable lib users m
  · rw [taken, taken, if_pos hall, if_pos (hsame.mp hall)]
    exact hperm.filterMap _
  · rw [taken, taken, if_neg hall, if_neg (mt hsame.mpr hall)]

/-! ## The merge -/

/-- Two databases with the same rows; passkeys may stand in another order. -/
structure SameRows (db db' : Db) : Prop where
  elsewhere : OnlyPasskeys db db'
  passkeys : ∀ credentialId,
    db'.webauthnCredentials.get credentialId = db.webauthnCredentials.get credentialId

/-- An item lists a passkey of a user who is there. -/
def PasskeyItem.Lists (item : PasskeyItem) (db : Db) (credentialId : String) : Prop :=
  item.credentialId = some credentialId ∧
    ∃ userId, item.userId = some (.str userId) ∧ (db.users.get userId).isSome

/-- An item of a user who is not there. -/
def PasskeyItem.isSkipped (users : List String) (item : PasskeyItem) : Bool :=
  match item.user users with
  | .ok none => true
  | _ => false

/-- The second database has the passkeys of the first one and the listed ones, each with
the highest of its counters. -/
structure Merged (lib : Library) (items : List PasskeyItem) (db db' : Db) : Prop where
  elsewhere : OnlyPasskeys db db'
  ids : ∀ credentialId, (db'.webauthnCredentials.get credentialId).isSome ↔
    (db.webauthnCredentials.get credentialId).isSome ∨ ∃ item ∈ items, item.Lists db credentialId
  kept : ∀ row ∈ db.webauthnCredentials,
    ∃ signCount, row.signCount ≤ signCount ∧ { row with signCount } ∈ db'.webauthnCredentials
  new : ∀ row ∈ db'.webauthnCredentials, db.webauthnCredentials.get row.credentialId = none →
    ∃ item ∈ items, item.credentialId = some row.credentialId ∧
      item.userId = some (.str row.userId) ∧ item.key = .ok row.publicKey
  count : ∀ row ∈ db'.webauthnCredentials, IsGreatest
    {n | (∃ old ∈ db.webauthnCredentials,
        old.credentialId = row.credentialId ∧ old.signCount = n) ∨
      ∃ item ∈ items, item.Lists db row.credentialId ∧ item.count lib = .ok n} row.signCount

/-- The import returns. -/
def Returns (lib : Library) (items : List PasskeyItem) (t : World) : Prop :=
  ∃ counts t', (importPasskeys lib items).run t = (.ok counts, t')

theorem mem_userIds {db : Db} {userId : String} :
    userId ∈ userIds db ↔ (db.users.get userId).isSome := by
  refine ⟨isSome_of_mem_userIds userId, fun hthere => ?_⟩
  obtain ⟨user, huser⟩ := Option.isSome_iff_exists.mp hthere
  exact List.mem_map.mpr ⟨user, Table.mem_of_get huser, Table.key_of_get huser⟩

theorem mem_iff_passkeys {db : Db} {row : WebAuthnCredential} :
    row ∈ db.webauthnCredentials ↔
      db.passkeys row.credentialId = some ((row.userId, row.publicKey), row.signCount) := by
  rw [Table.mem_iff_get, Db.passkeys, Option.map_eq_some_iff]
  constructor
  · intro hget
    exact ⟨row, hget, rfl⟩
  · rintro ⟨row', hget, hsame⟩
    have hid := Table.key_of_get hget
    obtain ⟨id, userId, publicKey, signCount⟩ := row
    obtain ⟨id', userId', publicKey', signCount'⟩ := row'
    cases hsame
    cases hid
    exact hget

theorem isSome_passkeys {db : Db} {credentialId : String} :
    (db.passkeys credentialId).isSome ↔ (db.webauthnCredentials.get credentialId).isSome := by
  simp [Db.passkeys]

theorem count_stored {db : Db} {credentialId : String} {n : ℤ} :
    (∃ key, db.passkeys credentialId = some (key, n)) ↔
      ∃ old ∈ db.webauthnCredentials, old.credentialId = credentialId ∧ old.signCount = n := by
  constructor
  · rintro ⟨key, hkey⟩
    obtain ⟨old, hold, hsame⟩ := Option.map_eq_some_iff.mp hkey
    cases hsame
    exact ⟨old, Table.mem_of_get hold, Table.key_of_get hold, rfl⟩
  · rintro ⟨old, hold, rfl, rfl⟩
    exact ⟨_, mem_iff_passkeys.mp hold⟩

theorem get_of_passkeys {db db' : Db} (h : db'.passkeys = db.passkeys) (credentialId : String) :
    db'.webauthnCredentials.get credentialId = db.webauthnCredentials.get credentialId := by
  have hmem : ∀ row, row ∈ db'.webauthnCredentials ↔ row ∈ db.webauthnCredentials := fun row => by
    rw [mem_iff_passkeys, mem_iff_passkeys, h]
  refine Option.ext fun row => ?_
  rw [Table.get_eq_some, Table.get_eq_some, hmem]

theorem OnlyPasskeys.sameRows {db db' db'' : Db} (h : OnlyPasskeys db db')
    (h' : OnlyPasskeys db db'') (hpasskeys : db''.passkeys = db'.passkeys) : SameRows db' db'' where
  elsewhere := by
    unfold OnlyPasskeys at *
    rw [h, h']
  passkeys := get_of_passkeys hpasskeys

/-- An item that was read lists a passkey exactly when it says something of it. -/
theorem PasskeyItem.Importable.lists_iff {db : Db} {credentialId : String}
    (h : item.Importable lib (userIds db) m) : item.Lists db credentialId ↔
      ∃ e, item.entry lib (userIds db) = some e ∧ e.key = credentialId := by
  constructor
  · rintro ⟨hid, userId, huserId, hthere⟩
    have huser : item.user (userIds db) = .ok (some userId) :=
      PasskeyItem.user_eq_some.mpr ⟨huserId, mem_userIds.mpr hthere⟩
    rcases h with hskipped | ⟨e, he, -⟩
    · rw [huser] at hskipped
      cases hskipped
    · have hkey := (PasskeyItem.entry_eq_some.mp he).2.1
      rw [hid, Option.some.injEq] at hkey
      exact ⟨e, he, hkey.symm⟩
  · rintro ⟨e, he, rfl⟩
    obtain ⟨huser, hid, -⟩ := PasskeyItem.entry_eq_some.mp he
    obtain ⟨huserId, hmem⟩ := PasskeyItem.user_eq_some.mp huser
    exact ⟨hid, _, huserId, mem_userIds.mp hmem⟩

theorem merged_of_passkeys {db db' : Db}
    (hall : ∀ item ∈ items, item.Importable lib (userIds db) db.passkeys)
    (hpasskeys : db'.passkeys = mergeAll db.passkeys (entries lib (userIds db) items))
    (honly : OnlyPasskeys db db') : Merged lib items db db' where
  elsewhere := honly
  ids credentialId := by
    rw [← isSome_passkeys, ← isSome_passkeys, hpasskeys, isSome_mergeAll]
    refine or_congr_right ⟨?_, ?_⟩
    · rintro ⟨e, he, hkey⟩
      obtain ⟨item, hitem, he⟩ := mem_entries.mp he
      exact ⟨item, hitem, (hall item hitem).lists_iff.mpr ⟨e, he, hkey⟩⟩
    · rintro ⟨item, hitem, hlists⟩
      obtain ⟨e, he, hkey⟩ := (hall item hitem).lists_iff.mp hlists
      exact ⟨e, mem_entries.mpr ⟨item, hitem, he⟩, hkey⟩
  kept row hrow := by
    obtain ⟨signCount, hafter, hle⟩ :=
      mergeAll_kept (entries lib (userIds db) items) (mem_iff_passkeys.mp hrow)
    exact ⟨signCount, hle, mem_iff_passkeys.mpr (by rw [hpasskeys, hafter])⟩
  new row hrow hfree := by
    have hnew : db.passkeys row.credentialId = none := by rw [Db.passkeys, hfree]; rfl
    rw [mem_iff_passkeys, hpasskeys] at hrow
    obtain ⟨e, he, hkey, hvalue⟩ := mergeAll_new hnew hrow
    obtain ⟨item, hitem, he⟩ := mem_entries.mp he
    obtain ⟨huser, hid, -, hpublicKey⟩ := PasskeyItem.entry_eq_some.mp he
    rw [hvalue] at huser hpublicKey
    refine ⟨item, hitem, hkey ▸ hid, (PasskeyItem.user_eq_some.mp huser).1, ?_⟩
    -- the key of a passkey that was not there was read
    rcases hall item hitem with hskipped | ⟨e', he', hthere | ⟨key, hread⟩⟩
    · rw [huser] at hskipped
      cases hskipped
    · rw [he, Option.some.injEq] at he'
      rw [← he', hkey, hnew] at hthere
      cases hthere
    · rw [hread] at hpublicKey ⊢
      exact congrArg Except.ok hpublicKey
  count row hrow := by
    rw [mem_iff_passkeys, hpasskeys] at hrow
    have hcounts : counts db.passkeys (entries lib (userIds db) items) row.credentialId =
        {n | (∃ old ∈ db.webauthnCredentials,
            old.credentialId = row.credentialId ∧ old.signCount = n) ∨
          ∃ item ∈ items, item.Lists db row.credentialId ∧ item.count lib = .ok n} := by
      ext n
      refine or_congr count_stored ⟨?_, ?_⟩
      · rintro ⟨e, he, hkey, rfl⟩
        obtain ⟨item, hitem, he⟩ := mem_entries.mp he
        exact ⟨item, hitem, (hall item hitem).lists_iff.mpr ⟨e, he, hkey⟩,
          (PasskeyItem.entry_eq_some.mp he).2.2.1⟩
      · rintro ⟨item, hitem, hlists, hcount⟩
        obtain ⟨e, he, hkey⟩ := (hall item hitem).lists_iff.mp hlists
        rw [(PasskeyItem.entry_eq_some.mp he).2.2.1, Except.ok.injEq] at hcount
        exact ⟨e, mem_entries.mpr ⟨item, hitem, he⟩, hkey, hcount⟩
    exact hcounts ▸ mergeAll_greatest hrow

/-- Two imports that leave the same rows, or both raise. -/
structure SameImport (lib : Library) (items items' : List PasskeyItem) (t : World) : Prop where
  returns : Returns lib items' t ↔ Returns lib items t
  rows : SameRows (imported lib items t).db (imported lib items' t).db

theorem returns_iff (h : ItemsAgree items) :
    Returns lib items t ↔ ∀ item ∈ items, item.Importable lib (userIds t.db) t.db.passkeys := by
  rcases importPasskeys_cases lib h t with ⟨hall, counts, t', hrun, -⟩ |
    ⟨hsome, e, t', hrun, -⟩
  · exact iff_of_true ⟨counts, t', hrun⟩ hall
  · refine iff_of_false ?_ hsome
    rintro ⟨counts, t'', hrun'⟩
    rw [hrun] at hrun'
    cases hrun'

/-- The order of the items is of no account. -/
theorem sameImport_perm (h : ItemsAgree items) (hperm : items.Perm items') :
    SameImport lib items items' t := by
  have h' : ItemsAgree items' := h.subset hperm.symm.subset
  refine ⟨?_, (onlyPasskeys_imported lib h t).sameRows (onlyPasskeys_imported lib h' t) ?_⟩
  · rw [returns_iff h, returns_iff h']
    simp only [hperm.mem_iff]
  · have hvalue : OneValue (taken lib (userIds t.db) t.db.passkeys items') :=
      fun e he f hf => oneValue_entries lib _ h' e (taken_subset he) f (taken_subset hf)
    rw [passkeys_imported h, passkeys_imported h']
    exact mergeAll_perm hvalue (taken_perm hperm).symm

theorem PasskeyItem.isSkipped_iff :
    item.isSkipped users = true ↔ item.user users = .ok none := by
  unfold PasskeyItem.isSkipped
  split
  · next huser => exact iff_of_true rfl huser
  · next hother => exact iff_of_false Bool.false_ne_true hother

/-- Items of users who are not there change nothing. -/
theorem sameImport_skipped (h : ItemsAgree items) :
    SameImport lib items (items.filter fun item => !item.isSkipped (userIds t.db)) t := by
  have h' : ItemsAgree (items.filter fun item => !item.isSkipped (userIds t.db)) :=
    h.subset fun _ hitem => List.mem_of_mem_filter hitem
  have hall : (∀ item ∈ items.filter (fun item => !item.isSkipped (userIds t.db)),
      item.Importable lib (userIds t.db) t.db.passkeys) ↔
      ∀ item ∈ items, item.Importable lib (userIds t.db) t.db.passkeys := by
    constructor
    · intro hkept item hitem
      cases hskipped : item.isSkipped (userIds t.db) with
      | true => exact Or.inl (PasskeyItem.isSkipped_iff.mp hskipped)
      | false => exact hkept item (List.mem_filter.mpr ⟨hitem, by rw [hskipped]; rfl⟩)
    · intro hall item hitem
      exact hall item (List.mem_of_mem_filter hitem)
  have hentries : entries lib (userIds t.db)
      (items.filter fun item => !item.isSkipped (userIds t.db)) =
        entries lib (userIds t.db) items := by
    unfold entries
    rw [List.filterMap_filter]
    refine List.filterMap_congr fun item _ => ?_
    cases hskipped : item.isSkipped (userIds t.db) with
    | true => simp [PasskeyItem.entry, PasskeyItem.isSkipped_iff.mp hskipped]
    | false => rfl
  refine ⟨by rw [returns_iff h, returns_iff h', hall],
    (onlyPasskeys_imported lib h t).sameRows (onlyPasskeys_imported lib h' t) ?_⟩
  rw [passkeys_imported h, passkeys_imported h', taken, taken, hentries]
  classical exact congrArg _ (if_congr hall rfl rfl)

/-- An import after another one. -/
theorem passkeys_imported_imported (h : ItemsAgree (items ++ items')) (t : World) :
    (imported lib items' (imported lib items t)).db.passkeys =
      mergeAll t.db.passkeys (taken lib (userIds t.db) t.db.passkeys items ++
        taken lib (userIds t.db) t.db.passkeys items') := by
  have hfirst : ItemsAgree items := h.subset (List.subset_append_left ..)
  have hsecond : ItemsAgree items' := h.subset (List.subset_append_right ..)
  rw [passkeys_imported hsecond, userIds_imported hfirst, passkeys_imported hfirst, taken_merged h,
    mergeAll_append]

theorem ItemsAgree.twice (h : ItemsAgree items) : ItemsAgree (items ++ items) :=
  h.subset (by simp)

/-- A second import of the same items changes nothing. -/
theorem sameRows_again (h : ItemsAgree items) (t : World) :
    SameRows (imported lib items t).db (imported lib items (imported lib items t)).db := by
  have honly := onlyPasskeys_imported lib h
  refine (honly t).sameRows ((honly t).trans (honly _)) ?_
  rw [passkeys_imported_imported h.twice, mergeAll_append, mergeAll_again, passkeys_imported h]

/-- Two lists may be imported in either order. -/
theorem sameRows_eitherOrder (h : ItemsAgree (items ++ items')) (t : World) :
    SameRows (imported lib items' (imported lib items t)).db
      (imported lib items (imported lib items' t)).db := by
  have hfirst : ItemsAgree items := h.subset (List.subset_append_left ..)
  have hsecond : ItemsAgree items' := h.subset (List.subset_append_right ..)
  have h' : ItemsAgree (items' ++ items) := h.subset (by simp)
  have honly := onlyPasskeys_imported lib hfirst
  have honly' := onlyPasskeys_imported lib hsecond
  refine ((honly t).trans (honly' _)).sameRows ((honly' t).trans (honly _)) ?_
  rw [passkeys_imported_imported h, passkeys_imported_imported h']
  refine mergeAll_perm ?_ List.perm_append_comm
  have hvalue := oneValue_entries lib (userIds t.db) h'
  have hsub : taken lib (userIds t.db) t.db.passkeys items' ++
      taken lib (userIds t.db) t.db.passkeys items ⊆
        entries lib (userIds t.db) (items' ++ items) := by
    rw [entries, List.filterMap_append]
    exact List.append_subset.mpr ⟨List.subset_append_of_subset_left _ taken_subset,
      List.subset_append_of_subset_right _ taken_subset⟩
  exact fun e he f hf => hvalue e (hsub he) f (hsub hf)

/-! ## Export and import -/

theorem b64decode_b64encode (data : Bytes) : b64decode (.str (b64encode data)) = .ok data := by
  have halphabet : ∀ n < 64, (standard.char n).toNat < 128 := by decide
  have hascii : isAscii (b64encode data) = true := by
    simp only [isAscii, b64encode, String.toList_ofList, Alphabet.encode, List.all_append,
      Bool.and_eq_true, List.all_eq_true, decide_eq_true_eq]
    refine ⟨fun c hc => ?_, fun c hc => ?_⟩
    · obtain ⟨n, hn, rfl⟩ := Alphabet.mem_data hc
      exact halphabet n hn
    · rw [(List.mem_replicate.mp hc).2]
      decide
  rw [b64decode, hascii, if_pos rfl, b64encode, String.toList_ofList, Alphabet.decode_encode]
  rfl

/-- The item that stands for a row. -/
def exportedItem (row : WebAuthnCredential) : PasskeyItem :=
  ⟨some row.credentialId, some (.str row.userId), some (.str (b64encode row.publicKey)),
    some (.int row.signCount)⟩

def rowEntry (row : WebAuthnCredential) : Entry String (String × Bytes) ℤ :=
  ⟨row.credentialId, (row.userId, row.publicKey), row.signCount⟩

theorem entry_exportedItem {row : WebAuthnCredential} (huser : row.userId ∈ users) :
    (exportedItem row).entry lib users = some (rowEntry row) := by
  rw [PasskeyItem.entry_eq_some]
  refine ⟨PasskeyItem.user_eq_some.mpr ⟨rfl, huser⟩, rfl, rfl, ?_⟩
  have hkey : (exportedItem row).key = .ok row.publicKey := b64decode_b64encode row.publicKey
  rw [hkey]
  rfl

/-- What an export of a database writes. -/
def exportedItems (source : World) : List PasskeyItem :=
  source.db.webauthnCredentials.rows.map exportedItem

theorem run_exportPasskeys (source : World) :
    exportPasskeys.run source = (.ok (exportedItems source), source) := rfl

/-- The import returns, and the passkeys of the source are there. -/
structure Restored (lib : Library) (items : List PasskeyItem) (source t : World) : Prop where
  returns : Returns lib items t
  elsewhere : OnlyPasskeys t.db (imported lib items t).db
  passkeys : ∀ credentialId, (imported lib items t).db.webauthnCredentials.get credentialId =
    source.db.webauthnCredentials.get credentialId

theorem itemsAgree_exported {source : World} (hperm : items.Perm (exportedItems source)) :
    ItemsAgree items := by
  intro i hi j hj id hid hid'
  obtain ⟨row, hrow, rfl⟩ := List.mem_map.mp (hperm.subset hi)
  obtain ⟨row', hrow', rfl⟩ := List.mem_map.mp (hperm.subset hj)
  have hsame : row.credentialId = row'.credentialId := Option.some.inj (hid.trans hid'.symm)
  rw [Table.eq_of_key_eq hrow hrow' hsame]
  exact ⟨rfl, rfl⟩

/-- Exported passkeys come back into a database that has their users and no passkeys. -/
theorem restored_of_exported {source : World} (hperm : items.Perm (exportedItems source))
    (husers : ∀ row ∈ source.db.webauthnCredentials, (t.db.users.get row.userId).isSome)
    (hnone : ∀ credentialId, t.db.webauthnCredentials.get credentialId = none) :
    Restored lib items source t := by
  have hagree : ItemsAgree items := itemsAgree_exported hperm
  have hentry : ∀ row ∈ source.db.webauthnCredentials,
      (exportedItem row).entry lib (userIds t.db) = some (rowEntry row) := fun row hrow =>
    entry_exportedItem (mem_userIds.mpr (husers row hrow))
  have hall : ∀ item ∈ items, item.Importable lib (userIds t.db) t.db.passkeys := by
    intro item hitem
    obtain ⟨row, hrow, rfl⟩ := List.mem_map.mp (hperm.subset hitem)
    exact Or.inr ⟨_, hentry row hrow, Or.inr ⟨_, b64decode_b64encode row.publicKey⟩⟩
  have hentries : (entries lib (userIds t.db) items).Perm
      (source.db.webauthnCredentials.rows.map rowEntry) := by
    refine (hperm.filterMap _).trans (List.Perm.of_eq ?_)
    rw [exportedItems, List.filterMap_map, ← List.filterMap_eq_map]
    exact List.filterMap_congr fun row hrow => hentry row hrow
  refine ⟨(returns_iff hagree).mpr hall, onlyPasskeys_imported lib hagree t, get_of_passkeys ?_⟩
  have hempty : t.db.passkeys = fun _ => none := by
    funext credentialId
    rw [Db.passkeys, hnone]
    rfl
  have hkeys : ((source.db.webauthnCredentials.rows.map rowEntry).map Entry.key).Nodup := by
    rw [List.map_map]
    exact source.db.webauthnCredentials.nodup
  rw [passkeys_imported hagree, taken, if_pos hall,
    mergeAll_perm (oneValue_entries lib _ hagree) hentries, hempty]
  funext credentialId
  refine Option.ext fun ⟨⟨userId, publicKey⟩, signCount⟩ => ?_
  rw [mergeAll_empty hkeys, List.mem_map]
  constructor
  · rintro ⟨row, hrow, hsame⟩
    cases hsame
    exact mem_iff_passkeys.mp hrow
  · intro hpasskey
    obtain ⟨row, hrow, hsame⟩ := Option.map_eq_some_iff.mp hpasskey
    cases hsame
    exact ⟨row, Table.mem_of_get hrow, by rw [rowEntry, Table.key_of_get hrow]⟩

/-- What is asked of imports of two lists. -/
structure ImportMerges (lib : Library) (items items' : List PasskeyItem) (t : World) : Prop where
  merged : ∀ counts t', (importPasskeys lib items).run t = (.ok counts, t') →
    Merged lib items t.db t'.db
  undone : ∀ e t', (importPasskeys lib items).run t = (.error e, t') → t'.db = t.db
  anyOrder : ∀ other, items.Perm other → SameImport lib items other t
  again : SameRows (imported lib items t).db (imported lib items (imported lib items t)).db
  eitherOrder : SameRows (imported lib items' (imported lib items t)).db
    (imported lib items (imported lib items' t)).db
  skipped : SameImport lib items (items.filter fun item => !item.isSkipped (userIds t.db)) t

/-- **The import of passkeys is a merge.**  It adds the passkeys of users who are there, and
keeps of every passkey whose it is, its key and the highest counter; or it raises, and changes
nothing.  Neither the order of items nor that of imports matters, nor an item of a user who
is not there.  What was exported comes back into a database with the same users. -/
theorem passkey_import_merges (lib : Library) (t : World) :
    (∀ items items', ItemsAgree (items ++ items') → ImportMerges lib items items' t) ∧
    ∀ source, (∀ row ∈ source.db.webauthnCredentials, (source.db.users.get row.userId).isSome) →
      (∀ userId, (t.db.users.get userId).isSome = (source.db.users.get userId).isSome) →
      (∀ credentialId, t.db.webauthnCredentials.get credentialId = none) →
      ∃ exported, exportPasskeys.run source = (.ok exported, source) ∧
        ∀ items : List PasskeyItem, items.Perm exported → Restored lib items source t := by
  constructor
  · intro items items' h
    have hfirst : ItemsAgree items := h.subset (List.subset_append_left ..)
    refine ⟨fun counts t' hrun => ?_, fun e t' hrun => transaction_db_of_error hrun,
      fun other hperm => sameImport_perm hfirst hperm, sameRows_again hfirst t,
      sameRows_eitherOrder h t, sameImport_skipped hfirst⟩
    rcases importPasskeys_cases lib hfirst t with
      ⟨hall, counts', t'', hrun', hpasskeys, honly⟩ | ⟨-, e, t'', hrun', -⟩
    · rw [hrun] at hrun'
      cases hrun'
      exact merged_of_passkeys hall hpasskeys honly
    · rw [hrun] at hrun'
      cases hrun'
  · intro source hreferences husers hnone
    refine ⟨_, run_exportPasskeys source, fun items hperm => ?_⟩
    refine restored_of_exported hperm (fun row hrow => ?_) hnone
    rw [husers]
    exact hreferences row hrow

/-- A passkey of Ana's that is listed with some counter. -/
def PasskeyItem.laptop (signCount : ℤ) : PasskeyItem :=
  ⟨some "laptop", some (.str "usr_ana"), some (.str "AQID"), some (.int signCount)⟩

/-- Two files with a passkey of Ana's, one of them twice, and what it is like to restore it. -/
theorem passkey_import_merges_laptop :
    ImportMerges .standIn [.laptop 3, .laptop 5] [.laptop 4] ⟨.standIn, [], []⟩ ∧
      ∃ exported, exportPasskeys.run (imported .standIn [.laptop 3] ⟨.standIn, [], []⟩) =
          (.ok exported, imported .standIn [.laptop 3] ⟨.standIn, [], []⟩) ∧
        ∀ items : List PasskeyItem, items.Perm exported → Restored .standIn items
          (imported .standIn [.laptop 3] ⟨.standIn, [], []⟩) ⟨.standIn, [], []⟩ := by
  refine ⟨(passkey_import_merges .standIn ⟨.standIn, [], []⟩).1 _ _ ?_,
    (passkey_import_merges .standIn ⟨.standIn, [], []⟩).2 _ ?_ ?_ ?_⟩
  · intro i hi j hj id hid hid'
    simp only [List.cons_append, List.nil_append, List.mem_cons, List.not_mem_nil,
      or_false] at hi hj
    rcases hi with rfl | rfl | rfl <;> rcases hj with rfl | rfl | rfl <;> exact ⟨rfl, rfl⟩
  · decide +kernel
  · intro userId
    rfl
  · intro credentialId
    rfl

end RbaIdp
