import RbaIdp.Blindness

/-!
# What sign-in leaves of a tenant's users

Sessions, codes, challenges and passkeys belong to the tenant of their user.  A
statement on one of these tables is about the tenant of the row it inserts, or of the
row its key names (`ArtefactWrite.tenant`).  It keeps two states with the same rows of
that tenant in agreement (`agree_artefact`), and leaves the rows of every other tenant
as they are (`agree_elsewhere`).

Rows of a tenant are compared as sets.  The passkeys of a user are handed out in the
order of their table, so `Indistinct` asks for the same order of them besides.
-/

namespace RbaIdp

open Relational

variable {db db' : Db} {tenantId : String}

/-! ## Whose a row is -/

namespace Db

variable (db : Db)

def sessionTenant (tokenHash : String) : Option String :=
  (db.sessions.get tokenHash).bind fun r => db.userTenant r.userId

def activationTenant (codeHash : String) : Option String :=
  (db.activationCodes.get codeHash).bind fun r => db.userTenant r.userId

def challengeTenant (challengeId : String) : Option String :=
  (db.mfaChallenges.get challengeId).bind fun r => db.userTenant r.userId

def credentialTenant (credentialId : String) : Option String :=
  (db.webauthnCredentials.get credentialId).bind fun r => db.userTenant r.userId

def codeTenant (codeHash : String) : Option String :=
  (db.authCodes.get codeHash).bind fun r => db.userTenant r.userId

/-- The passkeys of a tenant's users, in the order of the table. -/
def passkeysOf (tenantId : String) : List WebAuthnCredential :=
  db.webauthnCredentials.select fun c => db.userTenant c.userId == some tenantId

end Db

/-- The tenant a statement is about. -/
def ArtefactWrite.tenant (db : Db) : ArtefactWrite → Option String
  | .insertSession row => db.userTenant row.userId
  | .deleteSession tokenHash | .lapseOffer tokenHash | .setSessionNonce tokenHash _ =>
      db.sessionTenant tokenHash
  | .insertActivationCode row => db.userTenant row.userId
  | .supersedeActivationCodes userId _ => db.userTenant userId
  | .consumeActivationCode codeHash _ | .setActivationNonce codeHash _ =>
      db.activationTenant codeHash
  | .insertChallenge row => db.userTenant row.userId
  | .consumeChallenge challengeId _ | .setChallengeNonce challengeId _ _ =>
      db.challengeTenant challengeId
  | .insertCredential row => db.userTenant row.userId
  | .setSignCount credentialId _ => db.credentialTenant credentialId
  | .insertAuthCode row => db.userTenant row.userId
  | .consumeAuthCode codeHash _ => db.codeTenant codeHash

/-- The key of the row a statement inserts is nobody's. -/
def ArtefactWrite.Free (db : Db) : ArtefactWrite → Prop
  | .insertSession row => db.sessions.get row.tokenHash = none
  | .insertActivationCode row => db.activationCodes.get row.codeHash = none
  | .insertChallenge row => db.mfaChallenges.get row.challengeId = none
  | .insertCredential row => db.webauthnCredentials.get row.credentialId = none
  | .insertAuthCode row => db.authCodes.get row.codeHash = none
  | _ => True

/-! ## Agreement, seen by key -/

theorem userTenant_agree (h : Agree tenantId db db') {userId : String} :
    db.userTenant userId = some tenantId ↔ db'.userTenant userId = some tenantId := by
  have hforth : ∀ {db db' : Db}, Agree tenantId db db' → db.userTenant userId = some tenantId →
      db'.userTenant userId = some tenantId := by
    intro db db' h hown
    obtain ⟨row, hget, htenant⟩ := Option.map_eq_some_iff.mp hown
    rw [Directory.userTenant, h.users.get_some hget htenant, Option.map_some, htenant]
  exact ⟨hforth h, hforth h.symm⟩

theorem applicationTenant_agree (h : Agree tenantId db db') {applicationId : String}
    (hown : db.applicationTenant applicationId = some tenantId) :
    db.applications.get applicationId = db'.applications.get applicationId ∧
      db'.applicationTenant applicationId = some tenantId := by
  obtain ⟨row, hget, htenant⟩ := Option.map_eq_some_iff.mp hown
  have hget' := h.applications.get_some hget htenant
  exact ⟨hget.trans hget'.symm, by
    rw [Directory.applicationTenant, hget', Option.map_some, htenant]⟩

theorem user_agree (h : Agree tenantId db db') {userId : String}
    (hown : db.userTenant userId = some tenantId) : db.users.get userId = db'.users.get userId := by
  obtain ⟨row, hget, htenant⟩ := Option.map_eq_some_iff.mp hown
  rw [hget, h.users.get_some hget htenant]

/-- A row that a tenant's user has under a key. -/
theorem get_of_owner {ρ κ : Type} [DecidableEq κ] {key : ρ → κ} {t t' : Table ρ key}
    {user : ρ → String} {k : κ}
    (h : Table.AgreeOn (fun r => db.userTenant (user r) = some tenantId)
      (fun r => db'.userTenant (user r) = some tenantId) t t')
    (hown : ((t.get k).bind fun r => db.userTenant (user r)) = some tenantId) :
    t.get k = t'.get k ∧ ((t'.get k).bind fun r => db'.userTenant (user r)) = some tenantId := by
  obtain ⟨r, hget, htenant⟩ := Option.bind_eq_some_iff.mp hown
  have hget' := h.get_some hget htenant
  refine ⟨hget.trans hget'.symm, Option.bind_eq_some_iff.mpr ⟨r, hget', ?_⟩⟩
  exact ((h r).mp ⟨Table.mem_of_get hget, htenant⟩).2

theorem session_agree (h : Agree tenantId db db') {tokenHash : String}
    (hown : db.sessionTenant tokenHash = some tenantId) :
    db.sessions.get tokenHash = db'.sessions.get tokenHash ∧
      db'.sessionTenant tokenHash = some tenantId := get_of_owner h.sessions hown

theorem activation_agree (h : Agree tenantId db db') {codeHash : String}
    (hown : db.activationTenant codeHash = some tenantId) :
    db.activationCodes.get codeHash = db'.activationCodes.get codeHash ∧
      db'.activationTenant codeHash = some tenantId := get_of_owner h.activationCodes hown

theorem challenge_agree (h : Agree tenantId db db') {challengeId : String}
    (hown : db.challengeTenant challengeId = some tenantId) :
    db.mfaChallenges.get challengeId = db'.mfaChallenges.get challengeId ∧
      db'.challengeTenant challengeId = some tenantId := get_of_owner h.mfaChallenges hown

theorem credential_agree (h : Agree tenantId db db') {credentialId : String}
    (hown : db.credentialTenant credentialId = some tenantId) :
    db.webauthnCredentials.get credentialId = db'.webauthnCredentials.get credentialId ∧
      db'.credentialTenant credentialId = some tenantId := get_of_owner h.webauthnCredentials hown

theorem code_agree (h : Agree tenantId db db') {codeHash : String}
    (hown : db.codeTenant codeHash = some tenantId) :
    db.authCodes.get codeHash = db'.authCodes.get codeHash ∧
      db'.codeTenant codeHash = some tenantId := get_of_owner h.authCodes hown

/-- Statements are about a tenant alike in states with the same rows of it. -/
theorem tenant_agree_artefact (h : Agree tenantId db db') {w : ArtefactWrite}
    (hw : w.tenant db = some tenantId) : w.tenant db' = some tenantId := by
  cases w with
  | insertSession | insertActivationCode | supersedeActivationCodes | insertChallenge
  | insertCredential | insertAuthCode => exact (userTenant_agree h).mp hw
  | deleteSession | lapseOffer | setSessionNonce => exact (session_agree h hw).2
  | consumeActivationCode | setActivationNonce => exact (activation_agree h hw).2
  | consumeChallenge | setChallengeNonce => exact (challenge_agree h hw).2
  | setSignCount => exact (credential_agree h hw).2
  | consumeAuthCode => exact (code_agree h hw).2

/-! ## One statement -/

section Statement

variable {w : ArtefactWrite}

/-- A statement on a row of a tenant is accepted. -/
theorem accepted_of_tenant (hw : w.tenant db = some tenantId) (hfree : w.Free db) :
    w.violates db = false := by
  have hthere : ∀ {userId : String}, db.userTenant userId = some tenantId →
      (db.users.get userId).isNone = false := by
    intro userId hown
    obtain ⟨row, hget, -⟩ := Option.map_eq_some_iff.mp hown
    rw [hget, Option.isNone_some]
  have hrow : ∀ {ρ κ : Type} [DecidableEq κ] {key : ρ → κ} {t : Table ρ key} {k : κ}
      {f : ρ → Option String}, (t.get k).bind f = some tenantId → (t.get k).isNone = false := by
    intro ρ κ _ key t k f hown
    obtain ⟨row, hget, -⟩ := Option.bind_eq_some_iff.mp hown
    rw [hget, Option.isNone_some]
  cases w with
  | deleteSession | supersedeActivationCodes => rfl
  | insertSession row | insertActivationCode row | insertChallenge row | insertCredential row =>
      simp only [ArtefactWrite.Free] at hfree
      rw [ArtefactWrite.violates, hfree, hthere hw]
      rfl
  | insertAuthCode row =>
      simp only [ArtefactWrite.Free] at hfree
      rw [ArtefactWrite.violates, hfree]
      rfl
  | _ => exact hrow hw

/-- An update leaves every row with its user. -/
theorem agree_modify {ρ κ : Type} {key : ρ → κ} {user : ρ → String} {t t' : Table ρ key}
    {p : ρ → Bool} {f : ρ → ρ}
    (h : Table.AgreeOn (fun r => db.userTenant (user r) = some tenantId)
      (fun r => db'.userTenant (user r) = some tenantId) t t')
    (hkept : ∀ r, key (f r) = key r ∧ user (f r) = user r) :
    Table.AgreeOn (fun r => db.userTenant (user r) = some tenantId)
      (fun r => db'.userTenant (user r) = some tenantId) (t.modify p f fun r => (hkept r).1)
      (t'.modify p f fun r => (hkept r).1) :=
  h.modify _ (fun r => by rw [(hkept r).2]) fun r => by rw [(hkept r).2]

/-- **A statement on the rows of a tenant** keeps the rows of the tenant in agreement. -/
theorem agree_artefact (h : Agree tenantId db db') (hw : w.tenant db = some tenantId)
    (hw' : w.tenant db' = some tenantId) (hfree : w.Free db) (hfree' : w.Free db') :
    Agree tenantId (Statement.effect (Write.artefact w) db)
      (Statement.effect (Write.artefact w) db') := by
  cases w with
  | insertSession row =>
      exact { h with sessions := h.sessions.insert hfree hfree' (iff_of_true hw hw') }
  | deleteSession => exact { h with sessions := h.sessions.erase }
  | lapseOffer | setSessionNonce =>
      exact { h with sessions := agree_modify h.sessions (by exact fun _ => ⟨rfl, rfl⟩) }
  | insertActivationCode row =>
      exact { h with
        activationCodes := h.activationCodes.insert hfree hfree' (iff_of_true hw hw') }
  | supersedeActivationCodes | consumeActivationCode | setActivationNonce =>
      exact { h with
        activationCodes := agree_modify h.activationCodes (by exact fun _ => ⟨rfl, rfl⟩) }
  | insertChallenge row =>
      exact { h with mfaChallenges := h.mfaChallenges.insert hfree hfree' (iff_of_true hw hw') }
  | consumeChallenge | setChallengeNonce =>
      exact { h with mfaChallenges := agree_modify h.mfaChallenges (by exact fun _ => ⟨rfl, rfl⟩) }
  | insertCredential row =>
      exact { h with
        webauthnCredentials := h.webauthnCredentials.insert hfree hfree' (iff_of_true hw hw') }
  | setSignCount =>
      exact { h with
        webauthnCredentials := agree_modify h.webauthnCredentials (by exact fun _ => ⟨rfl, rfl⟩) }
  | insertAuthCode row =>
      exact { h with authCodes := h.authCodes.insert hfree hfree' (iff_of_true hw hw') }
  | consumeAuthCode =>
      exact { h with authCodes := agree_modify h.authCodes (by exact fun _ => ⟨rfl, rfl⟩) }

/-- An update of rows of others. -/
theorem agree_modify_elsewhere {ρ κ : Type} {key : ρ → κ} {user : ρ → String} {t : Table ρ key}
    {p : ρ → Bool} {f : ρ → ρ}
    (hp : ∀ r ∈ t, p r = true → db.userTenant (user r) ≠ some tenantId)
    (hkept : ∀ r, key (f r) = key r ∧ user (f r) = user r) :
    Table.AgreeOn (fun r => db.userTenant (user r) = some tenantId)
      (fun r => db.userTenant (user r) = some tenantId) t (t.modify p f fun r => (hkept r).1) :=
  Table.agreeOn_modify _ hp fun r => by rw [(hkept r).2]

/-- The rows of a key are the one row that it finds. -/
theorem owner_of_key {ρ κ : Type} [DecidableEq κ] {key : ρ → κ} {user : ρ → String}
    {t : Table ρ key} {k : κ}
    (hnot : ((t.get k).bind fun r => db.userTenant (user r)) ≠ some tenantId) :
    ∀ r ∈ t, (key r == k) = true → db.userTenant (user r) ≠ some tenantId := by
  intro r hr hkey hown
  refine hnot (Option.bind_eq_some_iff.mpr ⟨r, ?_, hown⟩)
  rw [← beq_iff_eq.mp hkey]
  exact Table.get_of_mem hr

/-- **A statement on the rows of others** leaves the rows of a tenant as they are. -/
theorem agree_elsewhere (hw : w.tenant db ≠ some tenantId) :
    Agree tenantId db (Statement.effect (Write.artefact w) db) := by
  have hsame := Agree.refl tenantId db
  cases w with
  | insertSession row => exact { hsame with sessions := Table.agreeOn_insert hw }
  | deleteSession => exact { hsame with sessions := Table.agreeOn_erase (owner_of_key hw) }
  | lapseOffer | setSessionNonce =>
      exact { hsame with
        sessions := agree_modify_elsewhere (owner_of_key hw) (by exact fun _ => ⟨rfl, rfl⟩) }
  | insertActivationCode row => exact { hsame with activationCodes := Table.agreeOn_insert hw }
  | supersedeActivationCodes userId now =>
      refine { hsame with
        activationCodes :=
          agree_modify_elsewhere (fun r _ hr => ?_) (by exact fun _ => ⟨rfl, rfl⟩) }
      rw [(beq_iff_eq.mp (Bool.and_eq_true_iff.mp hr).1)]
      exact hw
  | consumeActivationCode | setActivationNonce =>
      exact { hsame with
        activationCodes :=
          agree_modify_elsewhere (owner_of_key hw) (by exact fun _ => ⟨rfl, rfl⟩) }
  | insertChallenge row => exact { hsame with mfaChallenges := Table.agreeOn_insert hw }
  | consumeChallenge | setChallengeNonce =>
      exact { hsame with
        mfaChallenges := agree_modify_elsewhere (owner_of_key hw) (by exact fun _ => ⟨rfl, rfl⟩) }
  | insertCredential row =>
      exact { hsame with webauthnCredentials := Table.agreeOn_insert hw }
  | setSignCount =>
      exact { hsame with
        webauthnCredentials :=
          agree_modify_elsewhere (owner_of_key hw) (by exact fun _ => ⟨rfl, rfl⟩) }
  | insertAuthCode row => exact { hsame with authCodes := Table.agreeOn_insert hw }
  | consumeAuthCode =>
      exact { hsame with
        authCodes := agree_modify_elsewhere (owner_of_key hw) (by exact fun _ => ⟨rfl, rfl⟩) }

end Statement

/-! ## The order of passkeys -/

/-- Two states that a tenant's users and operators cannot tell apart. -/
structure Indistinct (tenantId : String) (db db' : Db) : Prop where
  agree : Agree tenantId db db'
  passkeys : db.passkeysOf tenantId = db'.passkeysOf tenantId

theorem Indistinct.refl (tenantId : String) (db : Db) : Indistinct tenantId db db :=
  ⟨Agree.refl tenantId db, rfl⟩

theorem Indistinct.symm (h : Indistinct tenantId db db') : Indistinct tenantId db' db :=
  ⟨h.agree.symm, h.passkeys.symm⟩

theorem Indistinct.trans {db'' : Db} (h : Indistinct tenantId db db')
    (h' : Indistinct tenantId db' db'') : Indistinct tenantId db db'' :=
  ⟨h.agree.trans h'.agree, h.passkeys.trans h'.passkeys⟩

section Statement

variable {w : ArtefactWrite}

theorem passkeysOf_setSignCount (db : Db) {credentialId : String} {signCount : ℤ} :
    (Statement.effect (Write.artefact (.setSignCount credentialId signCount)) db).passkeysOf
      tenantId =
      (db.passkeysOf tenantId).map fun c =>
        if c.credentialId == credentialId then { c with signCount } else c :=
  Table.select_modify (by exact fun _ => rfl) (by exact fun _ => rfl)

theorem indistinct_artefact (h : Indistinct tenantId db db') (hw : w.tenant db = some tenantId)
    (hfree : w.Free db) (hfree' : w.Free db') :
    Indistinct tenantId (Statement.effect (Write.artefact w) db)
      (Statement.effect (Write.artefact w) db') := by
  have hw' := tenant_agree_artefact h.agree hw
  refine ⟨agree_artefact h.agree hw hw' hfree hfree', ?_⟩
  have hpasskeys := h.passkeys
  cases w with
  | insertCredential row =>
      have hown : db.userTenant row.userId = some tenantId := hw
      have hown' : db'.userTenant row.userId = some tenantId := hw'
      show (db.webauthnCredentials.insert row).select _ =
        (db'.webauthnCredentials.insert row).select _
      rw [Table.select_insert hfree, Table.select_insert hfree']
      have hselected : ∀ {db : Db}, db.userTenant row.userId = some tenantId →
          [row].filter (fun c => db.userTenant c.userId == some tenantId) = [row] := by
        intro db hown
        rw [List.filter_singleton, hown]
        simp
      refine (congrArg _ (hselected hown)).trans (Eq.trans ?_ (congrArg _ (hselected hown')).symm)
      exact congrArg (· ++ [row]) hpasskeys
  | setSignCount credentialId signCount =>
      rw [passkeysOf_setSignCount, passkeysOf_setSignCount, hpasskeys]
  | _ => exact hpasskeys

theorem indistinct_elsewhere (hw : w.tenant db ≠ some tenantId) :
    Indistinct tenantId db (Statement.effect (Write.artefact w) db) := by
  refine ⟨agree_elsewhere hw, ?_⟩
  cases w with
  | insertCredential row =>
      have hother : (db.userTenant row.userId == some tenantId) = false :=
        beq_eq_false_iff_ne.mpr hw
      exact (Table.select_insert_of_not (p := fun c : WebAuthnCredential =>
        db.userTenant c.userId == some tenantId) hother).symm
  | setSignCount credentialId signCount =>
      rw [passkeysOf_setSignCount]
      refine (List.map_id _).symm.trans (List.map_congr_left fun c hc => ?_)
      obtain ⟨hc, hown⟩ := Table.mem_select.mp hc
      rw [if_neg fun hkey => owner_of_key hw c hc hkey (beq_iff_eq.mp hown)]
      rfl
  | _ => rfl

end Statement

/-! ## The time of the last login -/

section LastLogin

variable {dir : Directory} {userId : String} {now : Time}

@[simp] theorem userTenant_lastLogin (other : String) :
    ((DirectoryWrite.setUserLastLogin userId now).effect dir).userTenant other =
      dir.userTenant other :=
  Table.view_modify (by exact fun _ => rfl) (by exact fun _ => rfl) other

theorem owned_lastLogin (h : Owned dir) :
    Owned ((DirectoryWrite.setUserLastLogin userId now).effect dir) where
  memberships m hm := by
    obtain ⟨tenantId, hgroup, huser⟩ := h.memberships m hm
    exact ⟨tenantId, hgroup, (userTenant_lastLogin _).trans huser⟩
  groupRoles := h.groupRoles
  roles := h.roles
  rolePermissions := h.rolePermissions
  adminGroup := h.adminGroup
  console := h.console

theorem passkeysOf_lastLogin :
    (Statement.effect (Write.directory (.setUserLastLogin userId now)) db).passkeysOf tenantId =
      db.passkeysOf tenantId := by
  simp only [Db.passkeysOf, effect_directory, userTenant_lastLogin]

/-- What sign-in leaves has the owners it had. -/
theorem agreeOn_lastLogin {ρ κ : Type} {key : ρ → κ} {user : ρ → String} {t t' : Table ρ key}
    (h : Table.AgreeOn (fun r => db.userTenant (user r) = some tenantId)
      (fun r => db'.userTenant (user r) = some tenantId) t t') :
    Table.AgreeOn
      (fun r => ((DirectoryWrite.setUserLastLogin userId now).effect db.toDirectory).userTenant
        (user r) = some tenantId)
      (fun r => ((DirectoryWrite.setUserLastLogin userId now).effect db'.toDirectory).userTenant
        (user r) = some tenantId) t t' := by
  simpa only [userTenant_lastLogin] using h

theorem indistinct_lastLogin (h : Indistinct tenantId db db') :
    Indistinct tenantId
      (Statement.effect (Write.directory (.setUserLastLogin userId now)) db)
      (Statement.effect (Write.directory (.setUserLastLogin userId now)) db') := by
  refine ⟨?_, by rw [passkeysOf_lastLogin, passkeysOf_lastLogin, h.passkeys]⟩
  obtain ⟨h, -⟩ := h
  exact { h with
    users := h.users.modify (by exact fun _ => rfl) (by exact fun _ => Iff.rfl)
      (by exact fun _ => Iff.rfl)
    sessions := agreeOn_lastLogin h.sessions
    activationCodes := agreeOn_lastLogin h.activationCodes
    mfaChallenges := agreeOn_lastLogin h.mfaChallenges
    webauthnCredentials := agreeOn_lastLogin h.webauthnCredentials
    authCodes := agreeOn_lastLogin h.authCodes }

theorem indistinct_lastLogin_elsewhere (hnot : db.userTenant userId ≠ some tenantId) :
    Indistinct tenantId db
      (Statement.effect (Write.directory (.setUserLastLogin userId now)) db) := by
  refine ⟨?_, passkeysOf_lastLogin.symm⟩
  have hsame := Agree.refl tenantId db
  have hsignIn : ∀ {ρ κ : Type} {key : ρ → κ} {user : ρ → String} (t : Table ρ key),
      Table.AgreeOn (fun r => db.userTenant (user r) = some tenantId)
        (fun r => ((DirectoryWrite.setUserLastLogin userId now).effect db.toDirectory).userTenant
          (user r) = some tenantId) t t := by
    intro ρ κ key user t
    simpa only [userTenant_lastLogin] using Table.AgreeOn.refl _ t
  exact { hsame with
    users := by
      refine Table.agreeOn_modify ?_ (fun r hr hkey hown => hnot ?_) ?_
      · exact fun _ => rfl
      · rw [← beq_iff_eq.mp hkey, Directory.userTenant, Table.get_of_mem hr, Option.map_some, hown]
      · exact fun _ => Iff.rfl
    sessions := hsignIn _
    activationCodes := hsignIn _
    mfaChallenges := hsignIn _
    webauthnCredentials := hsignIn _
    authCodes := hsignIn _ }

end LastLogin

end RbaIdp
