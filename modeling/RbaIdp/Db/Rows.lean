import RbaIdp.Db.Statements

/-!
# What a statement does to the sign-in artefacts

For every table that sign-in writes: a row that is there after a statement was
there before, is the one the statement adds, or is an earlier row with the one
column changed that the statement sets.  The user a row belongs to, and what it
is for, are never changed.
-/

namespace RbaIdp

open Relational

variable {db : Artefacts} {w : ArtefactWrite}

theorem mem_sessions_effect {r : IdpSession} (h : r ∈ (w.effect db).sessions) :
    r ∈ db.sessions ∨ w = .insertSession r ∨
      (∃ old ∈ db.sessions, ∃ nonce, w = .setSessionNonce old.tokenHash nonce ∧
        r = { old with webauthnChallenge := nonce }) ∨
      ∃ old ∈ db.sessions, w = .lapseOffer old.tokenHash ∧
        r = { old with enrollUntil := none } := by
  cases w with
  | insertSession row =>
      rcases Table.mem_or_eq_of_mem_insert h with hold | rfl
      · exact Or.inl hold
      · exact Or.inr (Or.inl rfl)
  | deleteSession tokenHash => exact Or.inl (Table.mem_erase.mp h).1
  | setSessionNonce tokenHash nonce =>
      simp only [ArtefactWrite.effect, Artefacts.updateSession, Table.mem_modify] at h
      obtain ⟨old, hold, rfl⟩ := h
      split
      · next hkey =>
          rw [beq_iff_eq] at hkey
          exact Or.inr (Or.inr (Or.inl ⟨old, hold, nonce, by rw [hkey], rfl⟩))
      · exact Or.inl hold
  | lapseOffer tokenHash =>
      simp only [ArtefactWrite.effect, Artefacts.updateSession, Table.mem_modify] at h
      obtain ⟨old, hold, rfl⟩ := h
      split
      · next hkey =>
          rw [beq_iff_eq] at hkey
          exact Or.inr (Or.inr (Or.inr ⟨old, hold, by rw [hkey], rfl⟩))
      · exact Or.inl hold
  | _ => exact Or.inl h

theorem mem_webauthnCredentials_effect {r : WebAuthnCredential}
    (h : r ∈ (w.effect db).webauthnCredentials) :
    (∃ old ∈ db.webauthnCredentials, old.credentialId = r.credentialId ∧ old.userId = r.userId) ∨
      w = .insertCredential r := by
  cases w with
  | insertCredential row =>
      rcases Table.mem_or_eq_of_mem_insert h with hold | rfl
      · exact Or.inl ⟨r, hold, rfl, rfl⟩
      · exact Or.inr rfl
  | setSignCount credentialId signCount =>
      simp only [ArtefactWrite.effect, Table.mem_modify] at h
      obtain ⟨old, hold, rfl⟩ := h
      exact Or.inl ⟨old, hold, by split <;> rfl, by split <;> rfl⟩
  | _ => exact Or.inl ⟨r, h, rfl, rfl⟩

/-- A credential is never deleted. -/
theorem webauthnCredentials_effect {r : WebAuthnCredential} (h : r ∈ db.webauthnCredentials) :
    ∃ new ∈ (w.effect db).webauthnCredentials,
      new.credentialId = r.credentialId ∧ new.userId = r.userId := by
  cases w with
  | insertCredential row => exact ⟨r, Table.mem_insert_of_mem h, rfl, rfl⟩
  | setSignCount credentialId signCount =>
      simp only [ArtefactWrite.effect, Table.mem_modify]
      refine ⟨_, ⟨r, h, rfl⟩, ?_, ?_⟩ <;> split <;> rfl
  | _ => exact ⟨r, h, rfl, rfl⟩

/-- Passkeys stay. -/
theorem hasPasskey_invariant {userId : String} :
    Invariant Write fun db : Db => db.hasPasskey userId = true := by
  intro w db _ hdb
  cases w with
  | directory w => exact hdb
  | artefact w =>
      obtain ⟨c, hc, huser⟩ := Artefacts.hasPasskey_eq_true.mp hdb
      obtain ⟨new, hnew, -, huser'⟩ := webauthnCredentials_effect (w := w) hc
      exact Artefacts.hasPasskey_eq_true.mpr ⟨new, hnew, huser'.trans huser⟩

theorem mem_mfaChallenges_effect {r : MfaChallenge} (h : r ∈ (w.effect db).mfaChallenges) :
    (∃ old ∈ db.mfaChallenges, old.challengeId = r.challengeId ∧ old.userId = r.userId ∧
      old.applicationId = r.applicationId) ∨ w = .insertChallenge r := by
  cases w with
  | insertChallenge row =>
      rcases Table.mem_or_eq_of_mem_insert h with hold | rfl
      · exact Or.inl ⟨r, hold, rfl, rfl, rfl⟩
      · exact Or.inr rfl
  | consumeChallenge | setChallengeNonce =>
      simp only [ArtefactWrite.effect, Artefacts.updateChallenge, Table.mem_modify] at h
      obtain ⟨old, hold, rfl⟩ := h
      exact Or.inl ⟨old, hold, by split <;> rfl, by split <;> rfl, by split <;> rfl⟩
  | _ => exact Or.inl ⟨r, h, rfl, rfl, rfl⟩

/-- A challenge as it was before anything was done with it. -/
def MfaChallenge.asOpened (challenge : MfaChallenge) : MfaChallenge :=
  { challenge with
    consumedAt := none
    webauthnChallenge := none
    webauthnMode := none }

/-- A challenge that is open was open before, for the same decision, or the
statement adds it. -/
theorem openChallenges_effect {r : MfaChallenge} (h : r ∈ (w.effect db).mfaChallenges)
    (hopen : r.consumedAt = none) :
    (∃ old ∈ db.mfaChallenges, old.consumedAt = none ∧ old.asOpened = r.asOpened) ∨
      w = .insertChallenge r := by
  cases w with
  | insertChallenge row =>
      rcases Table.mem_or_eq_of_mem_insert h with hold | rfl
      · exact Or.inl ⟨r, hold, hopen, rfl⟩
      · exact Or.inr rfl
  | consumeChallenge | setChallengeNonce =>
      simp only [ArtefactWrite.effect, Artefacts.updateChallenge, Table.mem_modify] at h
      obtain ⟨old, hold, rfl⟩ := h
      refine Or.inl ⟨old, hold, ?_, by split <;> rfl⟩
      split at hopen
      · first
          | exact hopen
          | cases hopen
      · exact hopen
  | _ => exact Or.inl ⟨r, h, hopen, rfl⟩

/-- A challenge is there, for a user and an application. -/
def ChallengeFor (challengeId userId applicationId : String) (db : Db) : Prop :=
  ∃ c, db.mfaChallenges.get challengeId = some c ∧ c.userId = userId ∧
    c.applicationId = applicationId

/-- A challenge is there for good, for the user and the application it was opened
for. -/
theorem challenge_invariant {challengeId userId applicationId : String} :
    Invariant Write (ChallengeFor challengeId userId applicationId) := by
  rintro w db - ⟨c, hget, huser, happ⟩
  cases w with
  | directory w => exact ⟨c, hget, huser, happ⟩
  | artefact w =>
      cases w with
      | insertChallenge row => exact ⟨c, by simp [ArtefactWrite.effect, hget], huser, happ⟩
      | consumeChallenge | setChallengeNonce =>
          simp only [ChallengeFor, effect_artefact, ArtefactWrite.effect, Artefacts.updateChallenge,
            Table.get_modify, hget, Option.map_some]
          refine ⟨_, rfl, ?_, ?_⟩ <;> split <;> assumption
      | _ => exact ⟨c, hget, huser, happ⟩

/-- A challenge that has been used is there for good, and used. -/
theorem consumedChallenge_invariant {challengeId : String} : Invariant Write fun db : Db =>
    ∃ c, db.mfaChallenges.get challengeId = some c ∧ c.consumedAt ≠ none := by
  rintro w db - ⟨c, hget, hconsumed⟩
  cases w with
  | directory w => exact ⟨c, hget, hconsumed⟩
  | artefact w =>
      cases w with
      | insertChallenge row => exact ⟨c, by simp [ArtefactWrite.effect, hget], hconsumed⟩
      | consumeChallenge | setChallengeNonce =>
          simp only [effect_artefact, ArtefactWrite.effect, Artefacts.updateChallenge,
            Table.get_modify, hget, Option.map_some]
          refine ⟨_, rfl, ?_⟩
          split <;> simp [hconsumed]
      | _ => exact ⟨c, hget, hconsumed⟩

/-- A challenge that was accepted is there. -/
theorem challenge_of_insert {db : Db} {row : MfaChallenge}
    (haccepted : Statement.violates (Write.artefact (.insertChallenge row)) db = false) :
    ChallengeFor row.challengeId row.userId row.applicationId
      (Statement.effect (Write.artefact (.insertChallenge row)) db) := by
  have hfree : db.mfaChallenges.get row.challengeId = none := by
    simp only [violates_artefact, ArtefactWrite.violates, Bool.or_eq_false_iff] at haccepted
    simpa using haccepted.1
  exact ⟨row, by simp [ArtefactWrite.effect, hfree], rfl, rfl⟩

theorem mem_activationCodes_effect {r : ActivationCode} (h : r ∈ (w.effect db).activationCodes) :
    r ∈ db.activationCodes ∨ w = .insertActivationCode r ∨
      (∃ old ∈ db.activationCodes, ∃ nonce, w = .setActivationNonce old.codeHash nonce ∧
        r = { old with webauthnChallenge := some nonce }) ∨ r.consumedAt ≠ none := by
  cases w with
  | insertActivationCode row =>
      rcases Table.mem_or_eq_of_mem_insert h with hold | rfl
      · exact Or.inl hold
      · exact Or.inr (Or.inl rfl)
  | setActivationNonce codeHash nonce =>
      simp only [ArtefactWrite.effect, Artefacts.updateActivationCode, Table.mem_modify] at h
      obtain ⟨old, hold, rfl⟩ := h
      split
      · next hkey =>
          rw [beq_iff_eq] at hkey
          exact Or.inr (Or.inr (Or.inl ⟨old, hold, nonce, by rw [hkey], rfl⟩))
      · exact Or.inl hold
  | consumeActivationCode | supersedeActivationCodes =>
      simp only [ArtefactWrite.effect, Artefacts.updateActivationCode, Table.mem_modify] at h
      obtain ⟨old, hold, rfl⟩ := h
      split
      · exact Or.inr (Or.inr (Or.inr (by simp)))
      · exact Or.inl hold
  | _ => exact Or.inl h

/-- The codes a user had are consumed when a new one is issued. -/
theorem consumed_of_supersede {userId : String} {now : Time} {r : ActivationCode}
    (h : r ∈ ((ArtefactWrite.supersedeActivationCodes userId now).effect db).activationCodes)
    (huser : r.userId = userId) : r.consumedAt ≠ none := by
  simp only [ArtefactWrite.effect, Table.mem_modify] at h
  obtain ⟨old, hold, rfl⟩ := h
  by_cases htaken : (old.userId == userId && old.consumedAt.isNone) = true
  · simp [htaken]
  · rw [if_neg htaken] at huser ⊢
    simpa [huser] using htaken

/-- An activation code that has been used or superseded is there for good, and
consumed. -/
theorem consumedActivation_invariant {codeHash : String} : Invariant Write fun db : Db =>
    ∃ c, db.activationCodes.get codeHash = some c ∧ c.consumedAt ≠ none := by
  rintro w db - ⟨c, hget, hconsumed⟩
  cases w with
  | directory w => exact ⟨c, hget, hconsumed⟩
  | artefact w =>
      cases w with
      | insertActivationCode row => exact ⟨c, by simp [ArtefactWrite.effect, hget], hconsumed⟩
      | consumeActivationCode | setActivationNonce | supersedeActivationCodes =>
          simp only [effect_artefact, ArtefactWrite.effect, Artefacts.updateActivationCode,
            Table.get_modify, hget, Option.map_some]
          refine ⟨_, rfl, ?_⟩
          split <;> simp [hconsumed]
      | _ => exact ⟨c, hget, hconsumed⟩

theorem mem_authCodes_effect {r : AuthCode} (h : r ∈ (w.effect db).authCodes) :
    r ∈ db.authCodes ∨ w = .insertAuthCode r ∨
      ∃ old ∈ db.authCodes, ∃ now, w = .consumeAuthCode old.codeHash now ∧
        r = { old with consumedAt := some now } := by
  cases w with
  | insertAuthCode row =>
      rcases Table.mem_or_eq_of_mem_insert h with hold | rfl
      · exact Or.inl hold
      · exact Or.inr (Or.inl rfl)
  | consumeAuthCode codeHash now =>
      simp only [ArtefactWrite.effect, Table.mem_modify] at h
      obtain ⟨old, hold, rfl⟩ := h
      split
      · next hkey =>
          rw [beq_iff_eq] at hkey
          exact Or.inr (Or.inr ⟨old, hold, now, by rw [hkey], rfl⟩)
      · exact Or.inl hold
  | _ => exact Or.inl h

/-- A callback code that has been used is there for good, and used. -/
theorem consumed_invariant {codeHash : String} : Invariant Write fun db : Db =>
    ∃ c, db.authCodes.get codeHash = some c ∧ c.consumedAt ≠ none := by
  rintro w db - ⟨c, hget, hconsumed⟩
  cases w with
  | directory w => exact ⟨c, hget, hconsumed⟩
  | artefact w =>
      cases w with
      | insertAuthCode row => exact ⟨c, by simp [ArtefactWrite.effect, hget], hconsumed⟩
      | consumeAuthCode other now =>
          simp only [effect_artefact, ArtefactWrite.effect, Table.get_modify, hget, Option.map_some]
          refine ⟨_, rfl, ?_⟩
          split
          · simp
          · exact hconsumed
      | _ => exact ⟨c, hget, hconsumed⟩

end RbaIdp
