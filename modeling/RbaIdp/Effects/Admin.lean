import RbaIdp.Db.Integrity
import RbaIdp.Effects.Enrollment

/-!
# What an admin call writes

Every call of an operator other than the creation of a tenant executes
statements on the directory only, and before each of them it has checked what
`Scoped` says: that the objects it joins are its tenant's own, that a group it
deletes is not the admin group, that an application it disables is not the
console.  The issue of an activation code is the one call that writes sign-in
artefacts; the creation of a tenant is in `Effects/Founding.lean`.
-/

namespace RbaIdp

open Relational Program

/-- What has been checked when a call executes a statement. -/
def Scoped (op : Operator) (call : AdminCall) (db : Directory) : DirectoryWrite → Prop
  | .insertTenant _ => False
  | .setTenantAnchors _ _ _ => False
  | .setApplicationEnabled applicationId enabled => enabled = false →
      db.applicationTenant applicationId = some op.tenantId ∧
        ∀ anchors, db.anchors op.tenantId = some anchors → anchors.1 ≠ some applicationId
  | .setUserEnabled userId enabled =>
      ∃ body, call = .patchUser userId body ∧ body.enabled = some enabled
  | .insertGroupMembership m => db.userTenant m.userId = some op.tenantId ∧
      (db.groupTenant m.groupId = some op.tenantId ∨
        ∃ anchors, db.anchors op.tenantId = some anchors ∧ anchors.2 = some m.groupId)
  | .insertGroupRole gr => db.groupTenant gr.groupId = some op.tenantId ∧
      ∃ applicationId, db.roleOwners gr.roleId = some (op.tenantId, applicationId)
  | .insertRole r => r.tenantId = op.tenantId ∧
      db.applicationTenant r.applicationId = some op.tenantId
  | .insertRolePermission rp => ∃ tenantId applicationId,
      db.roleOwners rp.roleId = some (tenantId, applicationId) ∧
        db.permissionApplication rp.permissionId = some applicationId
  | .deleteGroup groupId => db.groupTenant groupId = some op.tenantId ∧
      ∀ anchors, db.anchors op.tenantId = some anchors → anchors.2 ≠ some groupId
  | _ => True

/-- The statements a call may execute. -/
def Edits (op : Operator) (call : AdminCall) (db : Db) (w : Write) : Prop :=
  ∃ edit, w = .directory edit ∧ Scoped op call db.toDirectory edit

variable {env : Env} {d : Draws} {op : Operator} {call : AdminCall}

theorem edit_step {t t' : World} {w : DirectoryWrite} (h : Extends (Edits op call) t t')
    (hscoped : Scoped op call t'.db.toDirectory w)
    (haccepted : Statement.violates (Write.directory w) t'.db = false) :
    Extends (Edits op call) t (t'.exec (.directory w)) :=
  Extends.exec h ⟨w, rfl, hscoped⟩ haccepted

/-! ## Rules for the pieces of a call -/

section Rules

variable {α : Type} {E : World → Prop} {t : World}

/-- A call is one transaction, so its failures need no care. -/
theorem wp_edit {m : App α} {P : Db → Write → Prop}
    (h : m.wp (fun _ => Extends P t) (fun _ => True) t) :
    (transaction m).wp (fun _ => Extends P t) (Unwritten t) t := by
  rw [wp_transaction]
  exact wp_mono h (fun _ _ h => h) fun _ _ => ⟨rfl, rfl⟩

theorem wp_onDirectory {w : DirectoryWrite} {Q : Unit → World → Prop}
    (h : Statement.violates (Write.directory w) t.db = false → Q () (t.exec (.directory w))) :
    (onDirectory w).wp Q (fun _ => True) t := by
  rw [onDirectory, wp_execute]
  exact ⟨fun _ => trivial, h⟩

theorem wp_requireUser {tenantId userId : String} {Q : User → World → Prop}
    (hok : ∀ row, t.db.userTenant userId = some tenantId → Q row t) (herror : E t) :
    (requireUser tenantId userId).wp Q E t := by
  simp only [requireUser, wp_bind, wp_read, wp_require]
  refine ⟨fun _ => herror, fun row hrow => hok row ?_⟩
  obtain ⟨hget, htenant⟩ := Option.filter_eq_some_iff.mp hrow
  simpa [Directory.userTenant, hget] using htenant

theorem wp_requireApplication {tenantId applicationId : String} {Q : Application → World → Prop}
    (hok : ∀ row, t.db.applicationTenant applicationId = some tenantId → Q row t)
    (herror : E t) : (requireApplication tenantId applicationId).wp Q E t := by
  simp only [requireApplication, wp_bind, wp_read, wp_require]
  refine ⟨fun _ => herror, fun row hrow => hok row ?_⟩
  obtain ⟨hget, htenant⟩ := Option.filter_eq_some_iff.mp hrow
  simpa [Directory.applicationTenant, hget] using htenant

theorem wp_requireGroup {tenantId groupId : String} {Q : Group → World → Prop}
    (hok : ∀ row, t.db.groupTenant groupId = some tenantId → Q row t) (herror : E t) :
    (requireGroup tenantId groupId).wp Q E t := by
  simp only [requireGroup, wp_bind, wp_read, wp_require]
  refine ⟨fun _ => herror, fun row hrow => hok row ?_⟩
  obtain ⟨hget, htenant⟩ := Option.filter_eq_some_iff.mp hrow
  simpa [Directory.groupTenant, hget] using htenant

theorem wp_requireRole {tenantId roleId : String} {Q : Role → World → Prop}
    (hok : ∀ row, t.db.roles.get roleId = some row →
      t.db.roleOwners roleId = some (tenantId, row.applicationId) → Q row t) (herror : E t) :
    (requireRole tenantId roleId).wp Q E t := by
  simp only [requireRole, wp_bind, wp_read, wp_require]
  refine ⟨fun _ => herror, fun row hrow => ?_⟩
  obtain ⟨hget, htenant⟩ := Option.filter_eq_some_iff.mp hrow
  refine hok row hget ?_
  simpa [Directory.roleOwners, hget] using htenant

theorem wp_requireTenant {tenantId : String} {Q : Tenant → World → Prop}
    (hok : ∀ row, t.db.tenants.get tenantId = some row → Q row t) (herror : E t) :
    (requireTenant tenantId).wp Q E t := by
  simp only [requireTenant, wp_bind, wp_read, wp_require]
  exact ⟨fun _ => herror, hok⟩

/-- An update that is made only when the request asks for it. -/
theorem wp_ifSome_edit {o : Option α} {w : α → DirectoryWrite} {I : World → Prop} (ht : I t)
    (hstep : ∀ a, o = some a → Statement.violates (Write.directory (w a)) t.db = false →
      I (t.exec (.directory (w a)))) :
    (ifSome o fun a => onDirectory (w a)).wp (fun _ => I) (fun _ => True) t := by
  rw [wp_ifSome]
  exact ⟨fun _ => ht, fun a ha => wp_onDirectory (hstep a ha)⟩

/-- `_sync_admin_flag` joins the user to the admin group of the tenant or takes
the user out of it. -/
theorem wp_syncAdminFlag {tenant : Tenant} {userId : String} {isAdmin : Bool} {t₀ : World}
    (htenant : t.db.tenants.get op.tenantId = some tenant)
    (huser : t.db.userTenant userId = some op.tenantId) (ht : Extends (Edits op call) t₀ t) :
    (syncAdminFlag tenant userId isAdmin).wp
      (fun _ t' => Extends (Edits op call) t₀ t' ∧ t'.db.userTenant userId = some op.tenantId)
      (fun _ => True) t := by
  simp only [syncAdminFlag, wp_bind, wp_read, wp_ifSome]
  refine ⟨fun _ => ⟨ht, huser⟩, fun group hgroup => ?_⟩
  have hanchor : tenant.adminGroupId = some group.groupId := by
    obtain ⟨groupId, hid, hget⟩ := Option.bind_eq_some_iff.mp hgroup
    rw [Table.key_of_get hget]
    exact (Option.filter_eq_some_iff.mp hid).1
  refine wp_mono (Q := fun _ t' => Extends (Edits op call) t₀ t' ∧
    t'.db.userTenant userId = some op.tenantId) ?_ (fun _ t' h => ?_) fun _ h => h
  · rw [wp_when]
    refine ⟨fun _ => wp_onDirectory fun haccepted => ?_, fun _ => ⟨ht, huser⟩⟩
    have hadmin : t.db.anchors op.tenantId =
        some (tenant.consoleApplicationId, tenant.adminGroupId) := by
      simp [Directory.anchors, htenant]
    exact ⟨edit_step ht ⟨huser, Or.inr ⟨_, hadmin, hanchor⟩⟩ haccepted, userTenant_effect huser⟩
  · obtain ⟨ht', huser'⟩ := h
    rw [wp_when]
    exact ⟨fun _ => wp_onDirectory fun haccepted =>
      ⟨edit_step ht' trivial haccepted, userTenant_effect huser'⟩, fun _ => ⟨ht', huser'⟩⟩

theorem wp_setDomains {tenantId : String} {domains : List String} {t₀ : World}
    (ht : Extends (Edits op call) t₀ t) :
    (setDomains tenantId domains).wp (fun _ => Extends (Edits op call) t₀) (fun _ => True) t := by
  simp only [setDomains]
  refine wp_seq (I := fun _ => Extends (Edits op call) t₀)
    (wp_forEach (fun domain _ t' ht' => ?_) ht) fun _ t' ht' => ?_
  · simp only [wp_bind, wp_read, wp_raiseIf]
    exact ⟨fun _ => trivial, fun _ => ht'⟩
  · refine wp_seq (I := fun _ => Extends (Edits op call) t₀)
      (wp_onDirectory fun haccepted => edit_step ht' trivial haccepted) fun _ t' ht' => ?_
    exact wp_forEach (fun domain _ t' ht' =>
      wp_onDirectory fun haccepted => edit_step ht' trivial haccepted) ht'

end Rules

/-! ## The calls

Each lemma follows its call from check to statement.  `t` is where the call
starts, and what is known in between is what the statements already executed
leave standing. -/

section Calls

variable {t : World} {I : World → Prop}

theorem wp_refreshUser {userId : String} (h : I t) :
    (refreshUser op userId).wp (fun _ => I) (fun _ => True) t := by
  simp [refreshUser, requireUser, h]

theorem wp_refreshTenant {tenantId : String} (h : I t) :
    (refreshTenant tenantId).wp (fun _ => I) (fun _ => True) t := by
  simp [refreshTenant, requireTenant, h]

theorem wp_refreshApplication {applicationId : String} (h : I t) :
    (refreshApplication op applicationId).wp (fun _ => I) (fun _ => True) t := by
  simp [refreshApplication, requireApplication, h]

theorem wp_refreshGroup {groupId : String} (h : I t) :
    (refreshGroup op groupId).wp (fun _ => I) (fun _ => True) t := by
  simp [refreshGroup, requireGroup, h]

theorem wp_refreshRole {roleId : String} (h : I t) :
    (refreshRole op roleId).wp (fun _ => I) (fun _ => True) t := by
  simp [refreshRole, requireRole, h]

theorem edits_createUser {body : CreateUserRequest} :
    (createUser env d op body).wp (fun _ => Extends (Edits op (.createUser body)) t)
      (Unwritten t) t := by
  refine wp_edit (wp_seq (I := fun tenant t' => t' = t ∧
    t.db.tenants.get op.tenantId = some tenant)
    (wp_requireTenant (fun row h => ⟨rfl, h⟩) trivial) ?_)
  rintro tenant t ⟨rfl, htenant⟩
  simp only [wp_bind, wp_read, wp_raiseIf, wp_onIntegrity]
  refine ⟨fun _ => trivial, fun _ => wp_onDirectory fun haccepted => ?_⟩
  refine wp_mono (wp_syncAdminFlag htenant ?_
    (edit_step (Extends.refl _) trivial haccepted)) (fun _ t' h => wp_refreshUser h.1) fun _ h => h
  simp only [violates_directory, DirectoryWrite.violates, Bool.or_eq_false_iff] at haccepted
  have hfree := Option.isSome_eq_false_iff.mp haccepted.1.1
  simp only [Option.isNone_iff_eq_none] at hfree
  simp [Directory.userTenant, DirectoryWrite.effect, hfree]

theorem edits_patchUser {userId : String} {body : PatchUserRequest} :
    (patchUser d op userId body).wp (fun _ => Extends (Edits op (.patchUser userId body)) t)
      (Unwritten t) t := by
  -- the user's tenant is what every optional update leaves standing
  let J : World → Prop := fun t' => Extends (Edits op (.patchUser userId body)) t t' ∧
    t'.db.userTenant userId = some op.tenantId
  have hedit : ∀ {t' : World} {w : DirectoryWrite}, J t' →
      Scoped op (.patchUser userId body) t'.db.toDirectory w →
      Statement.violates (Write.directory w) t'.db = false → J (t'.exec (.directory w)) :=
    fun h hscoped haccepted => ⟨edit_step h.1 hscoped haccepted, userTenant_effect h.2⟩
  refine wp_edit (wp_seq (I := fun _ t' => J t')
    (wp_requireUser (fun _ h => ⟨Extends.refl t, h⟩) trivial) fun _ t₁ h₁ => ?_)
  refine wp_seq (I := fun _ => J) (wp_ifSome_edit h₁ fun enabled henabled =>
    hedit h₁ ⟨body, rfl, henabled⟩) fun _ t₂ h₂ => ?_
  refine wp_seq (I := fun _ => J) ?_ fun _ t₃ h₃ => ?_
  · rw [wp_ifSome]
    refine ⟨fun _ => h₂, fun isAdmin _ => wp_seq (I := fun _ => J)
      (wp_onDirectory (hedit h₂ trivial)) fun _ t' h' => ?_⟩
    rw [wp_bind]
    exact wp_requireTenant (fun tenant htenant => wp_syncAdminFlag htenant h'.2 h'.1) trivial
  refine wp_seq (I := fun _ => J) (wp_ifSome_edit h₃ fun _ _ => hedit h₃ trivial) fun _ t₄ h₄ => ?_
  refine wp_seq (I := fun _ => J) (wp_ifSome_edit h₄ fun _ _ => hedit h₄ trivial) fun _ t₅ h₅ => ?_
  exact wp_refreshUser h₅.1

/-- A patch that sets the flag leaves the user with it. -/
theorem wp_patchUser_enabled {userId : String} {body : PatchUserRequest} {enabled : Bool}
    (hbody : body.enabled = some enabled) :
    (patchUser d op userId body).wp (fun _ t' => t'.db.userEnabled userId = some enabled)
      (fun _ => True) t := by
  let J : World → Prop := fun t' => t'.db.userEnabled userId = some enabled
  have hedit : ∀ {t' : World} {w : DirectoryWrite}, J t' → (∀ e, w ≠ .setUserEnabled userId e) →
      J (t'.exec (.directory w)) :=
    fun h hother => userEnabled_effect (fun e he => absurd he (hother e)) h
  rw [patchUser, wp_transaction]
  refine wp_mono (Q := fun _ => J) (E := fun _ => True) ?_ (fun _ _ h => h) fun _ _ => trivial
  refine wp_seq (I := fun _ t' => (t'.db.users.get userId).isSome) ?_ fun _ t₁ h₁ => ?_
  · simp only [requireUser, wp_bind, wp_read, wp_require]
    refine ⟨fun _ => trivial, fun row hrow => ?_⟩
    simp [(Option.filter_eq_some_iff.mp hrow).1]
  refine wp_seq (I := fun _ => J) ?_ fun _ t₂ h₂ => ?_
  · rw [hbody]
    refine wp_onDirectory fun _ => ?_
    obtain ⟨row, hrow⟩ := Option.isSome_iff_exists.mp h₁
    have hkey : row.userId = userId := Table.key_of_get hrow
    simp [J, Directory.userEnabled, DirectoryWrite.effect, hrow, hkey]
  refine wp_seq (I := fun _ => J) ?_ fun _ t₃ h₃ => ?_
  · rw [wp_ifSome]
    refine ⟨fun _ => h₂, fun isAdmin _ => wp_seq (I := fun _ => J)
      (wp_onDirectory fun _ => hedit h₂ (by simp)) fun _ t' h' => ?_⟩
    simp only [requireTenant, syncAdminFlag, wp_bind, wp_read, wp_require, wp_ifSome]
    refine ⟨fun _ => trivial, fun tenant _ => ⟨fun _ => h', fun group _ => ?_⟩⟩
    refine wp_mono (Q := fun _ => J) ?_ (fun _ t'' h'' => ?_) fun _ h => h
    · rw [wp_when]
      exact ⟨fun _ => wp_onDirectory fun _ => hedit h' (by simp), fun _ => h'⟩
    · rw [wp_when]
      exact ⟨fun _ => wp_onDirectory fun _ => hedit h'' (by simp), fun _ => h''⟩
  refine wp_seq (I := fun _ => J) (wp_ifSome_edit h₃ fun _ _ _ => hedit h₃ (by simp))
    fun _ t₄ h₄ => ?_
  refine wp_seq (I := fun _ => J) (wp_ifSome_edit h₄ fun _ _ _ => hedit h₄ (by simp))
    fun _ t₅ h₅ => ?_
  exact wp_refreshUser h₅

theorem edits_patchTenant {tenantId : String} {body : PatchTenantRequest} :
    (patchTenant tenantId body).wp (fun _ => Extends (Edits op (.patchTenant tenantId body)) t)
      (Unwritten t) t := by
  refine wp_edit (wp_seq (I := fun _ => Extends (Edits op (.patchTenant tenantId body)) t)
    (wp_requireTenant (fun _ _ => Extends.refl t) trivial) fun _ t₁ h₁ => ?_)
  refine wp_seq (I := fun _ => Extends (Edits op (.patchTenant tenantId body)) t)
    (wp_ifSome_edit h₁ fun _ _ => edit_step h₁ trivial) fun _ t₂ h₂ => ?_
  refine wp_seq (I := fun _ => Extends (Edits op (.patchTenant tenantId body)) t) ?_
    fun _ t₃ h₃ => ?_
  · rw [wp_ifSome]
    exact ⟨fun _ => h₂, fun _ _ => wp_setDomains h₂⟩
  refine wp_seq (I := fun _ => Extends (Edits op (.patchTenant tenantId body)) t)
    (wp_ifSome_edit h₃ fun _ _ => edit_step h₃ trivial) fun _ t₄ h₄ => wp_refreshTenant h₄

theorem edits_createApplication {body : CreateApplicationRequest} :
    (createApplication d op body).wp (fun _ => Extends (Edits op (.createApplication body)) t)
      (Unwritten t) t := by
  refine wp_edit ?_
  simp only [wp_bind, wp_read, wp_raiseIf]
  refine ⟨fun _ => trivial, fun _ => wp_onDirectory fun haccepted => ?_⟩
  exact wp_refreshApplication (edit_step (Extends.refl t) trivial haccepted)

theorem edits_patchApplication {applicationId : String} {body : PatchApplicationRequest} :
    (patchApplication op applicationId body).wp
      (fun _ => Extends (Edits op (.patchApplication applicationId body)) t) (Unwritten t) t := by
  let P := Extends (χ := Call) (Edits op (.patchApplication applicationId body)) t
  refine wp_edit (wp_seq (I := fun _ t' => t' = t ∧
    t.db.applicationTenant applicationId = some op.tenantId)
    (wp_requireApplication (fun _ h => ⟨rfl, h⟩) trivial) ?_)
  rintro _ t ⟨rfl, hown⟩
  refine wp_seq (I := fun tenant t' => t' = t ∧ t.db.tenants.get op.tenantId = some tenant)
    (wp_requireTenant (fun _ h => ⟨rfl, h⟩) trivial) ?_
  rintro tenant t ⟨rfl, htenant⟩
  rw [wp_bind, wp_raiseIf]
  refine ⟨fun _ => trivial, fun hconsole => ?_⟩
  refine wp_seq (I := fun _ t' => P t' ∧ t'.db.anchors op.tenantId = t.db.anchors op.tenantId ∧
      t'.db.applicationTenant applicationId = some op.tenantId)
    (wp_ifSome_edit ⟨Extends.refl t, rfl, hown⟩ fun _ _ haccepted =>
      ⟨edit_step (Extends.refl t) trivial haccepted, rfl, applicationTenant_effect hown⟩)
    fun _ t₁ h₁ => ?_
  obtain ⟨hpath, hanchors, hown₁⟩ := h₁
  refine wp_seq (I := fun _ => P) (wp_ifSome_edit hpath fun enabled henabled haccepted =>
    edit_step hpath ?_ haccepted) fun _ t₂ h₂ => ?_
  · -- the application disabled is the tenant's own and not its console
    intro hoff
    refine ⟨hown₁, fun anchors hanchor hsame => hconsole ⟨by rw [henabled, hoff], ?_⟩⟩
    rw [hanchors, Directory.anchors, htenant] at hanchor
    rw [← hsame, ← Option.some.inj hanchor]
  refine wp_seq (I := fun _ => P) (wp_ifSome_edit h₂ fun _ _ => edit_step h₂ trivial)
    fun _ t₃ h₃ => ?_
  refine wp_seq (I := fun _ => P) (wp_ifSome_edit h₃ fun _ _ => edit_step h₃ trivial)
    fun _ t₄ h₄ => wp_refreshApplication h₄

theorem edits_createGroup {body : CreateGroupRequest} :
    (createGroup d op body).wp (fun _ => Extends (Edits op (.createGroup body)) t)
      (Unwritten t) t := by
  refine wp_edit ?_
  simp only [wp_bind, wp_read, wp_raiseIf, wp_onIntegrity]
  refine ⟨fun _ => trivial, fun _ => ⟨fun _ => trivial, fun _ => ?_⟩⟩
  refine wp_onDirectory fun haccepted => ?_
  exact wp_refreshGroup (edit_step (Extends.refl t) trivial haccepted)

theorem edits_patchGroup {groupId : String} {body : PatchGroupRequest} :
    (patchGroup op groupId body).wp (fun _ => Extends (Edits op (.patchGroup groupId body)) t)
      (Unwritten t) t := by
  let P := Extends (χ := Call) (Edits op (.patchGroup groupId body)) t
  refine wp_edit (wp_seq (I := fun _ => P)
    (wp_requireGroup (fun _ _ => Extends.refl t) trivial) fun _ t₁ h₁ => ?_)
  refine wp_seq (I := fun _ => P) ?_ fun _ t₂ h₂ => ?_
  · simp only [wp_ifSome, wp_bind, wp_read, wp_raiseIf]
    exact ⟨fun _ => h₁, fun _ _ => ⟨fun _ => trivial, fun _ => h₁⟩⟩
  refine wp_seq (I := fun _ => P) ?_ fun _ t₃ h₃ => wp_refreshGroup h₃
  rw [wp_onIntegrity]
  refine wp_seq (I := fun _ => P) (wp_ifSome_edit h₂ fun _ _ => edit_step h₂ trivial)
    fun _ t₃ h₃ => ?_
  exact wp_ifSome_edit h₃ fun _ _ => edit_step h₃ trivial

theorem edits_deleteGroup {groupId : String} :
    (deleteGroup op groupId).wp (fun _ => Extends (Edits op (.deleteGroup groupId)) t)
      (Unwritten t) t := by
  refine wp_edit (wp_seq (I := fun _ t' => t' = t ∧ t.db.groupTenant groupId = some op.tenantId)
    (wp_requireGroup (fun _ h => ⟨rfl, h⟩) trivial) ?_)
  rintro _ t ⟨rfl, hown⟩
  refine wp_seq (I := fun tenant t' => t' = t ∧ t.db.tenants.get op.tenantId = some tenant)
    (wp_requireTenant (fun _ h => ⟨rfl, h⟩) trivial) ?_
  rintro tenant t ⟨rfl, htenant⟩
  simp only [wp_bind, wp_raiseIf]
  refine ⟨fun _ => trivial, fun hadmin => wp_onDirectory fun hmembers =>
    wp_onDirectory fun hroles => wp_onDirectory fun haccepted => ?_⟩
  refine edit_step (edit_step (edit_step (Extends.refl t) trivial hmembers) trivial hroles)
    ⟨hown, fun anchors hanchor hsame => hadmin ?_⟩ haccepted
  have hanchors : t.db.anchors op.tenantId = some anchors := hanchor
  rw [Directory.anchors, htenant] at hanchors
  rw [← hsame, ← Option.some.inj hanchors]

theorem edits_addMember {groupId : String} {body : AddGroupMemberRequest} :
    (addMember op groupId body).wp (fun _ => Extends (Edits op (.addMember groupId body)) t)
      (Unwritten t) t := by
  refine wp_edit (wp_seq (I := fun _ t' => t' = t ∧ t.db.groupTenant groupId = some op.tenantId)
    (wp_requireGroup (fun _ h => ⟨rfl, h⟩) trivial) ?_)
  rintro _ t ⟨rfl, hgroup⟩
  refine wp_seq (I := fun _ t' => t' = t ∧ t.db.userTenant body.userId = some op.tenantId)
    (wp_requireUser (fun _ h => ⟨rfl, h⟩) trivial) ?_
  rintro _ t ⟨rfl, huser⟩
  simp only [wp_bind, wp_read, wp_raiseIf]
  refine ⟨fun _ => trivial, fun _ => wp_onDirectory fun haccepted => wp_refreshGroup ?_⟩
  exact edit_step (Extends.refl t) ⟨huser, Or.inl hgroup⟩ haccepted

theorem edits_removeMember {groupId userId : String} :
    (removeMember op groupId userId).wp
      (fun _ => Extends (Edits op (.removeMember groupId userId)) t) (Unwritten t) t := by
  refine wp_edit (wp_seq (I := fun _ t' => t' = t)
    (wp_requireGroup (fun _ _ => rfl) trivial) ?_)
  rintro _ t rfl
  simp only [wp_bind, wp_read, wp_raiseIf]
  refine ⟨fun _ => trivial, fun _ => wp_onDirectory fun haccepted => wp_refreshGroup ?_⟩
  exact edit_step (Extends.refl t) trivial haccepted

theorem edits_addGroupRole {groupId : String} {body : AddGroupRoleRequest} :
    (addGroupRole op groupId body).wp (fun _ => Extends (Edits op (.addGroupRole groupId body)) t)
      (Unwritten t) t := by
  refine wp_edit (wp_seq (I := fun _ t' => t' = t ∧ t.db.groupTenant groupId = some op.tenantId)
    (wp_requireGroup (fun _ h => ⟨rfl, h⟩) trivial) ?_)
  rintro _ t ⟨rfl, hgroup⟩
  refine wp_seq (I := fun role t' => t' = t ∧
      t.db.roleOwners body.roleId = some (op.tenantId, role.applicationId))
    (wp_requireRole (fun _ _ h => ⟨rfl, h⟩) trivial) ?_
  rintro role t ⟨rfl, hrole⟩
  simp only [wp_bind, wp_read, wp_raiseIf]
  refine ⟨fun _ => trivial, fun _ => wp_onDirectory fun haccepted => wp_refreshGroup ?_⟩
  exact edit_step (Extends.refl t) ⟨hgroup, _, hrole⟩ haccepted

theorem edits_removeGroupRole {groupId roleId : String} :
    (removeGroupRole op groupId roleId).wp
      (fun _ => Extends (Edits op (.removeGroupRole groupId roleId)) t) (Unwritten t) t := by
  refine wp_edit (wp_seq (I := fun _ t' => t' = t)
    (wp_requireGroup (fun _ _ => rfl) trivial) ?_)
  rintro _ t rfl
  simp only [wp_bind, wp_read, wp_raiseIf]
  refine ⟨fun _ => trivial, fun _ => wp_onDirectory fun haccepted => wp_refreshGroup ?_⟩
  exact edit_step (Extends.refl t) trivial haccepted

theorem edits_createRole {body : CreateRoleRequest} :
    (createRole d op body).wp (fun _ => Extends (Edits op (.createRole body)) t)
      (Unwritten t) t := by
  refine wp_edit (wp_seq (I := fun _ t' => t' = t ∧
    t.db.applicationTenant body.applicationId = some op.tenantId)
    (wp_requireApplication (fun _ h => ⟨rfl, h⟩) trivial) ?_)
  rintro _ t ⟨rfl, hown⟩
  simp only [wp_bind, wp_read, wp_raiseIf, wp_onIntegrity]
  refine ⟨fun _ => trivial, fun _ => ⟨fun _ => trivial, fun _ => ?_⟩⟩
  refine wp_onDirectory fun haccepted => ?_
  exact wp_refreshRole (edit_step (Extends.refl t) ⟨rfl, hown⟩ haccepted)

theorem edits_patchRole {roleId : String} {body : PatchRoleRequest} :
    (patchRole op roleId body).wp (fun _ => Extends (Edits op (.patchRole roleId body)) t)
      (Unwritten t) t := by
  let P := Extends (χ := Call) (Edits op (.patchRole roleId body)) t
  refine wp_edit (wp_seq (I := fun _ => P)
    (wp_requireRole (fun _ _ _ => Extends.refl t) trivial) fun row t₁ h₁ => ?_)
  refine wp_seq (I := fun _ => P) ?_ fun _ t₂ h₂ => ?_
  · simp only [wp_ifSome, wp_bind, wp_read, wp_raiseIf]
    exact ⟨fun _ => h₁, fun _ _ => ⟨fun _ => trivial, fun _ =>
      wp_onDirectory (edit_step h₁ trivial)⟩⟩
  exact wp_seq (I := fun _ => P) (wp_ifSome_edit h₂ fun _ _ => edit_step h₂ trivial)
    fun _ t₃ h₃ => wp_refreshRole h₃

theorem edits_deleteRole {roleId : String} :
    (deleteRole op roleId).wp (fun _ => Extends (Edits op (.deleteRole roleId)) t)
      (Unwritten t) t := by
  refine wp_edit (wp_seq (I := fun _ t' => t' = t)
    (wp_requireRole (fun _ _ _ => rfl) trivial) ?_)
  rintro _ t rfl
  simp only [wp_bind]
  refine wp_onDirectory fun hpermissions => wp_onDirectory fun hgroups =>
    wp_onDirectory fun haccepted => ?_
  exact edit_step (edit_step (edit_step (Extends.refl t) trivial hpermissions) trivial hgroups)
    trivial haccepted

theorem edits_setRolePermissions {roleId : String} {body : SetRolePermissionsRequest} :
    (setRolePermissions op roleId body).wp
      (fun _ => Extends (Edits op (.setRolePermissions roleId body)) t) (Unwritten t) t := by
  let J : World → Prop := fun t' =>
    Extends (Edits op (.setRolePermissions roleId body)) t t' ∧
      t'.db.roles = t.db.roles ∧ t'.db.permissions = t.db.permissions
  refine wp_edit (wp_seq (I := fun role t' => t' = t ∧
      t.db.roleOwners roleId = some (op.tenantId, role.applicationId))
    (wp_requireRole (fun _ _ h => ⟨rfl, h⟩) trivial) ?_)
  rintro role t ⟨rfl, hrole⟩
  simp only [wp_bind, wp_read, wp_raiseIf]
  refine ⟨fun _ => trivial, fun hknown => ⟨fun _ => trivial, fun hsame =>
    wp_onDirectory fun hcleared => ?_⟩⟩
  simp only [ne_eq, not_not, List.filter_eq_nil_iff, Bool.not_eq_true] at hknown hsame
  refine wp_mono (wp_forEach (I := J) (fun pid hpid t' h' => ?_)
    ⟨edit_step (Extends.refl t) trivial hcleared, rfl, rfl⟩)
    (fun _ t' h' => wp_refreshRole h'.1) fun _ h => h
  obtain ⟨hpath, hroles, hpermissions⟩ := h'
  refine wp_onDirectory fun haccepted =>
    ⟨edit_step hpath ⟨op.tenantId, role.applicationId, ?_, ?_⟩ haccepted, hroles, hpermissions⟩
  · rw [Directory.roleOwners, hroles]
    exact hrole
  · -- the permission is known, and of the role's application
    obtain ⟨permission, hown⟩ := Option.isSome_iff_exists.mp
      (Option.isNone_eq_false_iff.mp (hknown pid hpid))
    have happ := hsame pid hpid
    rw [hown, Option.any_some, bne_eq_false_iff_eq] at happ
    rw [Directory.permissionApplication, hpermissions, (Option.filter_eq_some_iff.mp hown).1,
      Option.map_some, happ]

theorem edits_createPermission {body : CreatePermissionRequest} :
    (createPermission op body).wp (fun _ => Extends (Edits op (.createPermission body)) t)
      (Unwritten t) t := by
  refine wp_edit (wp_seq (I := fun _ t' => t' = t)
    (wp_requireApplication (fun _ _ => rfl) trivial) ?_)
  rintro _ t rfl
  simp only [wp_bind, wp_read, wp_raiseIf, wp_onIntegrity]
  refine ⟨fun _ => trivial, fun _ => wp_onDirectory fun haccepted => ?_⟩
  exact edit_step (Extends.refl t) trivial haccepted

end Calls

end RbaIdp
