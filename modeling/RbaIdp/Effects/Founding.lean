import RbaIdp.Effects.Admin

/-!
# What the creation of a tenant writes

Two bounds on one program.  From above, `Founds`: everything the creation adds
is the new tenant's or on its console, under ids derived from the tenant's.
From below, `Established`: when it returns, there is a row under every one of
those ids and the tenant is anchored to them.

The bounds do not meet.  A row that stood under a derived id before is neither
replaced nor looked at, so it is established without having been founded.
-/

namespace RbaIdp

open Relational Program

/-- The statements the creation of a tenant may execute. -/
def Founds (env : Env) (d : Draws) (body : CreateTenantRequest) : DirectoryWrite → Prop
  | .insertTenant row => row = tenantRow env d body
  | .deleteTenantDomains tenantId => tenantId = body.tenantId
  | .insertTenantDomain row => row.tenantId = body.tenantId
  | .insertApplication row =>
      row.applicationId = consoleApplicationId body.tenantId ∧ row.tenantId = body.tenantId
  | .setApplicationClientId applicationId _ => applicationId = consoleApplicationId body.tenantId
  | .insertPermission row =>
      row.applicationId = consoleApplicationId body.tenantId ∧
        ∃ s ∈ TENANT_ADMIN_SCOPES, (row.resource, row.operation) = s ∧
          row.permissionId = permissionId (consoleApplicationId body.tenantId) s
  | .insertRole row =>
      (row.roleId = adminRoleId body.tenantId ∨ row.roleId = supportRoleId body.tenantId) ∧
        row.tenantId = body.tenantId ∧ row.applicationId = consoleApplicationId body.tenantId
  | .insertRolePermission row =>
      (row.roleId = adminRoleId body.tenantId ∧ ∃ s ∈ TENANT_ADMIN_SCOPES,
        row.permissionId = permissionId (consoleApplicationId body.tenantId) s) ∨
      (row.roleId = supportRoleId body.tenantId ∧ ∃ s ∈ SUPPORT_SCOPES,
        row.permissionId = permissionId (consoleApplicationId body.tenantId) s)
  | .insertGroup row => row.groupId = adminGroupId body.tenantId ∧ row.tenantId = body.tenantId
  | .insertGroupRole row => row = ⟨adminGroupId body.tenantId, adminRoleId body.tenantId⟩
  | .setTenantAnchors tenantId consoleApplication adminGroup =>
      tenantId = body.tenantId ∧ consoleApplication = consoleApplicationId body.tenantId ∧
        adminGroup = adminGroupId body.tenantId
  | _ => False

/-- The same, as a condition on statements. -/
def Founding (env : Env) (d : Draws) (body : CreateTenantRequest) (_ : Db) (w : Write) : Prop :=
  ∃ edit, w = .directory edit ∧ Founds env d body edit

/-! ## What is there afterwards -/

/-- A row of the directory, by its key. -/
inductive Row where
  | application (applicationId : String)
  | permission (permissionId : String)
  | role (roleId : String)
  | rolePermission (row : RolePermission)
  | group (groupId : String)
  | groupRole (row : GroupRole)

def Row.Present (db : Directory) : Row → Prop
  | application applicationId => (db.applications.get applicationId).isSome
  | permission permissionId => (db.permissions.get permissionId).isSome
  | role roleId => (db.roles.get roleId).isSome
  | rolePermission row => row ∈ db.rolePermissions
  | group groupId => (db.groups.get groupId).isSome
  | groupRole row => row ∈ db.groupRoles

/-- The rows of a role on a console and of what it carries. -/
def roleRows (tenantId roleId : String) (scopes : List Scope) : List Row :=
  (scopes.map fun s => .rolePermission ⟨roleId, permissionId (consoleApplicationId tenantId) s⟩) ++
    [.role roleId]

/-- The rows of a tenant's console. -/
def consoleRows (tenantId : String) : List Row :=
  [.groupRole ⟨adminGroupId tenantId, adminRoleId tenantId⟩, .group (adminGroupId tenantId)] ++
    roleRows tenantId (supportRoleId tenantId) SUPPORT_SCOPES ++
    roleRows tenantId (adminRoleId tenantId) TENANT_ADMIN_SCOPES ++
    (TENANT_ADMIN_SCOPES.map fun s =>
      .permission (permissionId (consoleApplicationId tenantId) s)) ++
    [.application (consoleApplicationId tenantId)]

structure Established (tenantId : String) (db : Directory) : Prop where
  rows : ∀ row ∈ consoleRows tenantId, row.Present db
  anchors : db.anchors tenantId =
    some (some (consoleApplicationId tenantId), some (adminGroupId tenantId))

variable {env : Env} {d : Draws} {body : CreateTenantRequest} {t₀ t : World} {S : List Row}

/-- The creation of a tenant deletes none of these rows. -/
theorem present_effect {db : Directory} {w : DirectoryWrite} {row : Row}
    (hw : Founds env d body w) (h : row.Present db) : row.Present (w.effect db) := by
  cases row with
  | application => exact applications_effect h
  | permission => exact permissions_effect h
  | role => exact roles_effect (by rintro rfl; exact hw) h
  | group => exact groups_effect (by rintro rfl; exact hw) h
  | rolePermission row =>
      cases w with
      | insertRolePermission other => exact Table.mem_insert_of_mem h
      | deletePermissionsOfRole => exact hw.elim
      | _ => exact h
  | groupRole row =>
      cases w with
      | insertGroupRole other => exact Table.mem_insert_of_mem h
      | deleteGroupRole | deleteRolesOfGroup | deleteGroupsOfRole => exact hw.elim
      | _ => exact h

/-- From `t₀`, the creation has come to `t`, and some rows are there. -/
def Founded (env : Env) (d : Draws) (body : CreateTenantRequest) (t₀ : World) (S : List Row)
    (t : World) : Prop :=
  Extends (Founding env d body) t₀ t ∧ ∀ row ∈ S, row.Present t.db.toDirectory

theorem Founded.mono {S' : List Row} (hsub : S' ⊆ S) (h : Founded env d body t₀ S t) :
    Founded env d body t₀ S' t :=
  ⟨h.1, fun row hrow => h.2 row (hsub hrow)⟩

theorem Founded.exec {w : DirectoryWrite} (h : Founded env d body t₀ S t)
    (hw : Founds env d body w) (haccepted : Statement.violates (Write.directory w) t.db = false) :
    Founded env d body t₀ S (t.exec (.directory w)) :=
  ⟨Extends.exec h.1 ⟨w, rfl, hw⟩ haccepted, fun row hrow => present_effect hw (h.2 row hrow)⟩

theorem wp_found {w : DirectoryWrite} (ht : Founded env d body t₀ S t)
    (hw : Founds env d body w) :
    (onDirectory w).wp (fun _ => Founded env d body t₀ S) (fun _ => True) t :=
  wp_onDirectory fun haccepted => ht.exec hw haccepted

/-- A row that is written only when it is missing is there afterwards. -/
theorem wp_ensure {ρ : Type} [DecidableEq ρ] {found : Option ρ} {w : DirectoryWrite} {row : Row}
    (ht : Founded env d body t₀ S t) (hw : Founds env d body w)
    (hfound : ∀ r, found = some r → row.Present t.db.toDirectory)
    (hmade : found = none → row.Present (w.effect t.db.toDirectory)) :
    (when (found = none) (onDirectory w)).wp (fun _ => Founded env d body t₀ (row :: S))
      (fun _ => True) t := by
  rw [wp_when]
  refine ⟨fun hnone => wp_onDirectory fun haccepted => ?_, fun hsome => ?_⟩
  · obtain ⟨hpath, hrows⟩ := ht.exec hw haccepted
    exact ⟨hpath, List.forall_mem_cons.mpr ⟨hmade hnone, hrows⟩⟩
  · obtain ⟨r, hr⟩ := Option.ne_none_iff_exists'.mp hsome
    exact ⟨ht.1, List.forall_mem_cons.mpr ⟨hfound r hr, ht.2⟩⟩

/-! ## The pieces of a console -/

theorem wp_ensureConsole {name : String} (ht : Founded env d body t₀ S t) :
    (ensureApplication d body.tenantId (consoleApplicationId body.tenantId) name none).wp
      (fun _ => Founded env d body t₀ (.application (consoleApplicationId body.tenantId) :: S))
      (fun _ => True) t := by
  simp only [ensureApplication, wp_bind, wp_read]
  cases hfound : t.db.applications.get (consoleApplicationId body.tenantId) with
  | none =>
      refine wp_onDirectory fun haccepted => ?_
      obtain ⟨hpath, hrows⟩ := Founded.exec (w := .insertApplication _) ht ⟨rfl, rfl⟩ haccepted
      refine ⟨hpath, List.forall_mem_cons.mpr ⟨?_, hrows⟩⟩
      simp [Row.Present, DirectoryWrite.effect, hfound]
  | some row =>
      -- whoever's the row is, it is taken as the console
      have hstands : Founded env d body t₀ (.application (consoleApplicationId body.tenantId) :: S)
          t := ⟨ht.1, List.forall_mem_cons.mpr ⟨by simp [Row.Present, hfound], ht.2⟩⟩
      refine wp_seq (I := fun _ =>
        Founded env d body t₀ (.application (consoleApplicationId body.tenantId) :: S)) ?_
        fun _ t' ht' => ?_
      · rw [wp_when]
        exact ⟨fun _ => wp_found hstands rfl, fun _ => hstands⟩
      · rw [wp_when]
        exact ⟨fun h => absurd h (by simp), fun _ => ht'⟩

theorem wp_ensureConsolePermission {spec : PermissionSpec} (hspec : spec ∈ CONSOLE_PERMISSIONS)
    (ht : Founded env d body t₀ S t) :
    (ensurePermission (consoleApplicationId body.tenantId) spec).wp
      (fun _ => Founded env d body t₀
        (.permission (permissionId (consoleApplicationId body.tenantId) spec.scope) :: S))
      (fun _ => True) t := by
  simp only [ensurePermission, wp_bind, wp_read]
  refine wp_ensure ht ⟨rfl, spec.scope, List.mem_map_of_mem hspec, rfl, rfl⟩ (fun r hr => ?_)
    fun hnone => ?_
  · simp [Row.Present, hr]
  · simp [Row.Present, DirectoryWrite.effect, hnone]

theorem wp_ensureRolePermission {roleId : String} {s : Scope} (ht : Founded env d body t₀ S t)
    (hfounds : Founds env d body
      (.insertRolePermission ⟨roleId, permissionId (consoleApplicationId body.tenantId) s⟩)) :
    (ensureRolePermission roleId (consoleApplicationId body.tenantId) s).wp
      (fun _ => Founded env d body t₀
        (.rolePermission ⟨roleId, permissionId (consoleApplicationId body.tenantId) s⟩ :: S))
      (fun _ => True) t := by
  simp only [ensureRolePermission, wp_bind, wp_read]
  refine wp_ensure ht hfounds (fun r hr => ?_) fun hnone => ?_
  · obtain ⟨hmem, hkey⟩ := Table.get_eq_some.mp hr
    have heq : r = ⟨roleId, permissionId (consoleApplicationId body.tenantId) s⟩ := by
      cases r
      simpa [RolePermission.key] using hkey
    exact heq ▸ hmem
  · exact (Table.mem_insert hnone).mpr (Or.inr rfl)

theorem wp_ensureConsoleRole {roleId name description : String} {scopes : List Scope}
    (ht : Founded env d body t₀ S t)
    (hids : roleId = adminRoleId body.tenantId ∧ scopes = TENANT_ADMIN_SCOPES ∨
      roleId = supportRoleId body.tenantId ∧ scopes = SUPPORT_SCOPES) :
    (ensureRole d body.tenantId roleId (consoleApplicationId body.tenantId) name description
      scopes).wp (fun _ => Founded env d body t₀ (roleRows body.tenantId roleId scopes ++ S))
      (fun _ => True) t := by
  simp only [ensureRole]
  rw [wp_bind, wp_read]
  refine wp_seq (I := fun _ => Founded env d body t₀ (.role roleId :: S)) ?_ fun _ t' ht' => ?_
  · refine wp_ensure ht ⟨hids.imp And.left And.left, rfl, rfl⟩ (fun r hr => ?_) fun hnone => ?_
    · simp [Row.Present, hr]
    · simp [Row.Present, DirectoryWrite.effect, hnone]
  · have hloop := wp_forEach_collect (J := Founded env d body t₀) (E := fun _ => True)
      (f := ensureRolePermission roleId (consoleApplicationId body.tenantId))
      (fun hsub h => h.mono hsub)
      (fun s (hs : s ∈ scopes) S t ht => wp_ensureRolePermission ht ?_) ht'
    · simpa [roleRows] using hloop
    · rcases hids with ⟨rfl, rfl⟩ | ⟨rfl, rfl⟩
      · exact Or.inl ⟨rfl, s, hs, rfl⟩
      · exact Or.inr ⟨rfl, s, hs, rfl⟩

theorem wp_ensureAdminGroup {name description : String} (ht : Founded env d body t₀ S t) :
    (ensureGroup d body.tenantId (adminGroupId body.tenantId) name description
      [adminRoleId body.tenantId]).wp
      (fun _ => Founded env d body t₀
        ([.groupRole ⟨adminGroupId body.tenantId, adminRoleId body.tenantId⟩,
          .group (adminGroupId body.tenantId)] ++ S))
      (fun _ => True) t := by
  simp only [ensureGroup, forEach]
  rw [wp_bind, wp_read]
  refine wp_seq (I := fun _ => Founded env d body t₀ (.group (adminGroupId body.tenantId) :: S)) ?_
    fun _ t' ht' => ?_
  · refine wp_ensure ht ⟨rfl, rfl⟩ (fun r hr => ?_) fun hnone => ?_
    · simp [Row.Present, hr]
    · simp [Row.Present, DirectoryWrite.effect, hnone]
  · simp only [ensureGroupRole, wp_bind, wp_read, wp_pure]
    refine wp_ensure ht' rfl (fun r hr => ?_) fun hnone => ?_
    · obtain ⟨hmem, hkey⟩ := Table.get_eq_some.mp hr
      have heq : r = ⟨adminGroupId body.tenantId, adminRoleId body.tenantId⟩ := by
        cases r
        simpa [GroupRole.key] using hkey
      exact heq ▸ hmem
    · exact (Table.mem_insert hnone).mpr (Or.inr rfl)

theorem wp_bootstrapConsole (ht : Founded env d body t₀ S t) :
    (bootstrapConsole d (tenantRow env d body)).wp
      (fun _ t' => Extends (Founding env d body) t₀ t' ∧
        Established body.tenantId t'.db.toDirectory) (fun _ => True) t := by
  simp only [bootstrapConsole]
  refine wp_seq (wp_ensureConsole ht) fun _ t₁ h₁ => ?_
  refine wp_seq (wp_forEach_collect (J := Founded env d body t₀) (fun hsub h => h.mono hsub)
    (fun spec hspec _ _ h => wp_ensureConsolePermission hspec h) h₁) fun _ t₂ h₂ => ?_
  refine wp_seq (wp_ensureConsoleRole h₂ (Or.inl ⟨rfl, rfl⟩)) fun _ t₃ h₃ => ?_
  refine wp_seq (wp_ensureConsoleRole h₃ (Or.inr ⟨rfl, rfl⟩)) fun _ t₄ h₄ => ?_
  refine wp_seq (wp_ensureAdminGroup h₄) fun _ t₅ h₅ => ?_
  refine wp_onDirectory fun haccepted => ?_
  obtain ⟨hpath, hrows⟩ :=
    Founded.exec (w := .setTenantAnchors _ _ _) h₅ ⟨rfl, rfl, rfl⟩ haccepted
  refine ⟨hpath, fun row hrow => hrows row ?_, ?_⟩
  · simp only [consoleRows, TENANT_ADMIN_SCOPES, List.mem_append, List.map_map] at hrow ⊢
    simp only [List.mem_cons, Function.comp_def] at hrow ⊢
    tauto
  · -- the tenant is there, or the last statement would have been refused
    have hsome : (t₅.db.tenants.get body.tenantId).isSome := by
      simpa [DirectoryWrite.violates, tenantRow] using haccepted
    obtain ⟨tenant, htenant⟩ := Option.isSome_iff_exists.mp hsome
    have hkey : tenant.tenantId = body.tenantId := Table.key_of_get htenant
    simp [Directory.anchors, DirectoryWrite.effect, tenantRow, htenant, hkey]

/-- A tenant is created: its id was free, and its console is there. -/
structure Creates (env : Env) (d : Draws) (body : CreateTenantRequest) (t t' : World) : Prop where
  free : t.db.tenants.get body.tenantId = none
  founding : Extends (Founding env d body) t t'
  established : Established body.tenantId t'.db.toDirectory

theorem wp_insertTenant (hstart : Founded env d body t₀ [] t) {E : World → Prop}
    (herror : ∀ t' : World, t'.db = t.db → t'.writes = t.writes → E t') :
    (insertTenant env d body).wp (fun _ t' => Extends (Founding env d body) t₀ t' ∧
      Established body.tenantId t'.db.toDirectory) E t := by
  rw [insertTenant, wp_transaction]
  -- an error rolls the transaction back, so what is true of the state it leaves does not matter
  refine wp_mono (Q := fun _ t' => Extends (Founding env d body) t₀ t' ∧
    Established body.tenantId t'.db.toDirectory) (E := fun _ => True) ?_
    (fun _ _ h => h) fun _ _ => herror _ rfl rfl
  refine wp_seq (I := fun _ t' => Extends (Founding env d body) t₀ t' ∧
    Established body.tenantId t'.db.toDirectory) ?_ fun _ t₁ h₁ => wp_refreshTenant h₁
  rw [wp_onIntegrity]
  refine wp_seq (wp_found hstart rfl) fun _ t₁ h₁ => ?_
  refine wp_seq (I := fun _ => Founded env d body t₀ []) ?_ fun _ t₂ h₂ => wp_bootstrapConsole h₂
  simp only [setDomains]
  refine wp_seq (I := fun _ => Founded env d body t₀ [])
    (wp_forEach (fun domain _ t' ht' => ?_) h₁) fun _ t₃ h₃ => ?_
  · simp only [wp_bind, wp_read, wp_raiseIf]
    exact ⟨fun _ => trivial, fun _ => ht'⟩
  · refine wp_seq (wp_found h₃ rfl) fun _ t₄ h₄ => ?_
    exact wp_forEach (fun domain _ t' ht' => wp_found ht' rfl) h₄

theorem wp_createTenant :
    (createTenant env d body).wp (fun _ => Creates env d body t) (Unwritten t) t := by
  simp only [createTenant, checkTenant, wp_bind, wp_transaction, wp_read, wp_raiseIf, wp_call]
  refine ⟨fun _ => ⟨rfl, rfl⟩, fun hfree => ?_⟩
  refine wp_mono (Q := fun _ t' => t' = t) (E := fun _ => True)
    (wp_forEach (fun domain _ t' ht' => ?_) rfl) ?_ fun _ _ => ⟨rfl, rfl⟩
  · simp only [wp_bind, wp_read, wp_raiseIf]
    exact ⟨fun _ => trivial, fun _ => ht'⟩
  rintro _ t rfl
  refine ⟨fun _ => ⟨rfl, rfl⟩, fun _ => ?_⟩
  have hstart : Founded env d body t [] ⟨t.db, t.writes,
      t.calls ++ [.putPolicy (starterPolicy body.tenantId) d.policySaved]⟩ :=
    ⟨⟨[], by simp, .nil⟩, by simp⟩
  refine wp_mono (wp_insertTenant hstart fun t' hdb hwrites => (⟨hdb, hwrites⟩ : Unwritten t t'))
    (fun _ t' h => ?_) fun _ h => h
  exact ⟨not_not.mp hfree, h.1, h.2⟩

end RbaIdp
