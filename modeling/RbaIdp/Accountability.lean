import RbaIdp.Reach
import RbaIdp.Separation

/-!
# Where a permission comes from

Every request is one step on the relations of authorization (`grants_served`): the
sign-in and the calls that say nothing about groups, roles and permissions keep them
as they are.  So a permission that is new to a user was given by the step of a call,
and there are five calls whose steps can: a new member of a group, a new user or an
old one made administrator, a role assigned to a group, new contents of a role
(`AdminCall.Gives`).  New roles and permissions are no such steps, because nothing
names them yet.  A permission that is gone was taken by one of six (`AdminCall.Takes`).

In a run, `ApiRun.lastChange` finds the request that changed a fact for the last time.
That the operator of the call acted on the user's own tenant is what the isolation of
tenants says: the calls of others leave the tenant's rows as they are.
-/

namespace RbaIdp

open Relational Program

variable {env : Env} {d : Draws} {op : Operator} {call : AdminCall}
  {userId applicationId text : String}

/-! ## One request -/

/-- The step of a request on the relations. -/
def requestStep (env : Env) (d : Draws) (dir : Directory) :
    Request → Grants.Edit String String String String String String
  | .admin op (.createUser body) =>
      syncStep dir op.tenantId (userRow env d op body).userId body.isAdmin
  | .admin op call => stepOf d op dir call
  | _ => .keep

section Unread

variable {γ : Grants String String String String String String} {t : World} {w : DirectoryWrite}

/-- A statement on what the relations do not read. -/
theorem wp_unread (hw : ∀ dir, grants (w.effect dir) = grants dir)
    (h : grants t.db.toDirectory = γ) :
    (onDirectory w).wp (fun _ t' => grants t'.db.toDirectory = γ) (fun _ => True) t :=
  wp_onDirectory fun _ => (hw _).trans h

theorem wp_unread_ifSome {α : Type} {o : Option α} {w : α → DirectoryWrite}
    (hw : ∀ a dir, grants ((w a).effect dir) = grants dir) (h : grants t.db.toDirectory = γ) :
    (ifSome o fun a => onDirectory (w a)).wp (fun _ t' => grants t'.db.toDirectory = γ)
      (fun _ => True) t := by
  rw [wp_ifSome]
  exact ⟨fun _ => h, fun a _ => wp_unread (hw a) h⟩

theorem unread_setDomains {tenantId : String} {domains : List String}
    (h : grants t.db.toDirectory = γ) :
    (setDomains tenantId domains).wp (fun _ t' => grants t'.db.toDirectory = γ)
      (fun _ => True) t := by
  refine wp_seq (I := fun _ t' => grants t'.db.toDirectory = γ) ?_ fun _ t₁ h₁ => ?_
  · refine wp_forEach (fun domain _ t' h' => ?_) h
    simp [h']
  · refine wp_seq (wp_unread (fun _ => rfl) h₁) fun _ t₂ h₂ => ?_
    exact wp_forEach (fun domain _ t' h' => wp_unread (fun _ => rfl) h') h₂

theorem unread_patchTenant {tenantId : String} {body : PatchTenantRequest}
    (h : grants t.db.toDirectory = γ) :
    (patchTenant tenantId body).wp (fun _ t' => grants t'.db.toDirectory = γ)
      (fun _ => True) t := by
  rw [patchTenant, wp_transaction]
  refine wp_seq (I := fun _ t' => grants t'.db.toDirectory = γ) (by simp [requireTenant, h])
    fun _ t₁ h₁ => ?_
  refine wp_seq (wp_unread_ifSome (fun _ _ => rfl) h₁) fun _ t₂ h₂ => ?_
  refine wp_seq (I := fun _ t' => grants t'.db.toDirectory = γ) ?_ fun _ t₃ h₃ => ?_
  · rw [wp_ifSome]
    exact ⟨fun _ => h₂, fun domains _ => unread_setDomains h₂⟩
  refine wp_seq (wp_unread_ifSome (fun _ _ => rfl) h₃) fun _ t₄ h₄ => ?_
  simp [refreshTenant, requireTenant, h₄]

theorem unread_createApplication {body : CreateApplicationRequest}
    (h : grants t.db.toDirectory = γ) :
    (createApplication d op body).wp (fun _ t' => grants t'.db.toDirectory = γ)
      (fun _ => True) t := by
  simp only [createApplication, wp_transaction, wp_bind, wp_read, wp_raiseIf]
  refine ⟨fun _ => trivial, fun _ => ?_⟩
  refine wp_mono (wp_unread (fun _ => rfl) h) (fun _ t' h' => ?_) fun _ h => h
  simp [refreshApplication, requireApplication, h']

theorem unread_patchApplication {body : PatchApplicationRequest}
    (h : grants t.db.toDirectory = γ) :
    (patchApplication op applicationId body).wp (fun _ t' => grants t'.db.toDirectory = γ)
      (fun _ => True) t := by
  rw [patchApplication, wp_transaction]
  refine wp_seq (I := fun _ t' => grants t'.db.toDirectory = γ) (by simp [requireApplication, h])
    fun _ t₁ h₁ => ?_
  refine wp_seq (I := fun _ t' => grants t'.db.toDirectory = γ) (by simp [requireTenant, h₁])
    fun tenant t₂ h₂ => ?_
  refine wp_seq (I := fun _ t' => grants t'.db.toDirectory = γ) (by simp [h₂]) fun _ t₃ h₃ => ?_
  refine wp_seq (wp_unread_ifSome (fun _ _ => rfl) h₃) fun _ t₄ h₄ => ?_
  refine wp_seq (wp_unread_ifSome (fun _ _ => rfl) h₄) fun _ t₅ h₅ => ?_
  refine wp_seq (wp_unread_ifSome (fun _ _ => rfl) h₅) fun _ t₆ h₆ => ?_
  refine wp_seq (wp_unread_ifSome (fun _ _ => rfl) h₆) fun _ t₇ h₇ => ?_
  simp [refreshApplication, requireApplication, h₇]

end Unread

variable {s : Served}

/-- What is no edit keeps the relations. -/
theorem grants_idle
    (hidle : ∀ op call, s.request = .admin op call →
      call.edits = false ∧ ∀ body, call ≠ .createTenant body) :
    grants (s.after env).toDirectory = grants s.before.toDirectory := by
  -- a time of last login is nothing the relations read
  show grants (s.after env).toDirectory.withoutLogins = grants s.before.toDirectory.withoutLogins
  rw [withoutLogins_of_idle hidle]

theorem requestStep_of_kind {dir : Directory} (hkind : call.editKind.isSome = true) :
    requestStep env d dir (.admin op call) = stepOf d op dir call := by
  cases call with
  | createUser => cases hkind
  | _ => rfl

/-- **A request is a step.**  The state an answered request leaves has the relations
its step leaves. -/
theorem grants_served {a : Answer} (hanswer : s.answer env = .ok a)
    (hcreate : ∀ op body, s.request ≠ .admin op (.createTenant body)) :
    grants (s.after env).toDirectory =
      (requestStep env s.draws s.before.toDirectory s.request).apply
        (grants s.before.toDirectory) := by
  obtain ⟨db, request, d⟩ := s
  have hnotCall : (∀ op call, request ≠ .admin op call) →
      grants (Served.after env ⟨db, request, d⟩).toDirectory = grants db.toDirectory := by
    intro hnot
    exact grants_idle fun op call hrequest => absurd hrequest (hnot op call)
  cases request with
  | admin op call =>
      by_cases hkind : call.editKind.isSome = true
      · have hcall : call.administers = true := by
          cases call <;> first | rfl | cases hkind
        obtain ⟨ws, hedit, hafter⟩ := Served.edited rfl hcall hanswer
        rw [hafter, requestStep_of_kind hkind]
        exact grants_after hedit hkind
      have hrun : (serveAdmin env d op call).run ⟨db, [], []⟩ =
          (.ok a, (Served.outcome env ⟨db, .admin op call, d⟩).2) := Prod.ext hanswer rfl
      have hunread : (serveAdmin env d op call).wp
          (fun _ t' => grants t'.db.toDirectory = grants db.toDirectory) (fun _ => True)
            ⟨db, [], []⟩ →
          grants (Served.after env ⟨db, .admin op call, d⟩).toDirectory =
            grants db.toDirectory := fun h => wp_of_ok h hrun
      have hreads : call.edits = false → (∀ body, call ≠ .createTenant body) →
          grants (Served.after env ⟨db, .admin op call, d⟩).toDirectory =
            grants db.toDirectory := by
        intro hedits hnew
        refine grants_idle fun op' call' hrequest => ?_
        obtain ⟨rfl, rfl⟩ := Request.admin.inj hrequest
        exact ⟨hedits, hnew⟩
      cases call with
      | createTenant body => exact absurd rfl (hcreate op body)
      | createUser body =>
          obtain ⟨ws, hedit, hafter⟩ := Served.edited rfl rfl hanswer
          cases hedit with
          | createUser =>
              rw [hafter, applied_cons]
              exact grants_sync rfl
      | createGroup body =>
          obtain ⟨ws, hedit, hafter⟩ := Served.edited rfl rfl hanswer
          cases hedit with
          | createGroup =>
              rw [hafter]
              rfl
      | patchTenant tenantId body => exact hunread (wp_answer (unread_patchTenant rfl))
      | createApplication body => exact hunread (wp_answer (unread_createApplication rfl))
      | patchApplication applicationId body =>
          exact hunread (wp_answer (unread_patchApplication rfl))
      | currentTenant | listTenants | listUsers | issueActivationCode | listApplications
      | listGroups | getGroup | listRoles | getRole | listPermissions =>
          exact hreads rfl (by intro body h; cases h)
      | _ => exact absurd rfl hkind
  | _ => exact hnotCall (by intro op call h; cases h)

/-! ## What a call gives and takes -/

section Calls

variable (env d op) (dir : Directory) (userId applicationId text : String)

/-- The call gives the user the permission: it puts the user in a group with a role
that has it, or puts it in the user's reach another way. -/
def AdminCall.Gives : AdminCall → Prop
  | .addMember groupId body =>
      body.userId = userId ∧ (grants dir).GroupGives applicationId groupId text
  | .createUser body => (userRow env d op body).userId = userId ∧ body.isAdmin = true ∧
      ∃ group, adminGroup dir op.tenantId = some group ∧
        (grants dir).GroupGives applicationId group.groupId text
  | .patchUser patched body => patched = userId ∧ body.isAdmin = some true ∧
      ∃ group, adminGroup dir op.tenantId = some group ∧
        (grants dir).GroupGives applicationId group.groupId text
  | .addGroupRole groupId body => (⟨groupId, userId⟩ : GroupMembership) ∈ dir.groupMemberships ∧
      (grants dir).RoleGives applicationId body.roleId text
  | .setRolePermissions roleId body => holdsRole dir userId roleId = true ∧
      (grants dir).roleOn roleId applicationId ∧
      ∃ permissionId ∈ body.permissionIds, (grants dir).gives permissionId applicationId text
  | _ => False

/-- The call takes a way to the permission from the user. -/
def AdminCall.Takes : AdminCall → Prop
  | .removeMember groupId removed => removed = userId ∧
      (⟨groupId, userId⟩ : GroupMembership) ∈ dir.groupMemberships ∧
      (grants dir).GroupGives applicationId groupId text
  | .deleteGroup groupId => (⟨groupId, userId⟩ : GroupMembership) ∈ dir.groupMemberships ∧
      (grants dir).GroupGives applicationId groupId text
  | .patchUser patched body => patched = userId ∧ body.isAdmin = some false ∧
      ∃ group, adminGroup dir op.tenantId = some group ∧
        (⟨group.groupId, userId⟩ : GroupMembership) ∈ dir.groupMemberships ∧
        (grants dir).GroupGives applicationId group.groupId text
  | .removeGroupRole groupId roleId =>
      (⟨groupId, userId⟩ : GroupMembership) ∈ dir.groupMemberships ∧
      (⟨groupId, roleId⟩ : GroupRole) ∈ dir.groupRoles ∧
      (grants dir).RoleGives applicationId roleId text
  | .setRolePermissions roleId body => holdsRole dir userId roleId = true ∧
      (grants dir).RoleGives applicationId roleId text ∧
      ∀ permissionId ∈ body.permissionIds, ¬ (grants dir).gives permissionId applicationId text
  | .deleteRole roleId => holdsRole dir userId roleId = true ∧
      (grants dir).RoleGives applicationId roleId text
  | _ => False

end Calls

variable {dir : Directory}

theorem sync_gives {tenantId other : String} {isAdmin : Bool}
    (h : (syncStep dir tenantId other isAdmin).Gives (grants dir) userId applicationId text) :
    other = userId ∧ isAdmin = true ∧ ∃ group, adminGroup dir tenantId = some group ∧
      (grants dir).GroupGives applicationId group.groupId text := by
  unfold syncStep at h
  cases hgroup : adminGroup dir tenantId with
  | none =>
      rw [hgroup] at h
      cases h
  | some group =>
      rw [hgroup] at h
      cases isAdmin with
      | true =>
          cases h with
          | join leads => exact ⟨rfl, rfl, group, rfl, leads⟩
      | false => cases h

theorem sync_takes {tenantId other : String} {isAdmin : Bool}
    (h : (syncStep dir tenantId other isAdmin).Takes (grants dir) userId applicationId text) :
    other = userId ∧ isAdmin = false ∧ ∃ group, adminGroup dir tenantId = some group ∧
      (⟨group.groupId, userId⟩ : GroupMembership) ∈ dir.groupMemberships ∧
      (grants dir).GroupGives applicationId group.groupId text := by
  unfold syncStep at h
  cases hgroup : adminGroup dir tenantId with
  | none =>
      rw [hgroup] at h
      cases h
  | some group =>
      rw [hgroup] at h
      cases isAdmin with
      | true => cases h
      | false =>
          cases h with
          | leave member leads => exact ⟨rfl, rfl, group, rfl, member, leads⟩

/-- The steps that give are those of the calls that do. -/
theorem gives_of_step (hkind : call.editKind ≠ some .ofNothing)
    (h : (requestStep env d dir (.admin op call)).Gives (grants dir) userId applicationId text) :
    call.Gives env d op dir userId applicationId text := by
  cases call with
  | addMember groupId body =>
      cases h with
      | join leads => exact ⟨rfl, leads⟩
  | createUser body => exact sync_gives h
  | patchUser patched body =>
      simp only [requestStep, stepOf] at h
      cases hisAdmin : body.isAdmin with
      | none =>
          rw [hisAdmin] at h
          cases h
      | some isAdmin =>
          rw [hisAdmin] at h
          obtain ⟨hsame, rfl, hgroup⟩ := sync_gives h
          exact ⟨hsame, hisAdmin, hgroup⟩
  | addGroupRole groupId body =>
      cases h with
      | assign member has => exact ⟨member, has⟩
  | setRolePermissions roleId body =>
      cases h with
      | setCarried holds on mem gives =>
          exact ⟨holdsRole_iff_holds.mpr holds, on, _, mem, gives⟩
  | createRole | createPermission => exact absurd rfl hkind
  | _ => cases h

/-- A new user is in no group. -/
theorem takes_of_step
    (hnew : ∀ body, call = .createUser body → ∀ groupId,
      (⟨groupId, (userRow env d op body).userId⟩ : GroupMembership) ∉ dir.groupMemberships)
    (h : (requestStep env d dir (.admin op call)).Takes (grants dir) userId applicationId text) :
    call.Takes op dir userId applicationId text := by
  cases call with
  | removeMember groupId removed =>
      cases h with
      | leave member leads => exact ⟨rfl, member, leads⟩
  | deleteGroup groupId =>
      cases h with
      | dropGroup member leads => exact ⟨member, leads⟩
  | createUser body =>
      obtain ⟨rfl, -, group, -, member, -⟩ := sync_takes h
      exact absurd member (hnew body rfl group.groupId)
  | patchUser patched body =>
      simp only [requestStep, stepOf] at h
      cases hisAdmin : body.isAdmin with
      | none =>
          rw [hisAdmin] at h
          cases h
      | some isAdmin =>
          rw [hisAdmin] at h
          obtain ⟨hsame, rfl, hgroup⟩ := sync_takes h
          exact ⟨hsame, hisAdmin, hgroup⟩
  | removeGroupRole groupId roleId =>
      cases h with
      | unassign member assigned has => exact ⟨member, assigned, has⟩
  | setRolePermissions roleId body =>
      cases h with
      | setCarried holds has lacks => exact ⟨holdsRole_iff_holds.mpr holds, has, lacks⟩
  | deleteRole roleId =>
      cases h with
      | dropRole holds has => exact ⟨holdsRole_iff_holds.mpr holds, has⟩
  | _ => cases h

/-- An answered request that changes what a user may do is a call. -/
theorem admin_of_changed (hcreate : ∀ op body, s.request ≠ .admin op (.createTenant body))
    (hchanged : ¬ (text ∈ effectivePermissions s.before.toDirectory userId applicationId ↔
      text ∈ effectivePermissions (s.after env).toDirectory userId applicationId)) :
    ∃ op call, s.request = .admin op call ∧ call.edits = true ∧ ∃ a, s.answer env = .ok a := by
  have hsame : grants (s.after env).toDirectory = grants s.before.toDirectory → False := by
    intro hsame
    rw [mem_effectivePermissions_iff, mem_effectivePermissions_iff, hsame] at hchanged
    exact hchanged Iff.rfl
  cases hanswer : s.answer env with
  | error e =>
      rw [Served.after_of_error hanswer] at hsame
      exact absurd rfl hsame
  | ok a =>
      by_contra hnone
      refine hsame (grants_idle fun op call hrequest => ?_)
      refine ⟨?_, fun body hcall => hcreate op body (hcall ▸ hrequest)⟩
      by_contra hedits
      exact hnone ⟨op, call, hrequest, by simpa using hedits, a, rfl⟩

/-- The operator of an edit that changes what a user may do acts on the user's tenant:
the edits of the others keep the rows of the tenant, and what they say. -/
theorem tenant_of_changed {tenantId : String} (horderly : Orderly s.before.toDirectory)
    (hcreate : ∀ op body, s.request ≠ .admin op (.createTenant body))
    (hrequest : s.request = .admin op call) (hedits : call.edits = true)
    (hplatform : ∀ other body, call ≠ .patchTenant other body)
    (hown : (s.after env).userTenant userId = some tenantId)
    (hchanged : ¬ (text ∈ effectivePermissions s.before.toDirectory userId applicationId ↔
      text ∈ effectivePermissions (s.after env).toDirectory userId applicationId)) :
    op.tenantId = tenantId := by
  by_contra hother
  have hafter : Orderly (s.after env).toDirectory := orderly_after hcreate horderly
  obtain ⟨db, request, d⟩ := s
  obtain rfl : request = .admin op call := hrequest
  have hnot : ¬ call.Concerns op tenantId := by
    cases call with
    | patchTenant other body => exact absurd rfl (hplatform other body)
    | createTenant body => exact absurd rfl (hcreate op body)
    | _ => exact fun hconcerns => hother hconcerns.2
  have hkept : RowsKept tenantId db.toDirectory
      (Served.after env ⟨db, .admin op call, d⟩).toDirectory :=
    rowsKept_edit horderly.owned.owned horderly.unique horderly.integrity hedits hnot
  have htwin : Twin tenantId (Served.after env ⟨db, .admin op call, d⟩).toDirectory.bare
      db.toDirectory.bare :=
    ⟨hkept.symm, hafter.owned.owned, horderly.owned.owned, hafter.unique, horderly.unique⟩
  have hsame : effectivePermissions (Served.after env ⟨db, .admin op call, d⟩).toDirectory userId
      applicationId = effectivePermissions db.toDirectory userId applicationId :=
    effectivePermissions_twin htwin hown
  rw [hsame] at hchanged
  exact hchanged Iff.rfl

/-- Who holds a permission is a user. -/
theorem tenant_of_permission {dir : Directory} (howned : WellOwned dir)
    (h : text ∈ effectivePermissions dir userId applicationId) :
    ∃ tenantId, dir.userTenant userId = some tenantId := by
  obtain ⟨_, ⟨groupId, hmember, -⟩, -⟩ :=
    Grants.mem_permissions_iff.mp (mem_effectivePermissions_iff.mp h)
  obtain ⟨tenantId, -, hown⟩ := howned.memberships _ hmember
  exact ⟨tenantId, hown⟩

/-- What changes what a user may do is a call of an operator on the user's tenant. -/
theorem call_of_changed (horderly : Orderly s.before.toDirectory)
    (hcreate : ∀ op body, s.request ≠ .admin op (.createTenant body))
    (hchanged : ¬ (text ∈ effectivePermissions s.before.toDirectory userId applicationId ↔
      text ∈ effectivePermissions (s.after env).toDirectory userId applicationId)) :
    ∃ op call a, s.request = .admin op call ∧ s.answer env = .ok a ∧
      (s.after env).userTenant userId = some op.tenantId := by
  obtain ⟨op, call, hrequest, hedits, a, hanswer⟩ := admin_of_changed hcreate hchanged
  -- the user has the permission before or after
  have howned : ∃ tenantId, (s.after env).userTenant userId = some tenantId := by
    by_cases hafter : text ∈ effectivePermissions (s.after env).toDirectory userId applicationId
    · exact tenant_of_permission (orderly_after hcreate horderly).owned hafter
    · have hbefore : text ∈ effectivePermissions s.before.toDirectory userId applicationId := by
        by_contra hbefore
        exact hchanged ⟨fun h => absurd h hbefore, fun h => absurd h hafter⟩
      obtain ⟨tenantId, hown⟩ := tenant_of_permission horderly.owned hbefore
      exact ⟨tenantId, commit_invariant userTenant_invariant (s.commit_writes env) hown⟩
  obtain ⟨tenantId, hown⟩ := howned
  have htenant : op.tenantId = tenantId := by
    refine tenant_of_changed horderly hcreate hrequest hedits ?_ hown hchanged
    -- what is said about a tenant is nothing about what its users may do
    rintro other body rfl
    have hstep := grants_served hanswer hcreate
    rw [hrequest] at hstep
    rw [mem_effectivePermissions_iff, mem_effectivePermissions_iff, hstep] at hchanged
    exact hchanged Iff.rfl
  exact ⟨op, call, a, hrequest, hanswer, htenant ▸ hown⟩

/-- A new role and a new permission give nothing to anybody. -/
theorem editKind_of_changed {a : Answer} (horderly : Orderly s.before.toDirectory)
    (hcreate : ∀ op body, s.request ≠ .admin op (.createTenant body))
    (hrequest : s.request = .admin op call) (hanswer : s.answer env = .ok a)
    (hchanged : ¬ (text ∈ effectivePermissions s.before.toDirectory userId applicationId ↔
      text ∈ effectivePermissions (s.after env).toDirectory userId applicationId)) :
    call.editKind ≠ some .ofNothing := by
  intro hkind
  have hcall : call.administers = true := by
    cases call <;> first | rfl | cases hkind
  obtain ⟨ws, hedit, -⟩ := Served.edited hrequest hcall hanswer
  have hsame : (grants s.before.toDirectory).Same
      ((stepOf s.draws op s.before.toDirectory call).apply (grants s.before.toDirectory))
      userId applicationId :=
    same_of_ofNothing horderly.integrity horderly.owned hedit hkind
  have hstep := grants_served hanswer hcreate
  rw [hrequest, requestStep_of_kind (by rw [hkind]; rfl)] at hstep
  rw [mem_effectivePermissions_iff, mem_effectivePermissions_iff, hstep, ← hsame.1] at hchanged
  exact hchanged Iff.rfl

/-- The permission is given by the request, a call of an operator on the user's tenant. -/
theorem gained_served (horderly : Orderly s.before.toDirectory)
    (hcreate : ∀ op body, s.request ≠ .admin op (.createTenant body))
    (hbefore : text ∉ effectivePermissions s.before.toDirectory userId applicationId)
    (hafter : text ∈ effectivePermissions (s.after env).toDirectory userId applicationId) :
    ∃ op call, s.request = .admin op call ∧ (s.after env).userTenant userId = some op.tenantId ∧
      call.Gives env s.draws op s.before.toDirectory userId applicationId text := by
  have hchanged : ¬ (text ∈ effectivePermissions s.before.toDirectory userId applicationId ↔
      text ∈ effectivePermissions (s.after env).toDirectory userId applicationId) :=
    fun h => hbefore (h.mpr hafter)
  obtain ⟨op, call, a, hrequest, hanswer, hown⟩ := call_of_changed horderly hcreate hchanged
  refine ⟨op, call, hrequest, hown,
    gives_of_step (editKind_of_changed horderly hcreate hrequest hanswer hchanged) ?_⟩
  have hstep := grants_served hanswer hcreate
  rw [hrequest] at hstep
  rw [mem_effectivePermissions_iff] at hbefore hafter
  rw [hstep] at hafter
  exact Grants.gives_of_gained hbefore hafter

/-- The permission is taken by the request, a call of an operator on the user's tenant. -/
theorem lost_served (horderly : Orderly s.before.toDirectory)
    (hcreate : ∀ op body, s.request ≠ .admin op (.createTenant body))
    (hbefore : text ∈ effectivePermissions s.before.toDirectory userId applicationId)
    (hafter : text ∉ effectivePermissions (s.after env).toDirectory userId applicationId) :
    ∃ op call, s.request = .admin op call ∧ (s.after env).userTenant userId = some op.tenantId ∧
      call.Takes op s.before.toDirectory userId applicationId text := by
  obtain ⟨op, call, a, hrequest, hanswer, hown⟩ :=
    call_of_changed horderly hcreate fun h => hafter (h.mp hbefore)
  have hstep := grants_served hanswer hcreate
  rw [hrequest] at hstep
  have hnew : ∀ body, call = .createUser body → ∀ groupId,
      (⟨groupId, (userRow env s.draws op body).userId⟩ : GroupMembership) ∉
        s.before.groupMemberships := by
    rintro body rfl groupId hmember
    obtain ⟨ws, hedit, -⟩ := Served.edited hrequest rfl hanswer
    cases hedit with
    | createUser htenant hfree =>
        obtain ⟨tenantId, -, howner⟩ := horderly.owned.memberships _ hmember
        rw [Directory.userTenant, hfree] at howner
        cases howner
  rw [mem_effectivePermissions_iff] at hbefore hafter
  rw [hstep] at hafter
  exact ⟨op, call, hrequest, hown, takes_of_step hnew (Grants.takes_of_lost hbefore hafter)⟩

/-! ## One request of the API -/

/-- The request was let through as the operator's call. -/
def CallBy (env : Env) (m : ApiServed) (op : Operator) (call : AdminCall) : Prop :=
  ∃ authorization actingTenant row user home,
    m.request = .admin authorization actingTenant call ∧
    LetsThrough env m.before m.draws.now authorization call row user home op

variable (env) in
/-- The request gave the permission: it is a call that does, by an operator who acted on
the user's tenant and was let through. -/
def GivenBy (m : ApiServed) (userId applicationId text : String) : Prop :=
  ∃ op call, CallBy env m op call ∧ (m.after env).userTenant userId = some op.tenantId ∧
    call.Gives env m.draws op m.before.toDirectory userId applicationId text

variable (env) in
/-- The request took the permission. -/
def TakenBy (m : ApiServed) (userId applicationId text : String) : Prop :=
  ∃ op call, CallBy env m op call ∧ (m.after env).userTenant userId = some op.tenantId ∧
    call.Takes op m.before.toDirectory userId applicationId text

variable {m : ApiServed}

/-- A request of the API that changed something comes down to one of the service. -/
theorem reaches_of_changed (hchanged : m.after env ≠ m.before) :
    ∃ s, Reaches env m s ∧ s.before = m.before ∧ s.draws = m.draws ∧
      m.after env = s.after env := by
  have hreach : (∃ s, Reaches env m s ∧ m.outcome env = s.outcome env) ∨
      m.after env = m.before ∧ ∃ e, m.answer env = .error e := m.reaches
  rcases hreach with ⟨s, hreach, houtcome⟩ | ⟨hsame, -⟩
  · have hafter : m.after env = s.after env := congrArg (fun outcome => outcome.2.db) houtcome
    have hsame : s.before = m.before ∧ s.draws = m.draws := by
      cases hreach <;> exact ⟨rfl, rfl⟩
    exact ⟨s, hreach, hsame.1, hsame.2, hafter⟩
  · exact absurd hsame hchanged

theorem Reaches.callBy (h : Reaches env m s) (hrequest : s.request = .admin op call) :
    CallBy env m op call := by
  cases h with
  | @endpoint request _ =>
      have hoperator := request.2
      rw [show request.1 = .admin op call from hrequest] at hoperator
      cases hoperator
  | admin request_eq through =>
      obtain ⟨rfl, rfl⟩ := Request.admin.inj hrequest
      exact ⟨_, _, _, _, _, request_eq, through⟩

theorem given_of_gained (horderly : Orderly m.before.toDirectory) (hcreate : m.FoundsNothing)
    (hbefore : text ∉ effectivePermissions m.before.toDirectory userId applicationId)
    (hafter : text ∈ effectivePermissions (m.after env).toDirectory userId applicationId) :
    GivenBy env m userId applicationId text := by
  have hchanged : m.after env ≠ m.before := by
    intro hsame
    rw [hsame] at hafter
    exact hbefore hafter
  obtain ⟨s, hreach, hdb, hdraws, hsame⟩ := reaches_of_changed hchanged
  rw [← hdb] at horderly hbefore
  rw [hsame] at hafter
  obtain ⟨op, call, hrequest, hown, hgives⟩ :=
    gained_served horderly (hreach.foundsNothing hcreate) hbefore hafter
  rw [hdb, hdraws] at hgives
  exact ⟨op, call, hreach.callBy hrequest, by rw [hsame]; exact hown, hgives⟩

theorem taken_of_lost (horderly : Orderly m.before.toDirectory) (hcreate : m.FoundsNothing)
    (hbefore : text ∈ effectivePermissions m.before.toDirectory userId applicationId)
    (hafter : text ∉ effectivePermissions (m.after env).toDirectory userId applicationId) :
    TakenBy env m userId applicationId text := by
  have hchanged : m.after env ≠ m.before := by
    intro hsame
    rw [hsame] at hafter
    exact hafter hbefore
  obtain ⟨s, hreach, hdb, -, hsame⟩ := reaches_of_changed hchanged
  rw [← hdb] at horderly hbefore
  rw [hsame] at hafter
  obtain ⟨op, call, hrequest, hown, htakes⟩ :=
    lost_served horderly (hreach.foundsNothing hcreate) hbefore hafter
  rw [hdb] at htakes
  exact ⟨op, call, hreach.callBy hrequest, by rw [hsame]; exact hown, htakes⟩

/-! ## Any number of requests -/

variable {start db : Db} {hist : List ApiServed}

theorem orderly_api (hstart : Orderly start.toDirectory) (run : ApiRun env start hist db)
    (hcreate : ∀ m ∈ hist, m.FoundsNothing) : Orderly db.toDirectory := by
  induction run with
  | nil => exact hstart
  | @cons hist db init request draws ih =>
      obtain ⟨hcreate, hearlier⟩ := List.forall_mem_cons.mp hcreate
      have horderly := ih hearlier
      by_cases hchanged : ApiServed.after env ⟨db, request, draws⟩ = db
      · rw [hchanged]
        exact horderly
      · obtain ⟨s, hreach, hdb, -, hsame⟩ := reaches_of_changed hchanged
        rw [hsame]
        refine orderly_after (hreach.foundsNothing hcreate) ?_
        rw [hdb]
        exact horderly

/-- What holds now and did not at the start came to hold with a request, and has held
since. -/
theorem ApiRun.lastChange {P : Db → Prop} (run : ApiRun env start hist db) (hstart : ¬ P start)
    (hnow : P db) :
    ∃ later m earlier, hist = later ++ m :: earlier ∧ ApiRun env start earlier m.before ∧
      ¬ P m.before ∧ P (m.after env) ∧ ∀ l ∈ later, P l.before := by
  induction run with
  | nil => exact absurd hnow hstart
  | @cons hist db init request draws ih =>
      by_cases hbefore : P db
      · obtain ⟨later, m, earlier, rfl, hrun, hnot, hafter, hsince⟩ := ih hbefore
        refine ⟨⟨db, request, draws⟩ :: later, m, earlier, rfl, hrun, hnot, hafter, ?_⟩
        exact List.forall_mem_cons.mpr ⟨hbefore, hsince⟩
      · exact ⟨[], ⟨db, request, draws⟩, hist, rfl, init, hbefore, hnow, by simp⟩

/-- **Every permission is accounted for.**  From an orderly directory, let clients send
any requests to the API that found no tenant, in any order.  A permission a user did
not have at the start and has now was given by one of the requests, and the user has had
it since.  A permission the user had and has no more was taken by one, and is gone since. -/
theorem permissions_accounted (hstart : Orderly start.toDirectory)
    (run : ApiRun env start hist db) (hcreate : ∀ m ∈ hist, m.FoundsNothing)
    (userId applicationId text : String) :
    (text ∉ effectivePermissions start.toDirectory userId applicationId →
      text ∈ effectivePermissions db.toDirectory userId applicationId →
      ∃ later m earlier, hist = later ++ m :: earlier ∧
        GivenBy env m userId applicationId text ∧
        ∀ l ∈ later, text ∈ effectivePermissions l.before.toDirectory userId applicationId) ∧
    (text ∈ effectivePermissions start.toDirectory userId applicationId →
      text ∉ effectivePermissions db.toDirectory userId applicationId →
      ∃ later m earlier, hist = later ++ m :: earlier ∧
        TakenBy env m userId applicationId text ∧
        ∀ l ∈ later, text ∉ effectivePermissions l.before.toDirectory userId applicationId) := by
  constructor
  · intro hbefore hnow
    obtain ⟨later, m, earlier, rfl, hrun, hnot, hafter, hsince⟩ := run.lastChange
      (P := fun db => text ∈ effectivePermissions db.toDirectory userId applicationId) hbefore hnow
    have hearlier : ∀ m ∈ earlier, m.FoundsNothing := fun n hn =>
      hcreate n (List.mem_append_right _ (List.mem_cons_of_mem _ hn))
    have hm : m.FoundsNothing := hcreate m (List.mem_append_right _ (List.mem_cons_self ..))
    exact ⟨later, m, earlier, rfl,
      given_of_gained (orderly_api hstart hrun hearlier) hm hnot hafter, hsince⟩
  · intro hbefore hnow
    obtain ⟨later, m, earlier, rfl, hrun, hnot, hafter, hsince⟩ := run.lastChange
      (P := fun db => text ∉ effectivePermissions db.toDirectory userId applicationId)
      (not_not.mpr hbefore) hnow
    have hearlier : ∀ m ∈ earlier, m.FoundsNothing := fun n hn =>
      hcreate n (List.mem_append_right _ (List.mem_cons_of_mem _ hn))
    have hm : m.FoundsNothing := hcreate m (List.mem_append_right _ (List.mem_cons_self ..))
    exact ⟨later, m, earlier, rfl,
      taken_of_lost (orderly_api hstart hrun hearlier) hm (not_not.mp hnot) hafter, hsince⟩

/-- Ana hires an administrator. -/
def anaHires : ApiServed :=
  ⟨anaSignsIn.after .standIn,
    .admin (bearer 1) none (.createUser ⟨"eva@acme", "secreto", true⟩), .usual 2⟩

theorem run_hires : ApiRun .standIn .standInManaged [anaHires, anaSignsIn]
    (anaHires.after .standIn) :=
  .cons (.cons .nil _ _) _ _

theorem foundsNothing_hires : ∀ m ∈ [anaHires, anaSignsIn], m.FoundsNothing := by
  intro m hm authorization actingTenant body hrequest
  simp only [List.mem_cons, List.not_mem_nil, or_false] at hm
  rcases hm with rfl | rfl <;> cases hrequest

theorem evaluated_hires :
    "admin:read" ∉ effectivePermissions Db.standInManaged.toDirectory "usr_hex-2" "portal" ∧
    "admin:read" ∈
      effectivePermissions (anaHires.after .standIn).toDirectory "usr_hex-2" "portal" := by
  decide +kernel

theorem permissions_accounted_hired :
    ∃ later m earlier, [anaHires, anaSignsIn] = later ++ m :: earlier ∧
      GivenBy .standIn m "usr_hex-2" "portal" "admin:read" ∧
      ∀ l ∈ later, "admin:read" ∈ effectivePermissions l.before.toDirectory "usr_hex-2" "portal" :=
  (permissions_accounted orderly_standInManaged run_hires foundsNothing_hires _ _ _).1
    evaluated_hires.1 evaluated_hires.2

end RbaIdp
