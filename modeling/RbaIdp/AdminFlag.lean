import RbaIdp.Reach
import RbaIdp.Reseed

/-!
# The administrator flag and the admin group

`users.is_admin` and the membership of the tenant's admin group say the same
thing.  The calls on users keep them together, by `_sync_admin_flag`; the calls on
groups and the seed write memberships and do not look at the flag.  `FlagAgrees`
is kept by every turn that is `Careful`: a member joins an admin group only with
the flag set and leaves it only without, and the seed finds the flags of its
administrators set.
-/

namespace RbaIdp

open Relational

variable {env : Env} {d : Draws} {op : Operator} {call : AdminCall} {db : Directory}

/-- The flag is set exactly for the members of the admin group. -/
def FlagAgrees (db : Directory) : Prop :=
  ∀ t ∈ db.tenants, ∀ groupId, t.adminGroupId = some groupId → (db.groups.get groupId).isSome →
    ∀ u ∈ db.users, u.tenantId = t.tenantId →
      (u.isAdmin = true ↔ ⟨groupId, u.userId⟩ ∈ db.groupMemberships)

/-! ## The administrators of the seed -/

namespace SeedRow

def tenant? : SeedRow → Option String
  | tenant tenantId => some tenantId
  | _ => none

def user? : SeedRow → Option (String × String × String × Bool)
  | user tenantId userId email isAdmin => some (tenantId, userId, email, isAdmin)
  | _ => none

def membership? : SeedRow → Option (String × String × String × String)
  | membership tenantId userId email groupId => some (tenantId, userId, email, groupId)
  | _ => none

end SeedRow

/-- Every tenant of the seed has an admin group of its own, and the users in it are
those with the flag. -/
structure SeedAdmins : Prop where
  anchored : ∀ tenantId ∈ seedRows.filterMap SeedRow.tenant?, .anchors tenantId ∈ seedRows ∧
    .group (adminGroupId tenantId) tenantId "Administradores" ∈ seedRows ∧
      adminGroupId tenantId ≠ ""
  members : ∀ u ∈ seedRows.filterMap SeedRow.user?, u.2.2.2 = true →
    .membership u.1 u.2.1 u.2.2.1 (adminGroupId u.1) ∈ seedRows
  flagged : ∀ u ∈ seedRows.filterMap SeedRow.user?,
    ∀ m ∈ seedRows.filterMap SeedRow.membership?, m.1 = u.1 → m.2.1 = u.2.1 →
      m.2.2.2 = adminGroupId u.1 → u.2.2.2 = true

theorem seedAdmins : SeedAdmins := by constructor <;> decide +kernel

/-! ## The groups -/

/-- The tenants are the seed's, and each is anchored to an admin group of its own. -/
structure Anchored (db : Directory) : Prop where
  tenants : ∀ t ∈ db.tenants, .tenant t.tenantId ∈ seedRows
  anchors : ∀ {tenantId}, .tenant tenantId ∈ seedRows → db.anchors tenantId =
    some (some (consoleApplicationId tenantId), some (adminGroupId tenantId))
  groups : ∀ {tenantId}, .tenant tenantId ∈ seedRows →
    db.groupTenant (adminGroupId tenantId) = some tenantId

theorem mem_tenants_seed {tenantId : String} (h : .tenant tenantId ∈ seedRows) :
    tenantId ∈ seedRows.filterMap SeedRow.tenant? :=
  List.mem_filterMap.mpr ⟨_, h, rfl⟩

/-- The group that `_sync_admin_flag` finds. -/
theorem Anchored.adminGroup (h : Anchored db) {tenantId : String}
    (hseed : .tenant tenantId ∈ seedRows) :
    ∃ group, adminGroup db tenantId = some group ∧ group.groupId = adminGroupId tenantId := by
  obtain ⟨t, ht, hanchors⟩ := Option.map_eq_some_iff.mp (h.anchors hseed)
  obtain ⟨group, hgroup, -⟩ := Option.map_eq_some_iff.mp (h.groups hseed)
  have hid : nonEmpty (some (adminGroupId tenantId)) = some (adminGroupId tenantId) := by
    simp [nonEmpty, (seedAdmins.anchored tenantId (mem_tenants_seed hseed)).2.2]
  refine ⟨group, ?_, Table.key_of_get hgroup⟩
  rw [RbaIdp.adminGroup, ht, Option.bind_some, (Prod.mk.inj hanchors).2, hid, Option.bind_some,
    hgroup]

theorem anchored_effect {w : DirectoryWrite} (h : Anchored db) (hscoped : Scoped op call db w) :
    Anchored (w.effect db) where
  tenants t ht := by
    obtain ⟨old, hold, hid, -, -⟩ := anchors_of_scoped ht hscoped
    rw [← hid]
    exact h.tenants old hold
  anchors {tenantId} hseed := by
    have hthere := tenants_effect (w := w) (isSome_of_map (h.anchors hseed))
    obtain ⟨t, ht⟩ := Option.isSome_iff_exists.mp hthere
    obtain ⟨old, hold, hid, hgroup, hconsole⟩ := anchors_of_scoped (Table.mem_of_get ht) hscoped
    have hbefore := h.anchors hseed
    have hkey : old.tenantId = tenantId := hid.trans (Table.key_of_get ht)
    rw [Directory.anchors, ← hkey, Table.get_of_mem hold, Option.map_some, hgroup,
      hconsole] at hbefore
    rw [Directory.anchors, ht, ← hkey]
    exact hbefore
  groups {tenantId} hseed := by
    refine groupTenant_effect ?_ (h.groups hseed)
    -- the admin group of the operator's tenant is not deleted, and no other tenant's is the
    -- operator's to delete
    rintro rfl
    obtain ⟨hown, hnot⟩ := hscoped
    rw [h.groups hseed, Option.some.injEq] at hown
    subst hown
    exact hnot _ (h.anchors hseed) rfl

theorem anchored_after {s : Served} (h : Anchored s.before.toDirectory)
    (hrequest : s.request = .admin op call) (hcall : ∀ body, call ≠ .createTenant body) :
    Anchored (s.after env).toDirectory := by
  refine (Served.path env s).invariant (I := fun db => Anchored db.toDirectory)
    (fun db w hdb hallows _ => ?_) h
  cases hallows with
  | artefact w => exact hdb
  | lastLogin userId now =>
      have hscoped : Scoped op call db.toDirectory (.setUserLastLogin userId now) := trivial
      exact anchored_effect hdb hscoped
  | edit _ _ hscoped => exact anchored_effect hdb hscoped
  | found hother _ =>
      rw [hrequest] at hother
      cases hother
      exact absurd rfl (hcall _)

/-- A run of the seed anchors its tenants, and adds no others. -/
theorem anchored_of_seedRun {before after : Db} (h : SeedRun env before after)
    (htenants : ∀ t ∈ before.tenants, .tenant t.tenantId ∈ seedRows)
    (hgroups : ∀ {tenantId}, .tenant tenantId ∈ seedRows →
      (before.groupTenant (adminGroupId tenantId)).getD tenantId = tenantId) :
    Anchored after.toDirectory where
  tenants t ht := by
    rcases h.grown.tenants t ht with hold | hadded
    · obtain ⟨old, hold⟩ := Option.isSome_iff_exists.mp hold
      rw [← Table.key_of_get hold]
      exact htenants old (Table.mem_of_get hold)
    · exact hadded
  anchors hseed := h.met _ (seedAdmins.anchored _ (mem_tenants_seed hseed)).1
  groups {tenantId} hseed := by
    have hentry := (seedAdmins.anchored _ (mem_tenants_seed hseed)).2.1
    rw [groupTenant_grown h.grown h.kept hentry (h.met _ hentry), hgroups hseed]

/-! ## The flags -/

/-- The flags of the tenants of the seed. -/
def FlagKept (db : Directory) : Prop :=
  ∀ u ∈ db.users, .tenant u.tenantId ∈ seedRows →
    (u.isAdmin = true ↔ ⟨adminGroupId u.tenantId, u.userId⟩ ∈ db.groupMemberships)

theorem FlagKept.agrees (hanchored : Anchored db) (h : FlagKept db) : FlagAgrees db := by
  intro t ht groupId hgroup _ u hu htenant
  have hseed := hanchored.tenants t ht
  have hanchors := hanchored.anchors hseed
  rw [Directory.anchors, Table.get_of_mem ht, Option.map_some, Option.some.injEq,
    Prod.mk.injEq, hgroup, Option.some.injEq] at hanchors
  rw [hanchors.2, ← htenant]
  exact h u hu (htenant ▸ hseed)

/-! Users before and after. -/

/-- A statement that adds no user and sets no flag. -/
def DirectoryWrite.flagless : DirectoryWrite → Bool
  | insertUser _ | setUserIsAdmin _ _ => false
  | _ => true

theorem mem_users_effect {w : DirectoryWrite} {u : User} (hw : w.flagless = true)
    (h : u ∈ (w.effect db).users) : ∃ old ∈ db.users, old.userId = u.userId ∧
      old.tenantId = u.tenantId ∧ old.isAdmin = u.isAdmin := by
  cases w with
  | insertUser | setUserIsAdmin => cases hw
  | setUserEnabled | setUserPasswordHash | setUserAlwaysPasskey | setUserLastLogin =>
      simp only [DirectoryWrite.effect, Directory.updateUser, Table.mem_modify] at h
      obtain ⟨old, hold, rfl⟩ := h
      exact ⟨old, hold, by split <;> rfl, by split <;> rfl, by split <;> rfl⟩
  | _ => exact ⟨u, h, rfl, rfl, rfl⟩

theorem mem_users_applied {ws : List DirectoryWrite} {u : User}
    (hws : ∀ w ∈ ws, w.flagless = true) (h : u ∈ (applied ws db).users) :
    ∃ old ∈ db.users, old.userId = u.userId ∧ old.tenantId = u.tenantId ∧
      old.isAdmin = u.isAdmin := by
  induction ws generalizing db with
  | nil => exact ⟨u, h, rfl, rfl, rfl⟩
  | cons w ws ih =>
      obtain ⟨mid, hmid, hid, htenant, hisAdmin⟩ :=
        ih (fun v hv => hws v (List.mem_cons_of_mem _ hv)) h
      obtain ⟨old, hold, hid', htenant', hisAdmin'⟩ :=
        mem_users_effect (hws w (List.mem_cons_self ..)) hmid
      exact ⟨old, hold, hid'.trans hid, htenant'.trans htenant, hisAdmin'.trans hisAdmin⟩

theorem flagless_sync {tenantId userId : String} {isAdmin : Bool} :
    ∀ w ∈ syncWrites db tenantId userId isAdmin, w.flagless = true := by
  intro w hw
  unfold syncWrites at hw
  split at hw
  · cases hw
  · split at hw <;> split at hw
    all_goals first
      | rw [List.mem_singleton.mp hw]
        rfl
      | cases hw

theorem flagless_toList {α : Type} {o : Option α} {f : α → DirectoryWrite}
    (hf : ∀ a, (f a).flagless = true) : ∀ w ∈ o.toList.map f, w.flagless = true := by
  intro w hw
  obtain ⟨a, -, rfl⟩ := List.mem_map.mp hw
  exact hf a

/-! Members before and after, as the relations of the graph have them. -/

/-- What `_sync_admin_flag` does to the admin groups. -/
theorem member_sync (h : Anchored db) {tenantId userId : String} {isAdmin : Bool}
    {u : User} (hseed : .tenant u.tenantId ∈ seedRows)
    (hone : u.userId = userId → u.tenantId = tenantId)
    {γ : Grants String String String String String String} :
    ((syncStep db tenantId userId isAdmin).apply γ).member (adminGroupId u.tenantId) u.userId ↔
      if u.userId = userId then isAdmin = true
      else γ.member (adminGroupId u.tenantId) u.userId := by
  by_cases hid : u.userId = userId
  · have htenant := hone hid
    rw [htenant] at hseed
    obtain ⟨group, hgroup, hgroupId⟩ := h.adminGroup hseed
    rw [syncStep, hgroup, if_pos hid, htenant]
    cases isAdmin with
    | true => simp [Grants.Edit.apply, hgroupId, hid]
    | false => simp [Grants.Edit.apply, hgroupId, hid]
  · rw [if_neg hid, syncStep]
    cases adminGroup db tenantId with
    | none => rfl
    | some group =>
        cases isAdmin with
        | true => simp [Grants.Edit.apply, hid]
        | false => simp [Grants.Edit.apply, hid]

/-! ## One turn -/

/-- The calls on users, members and groups. -/
def AdminCall.onMembers : AdminCall → Bool
  | .createUser _ | .patchUser _ _ | .addMember _ _ | .removeMember _ _ | .createGroup _
  | .patchGroup _ _ | .deleteGroup _ => true
  | _ => false

/-- A call of an operator, or a run of the seed. -/
inductive Turn where
  | call (op : Operator) (call : AdminCall)
  | seed

/-- The turns that write the membership of an admin group write what the flag says. -/
def Turn.Careful (env : Env) (db : Directory) : Turn → Prop
  | .call op (.addMember groupId body) =>
      (db.anchors op.tenantId).bind Prod.snd = some groupId →
        ∀ u ∈ db.users, u.userId = body.userId → u.tenantId = op.tenantId → u.isAdmin = true
  | .call op (.removeMember groupId userId) =>
      (db.anchors op.tenantId).bind Prod.snd = some groupId →
        ∀ u ∈ db.users, u.userId = userId → u.tenantId = op.tenantId → u.isAdmin = false
  | .call _ _ => True
  | .seed => NamesFree db → ∀ {tenantId userId email row},
      .membership tenantId userId email (adminGroupId tenantId) ∈ seedRows →
        addressee env db tenantId email = some row → row.userId = userId → row.isAdmin = true

/-- A user is the user of its row. -/
theorem tenant_of_userTenant {u : User} (hu : u ∈ db.users) {tenantId userId : String}
    (huser : db.userTenant userId = some tenantId) (hid : u.userId = userId) :
    u.tenantId = tenantId := by
  rw [← hid, Directory.userTenant, Table.get_of_mem hu] at huser
  exact Option.some.inj huser

/-- An admin group that is the operator's is the admin group of the operator's tenant. -/
theorem Anchored.anchor_of_group (h : Anchored db) {tenantId tenantId' : String}
    (hseed : .tenant tenantId ∈ seedRows)
    (hgroup : db.groupTenant (adminGroupId tenantId) = some tenantId') :
    tenantId' = tenantId ∧ (db.anchors tenantId').bind Prod.snd = some (adminGroupId tenantId) := by
  rw [h.groups hseed, Option.some.injEq] at hgroup
  subst hgroup
  rw [h.anchors hseed]
  exact ⟨rfl, rfl⟩

/-- Where users stay as they are, the flags follow the members. -/
theorem flagKept_of_members {after : Directory} (h : FlagKept db)
    (husers : ∀ u ∈ after.users, ∃ old ∈ db.users, old.userId = u.userId ∧
      old.tenantId = u.tenantId ∧ old.isAdmin = u.isAdmin)
    (hmembers : ∀ u ∈ db.users, .tenant u.tenantId ∈ seedRows →
      (u.isAdmin = true ↔ (grants db).member (adminGroupId u.tenantId) u.userId) →
        (u.isAdmin = true ↔ (grants after).member (adminGroupId u.tenantId) u.userId)) :
    FlagKept after := by
  intro u hu hseed
  obtain ⟨old, hold, hid, htenant, hisAdmin⟩ := husers u hu
  rw [← htenant] at hseed
  have hbefore := hmembers old hold hseed (h old hold hseed)
  rw [hid, htenant, hisAdmin] at hbefore
  exact hbefore

theorem flagKept_createUser {body : CreateUserRequest} (hanchored : Anchored db)
    (h : FlagKept db) (hfree : db.users.get (userRow env d op body).userId = none) :
    FlagKept (applied (.insertUser (userRow env d op body) ::
      syncWrites db op.tenantId (userRow env d op body).userId body.isAdmin) db) := by
  intro u hu hseed
  obtain ⟨mid, hmid, hid, howner, hisAdmin⟩ := mem_users_applied flagless_sync hu
  rw [← howner] at hseed
  have hmember : ∀ hone : mid.userId = (userRow env d op body).userId → mid.tenantId = op.tenantId,
      (grants (applied (.insertUser (userRow env d op body) ::
        syncWrites db op.tenantId (userRow env d op body).userId body.isAdmin) db)).member
          (adminGroupId mid.tenantId) mid.userId ↔
        if mid.userId = (userRow env d op body).userId then body.isAdmin = true
        else (grants db).member (adminGroupId mid.tenantId) mid.userId := by
    intro hone
    have hsame : ((DirectoryWrite.insertUser (userRow env d op body)).effect db).groupMemberships =
        db.groupMemberships := rfl
    rw [applied_cons, grants_sync hsame]
    exact member_sync hanchored hseed hone
  rw [← hid, ← howner, ← hisAdmin]
  rcases Table.mem_or_eq_of_mem_insert hmid with hold | rfl
  · have hother : mid.userId ≠ (userRow env d op body).userId := fun heq =>
      Table.get_eq_none.mp hfree mid hold heq
    refine (h mid hold hseed).trans ((hmember fun heq => absurd heq hother).trans ?_).symm
    rw [if_neg hother]
    exact Iff.rfl
  · refine ((hmember fun _ => rfl).trans ?_).symm
    rw [if_pos rfl]
    exact Iff.rfl

theorem flagKept_patchUser {userId : String} {body : PatchUserRequest} (hanchored : Anchored db)
    (h : FlagKept db) (huser : db.userTenant userId = some op.tenantId) :
    FlagKept (applied (patchUserWrites d op db userId body) db) := by
  have hgrants : grants (applied (patchUserWrites d op db userId body) db) =
      (stepOf d op db (.patchUser userId body)).apply (grants db) := grants_patchUser
  have hplain : ∀ w ∈ body.enabled.toList.map (DirectoryWrite.setUserEnabled userId),
      w.flagless = true := flagless_toList fun _ => rfl
  have hrest : ∀ w ∈ (body.password.toList.map fun password =>
      DirectoryWrite.setUserPasswordHash userId (d.hashPassword password)) ++
        body.alwaysPasskey.toList.map (.setUserAlwaysPasskey userId), w.flagless = true :=
    List.forall_mem_append.mpr ⟨flagless_toList fun _ => rfl, flagless_toList fun _ => rfl⟩
  cases hflagged : body.isAdmin with
  | none =>
      refine flagKept_of_members h (fun u hu => mem_users_applied ?_ hu) fun u _ _ hflag => ?_
      · simp only [patchUserWrites, hflagged, Option.toList_none, List.flatMap_nil,
          List.append_nil, List.append_assoc]
        exact List.forall_mem_append.mpr ⟨hplain, hrest⟩
      · rw [hgrants, stepOf, hflagged]
        exact hflag
  | some isAdmin =>
      intro u hu hseed
      have hwrites : patchUserWrites d op db userId body =
          body.enabled.toList.map (.setUserEnabled userId) ++ .setUserIsAdmin userId isAdmin ::
            (syncWrites db op.tenantId userId isAdmin ++
              ((body.password.toList.map fun password =>
                .setUserPasswordHash userId (d.hashPassword password)) ++
                  body.alwaysPasskey.toList.map (.setUserAlwaysPasskey userId))) := by
        simp [patchUserWrites, hflagged]
      rw [hwrites, applied_append, applied_cons] at hu
      obtain ⟨mid, hmid, hid, howner, hisAdmin⟩ :=
        mem_users_applied (List.forall_mem_append.mpr ⟨flagless_sync, hrest⟩) hu
      simp only [DirectoryWrite.effect, Directory.updateUser, Table.mem_modify] at hmid
      obtain ⟨s, hs, hmid⟩ := hmid
      obtain ⟨old, hold, hid', howner', hisAdmin'⟩ := mem_users_applied hplain hs
      have hsameId : u.userId = old.userId := by
        rw [← hid, ← hmid, hid']
        split <;> rfl
      have hsameTenant : u.tenantId = old.tenantId := by
        rw [← howner, ← hmid, howner']
        split <;> rfl
      rw [hsameTenant] at hseed
      show u.isAdmin = true ↔ (grants (applied (patchUserWrites d op db userId body) db)).member
        (adminGroupId u.tenantId) u.userId
      rw [hgrants, stepOf, hflagged, hsameId, hsameTenant,
        member_sync hanchored hseed fun hid => tenant_of_userTenant hold huser hid]
      by_cases hthis : old.userId = userId
      · have hrow : (s.userId == userId) = true := by rw [← hid', hthis]; exact beq_self_eq_true _
        rw [if_pos hthis, ← hisAdmin, ← hmid, if_pos hrow]
      · have hrow : ¬ (s.userId == userId) = true := by rw [← hid']; simpa using hthis
        rw [if_neg hthis, ← hisAdmin, ← hmid, if_neg hrow, ← hisAdmin']
        exact h old hold hseed

theorem flagKept_edit {ws : List DirectoryWrite} (hanchored : Anchored db) (h : FlagKept db)
    (hedit : AdminEdit env d op db call ws) (hcall : call.onMembers = true)
    (hcareful : (Turn.call op call).Careful env db) : FlagKept (applied ws db) := by
  have hgrants : ∀ {kind}, call.editKind = some kind →
      grants (applied ws db) = (stepOf d op db call).apply (grants db) := fun hkind =>
    grants_after hedit (by rw [hkind]; rfl)
  cases hedit with
  | createUser _ hfree => exact flagKept_createUser hanchored h hfree
  | patchUser huser => exact flagKept_patchUser hanchored h huser
  | createGroup =>
      exact flagKept_of_members h (fun u hu => ⟨u, hu, rfl, rfl, rfl⟩) fun u hu _ hflag => hflag
  | patchGroup =>
      refine flagKept_of_members h (fun u hu => mem_users_applied ?_ hu) ?_
      · intro w hw
        rcases List.mem_append.mp hw with hw | hw
        · exact flagless_toList (fun _ => rfl) w hw
        · exact flagless_toList (fun _ => rfl) w hw
      · intro u _ _ hflag
        rw [hgrants rfl]
        exact hflag
  | deleteGroup hgroup htenant hother =>
      refine flagKept_of_members h (fun u hu => ⟨u, hu, rfl, rfl, rfl⟩) fun u hu hseed hflag => ?_
      rw [hgrants rfl, hflag]
      refine ⟨fun hmember => ⟨hmember, ?_⟩, And.left⟩
      -- the group deleted is no admin group
      rintro rfl
      obtain ⟨-, hanchor⟩ := hanchored.anchor_of_group hseed hgroup
      rw [Directory.anchors, htenant, Option.map_some, Option.bind_some] at hanchor
      exact hother hanchor.symm
  | addMember hgroup huser =>
      refine flagKept_of_members h (fun u hu => ⟨u, hu, rfl, rfl, rfl⟩) fun u hu hseed hflag => ?_
      rw [hgrants rfl]
      refine ⟨fun hisAdmin => Or.inl (hflag.mp hisAdmin), ?_⟩
      rintro (hmember | ⟨rfl, hid⟩)
      · exact hflag.mpr hmember
      · obtain ⟨-, hanchor⟩ := hanchored.anchor_of_group hseed hgroup
        exact hcareful hanchor u hu hid (tenant_of_userTenant hu huser hid)
  | removeMember hgroup hmember =>
      refine flagKept_of_members h (fun u hu => ⟨u, hu, rfl, rfl, rfl⟩) fun u hu hseed hflag => ?_
      rw [hgrants rfl]
      refine ⟨fun hisAdmin => ⟨hflag.mp hisAdmin, ?_⟩, fun hleft => hflag.mpr hleft.1⟩
      rintro ⟨rfl, hid⟩
      obtain ⟨htenant, hanchor⟩ := hanchored.anchor_of_group hseed hgroup
      have hoff := hcareful hanchor u hu hid htenant.symm
      rw [hoff] at hisAdmin
      cases hisAdmin
  | _ => cases hcall

/-- What is known of the database in every state of a careful run. -/
structure Administered (env : Env) (db : Db) : Prop where
  reached : Reached env db
  anchored : Anchored db.toDirectory
  flags : FlagKept db.toDirectory

theorem administered_call {db : Db} (h : Administered env db) (hcall : call.onMembers = true)
    (hcareful : (Turn.call op call).Careful env db.toDirectory) :
    Administered env (Served.after env ⟨db, .admin op call, d⟩) where
  reached := reached_after h.reached
  anchored := anchored_after h.anchored rfl (by rintro body rfl; cases hcall)
  flags := by
    cases hanswer : Served.answer env ⟨db, .admin op call, d⟩ with
    | error e =>
        rw [Served.after_of_error hanswer]
        exact h.flags
    | ok a =>
        have hadministers : call.administers = true := by
          cases call <;> first | rfl | cases hcall
        obtain ⟨ws, hedit, hafter⟩ := Served.edited rfl hadministers hanswer
        rw [hafter]
        exact flagKept_edit h.anchored h.flags hedit hcall hcareful

/-- The row under an address is the user with that id. -/
theorem eq_of_addressee {db : Directory} {tenantId email : String} {row u : User}
    (hrow : addressee env db tenantId email = some row) (hu : u ∈ db.users)
    (hid : row.userId = u.userId) : row = u ∧ u.tenantId = tenantId := by
  obtain ⟨hmem, hat⟩ := Table.first?_eq_some hrow
  simp only [Bool.and_eq_true, beq_iff_eq] at hat
  have heq : row = u := Table.eq_of_key_eq hmem hu hid
  exact ⟨heq, by rw [← heq]; exact hat.1⟩

theorem flagKept_seed {before after : Db} (h : Administered env before)
    (hunique : Constraints after.toDirectory) (hrun : SeedRun env before after)
    (hcareful : Turn.seed.Careful env before.toDirectory) : FlagKept after.toDirectory := by
  have hsame : after.users = before.users := hrun.users fun _ _ _ _ hentry =>
    h.reached.settled.users hentry
  intro u hu hseed
  rw [hsame] at hu
  have hflag := h.flags u hu hseed
  refine ⟨fun hisAdmin => hrun.kept.memberships _ (hflag.mp hisAdmin), fun hmember => ?_⟩
  rcases hrun.grown.memberships _ hmember with hold | ⟨tenantId, email, row, hentry, hrow, hid⟩
  · exact hflag.mpr hold
  · -- a member the seed has added has the flag
    rw [addressee, hsame] at hrow
    obtain ⟨rfl, rfl⟩ := eq_of_addressee hrow hu hid
    exact hcareful (namesFree_of_seedRun hunique hrun) hentry hrow hid

theorem administered_seed {db : Db} (h : Administered env db)
    (hcareful : Turn.seed.Careful env db.toDirectory) : Administered env (reseeded env d db) := by
  have hafter : Reached env (reseeded env d db) := reached_reseeded h.reached
  rcases hrun : (seedIdentity env d).run ⟨db, [], []⟩ with ⟨e | a, t⟩
  · rw [reseeded_of_error hrun]
    exact h
  · have hcompleted : SeedRun env db (reseeded env d db) :=
      seedRun_reseeded h.reached.named (by rw [hrun])
    refine ⟨hafter, anchored_of_seedRun hcompleted h.anchored.tenants fun hseed => ?_,
      flagKept_seed h hafter.constraints hcompleted hcareful⟩
    rw [h.anchored.groups hseed]
    rfl

/-- A first run of the seed gives the flag to the members of its admin groups. -/
theorem administered_seeded {seed : Draws}
    (hseed : ((seedIdentity env seed).run ⟨Db.empty, [], []⟩).1 = .ok ()) :
    Administered env (seeded env seed) where
  reached := reached_seeded hseed
  anchored := anchored_of_seedRun (seedRun_seeded hseed)
    (fun t ht => absurd ht (Table.not_mem_empty _)) fun _ => rfl
  flags := by
    have hrun := seedRun_seeded hseed
    have hunique := constraints_seeded env seed
    intro u hu _
    obtain ⟨email, hentry, hemail⟩ :=
      (hrun.grown.users u hu).resolve_left (Table.not_mem_empty u)
    have huser : (u.tenantId, u.userId, email, u.isAdmin) ∈ seedRows.filterMap SeedRow.user? :=
      List.mem_filterMap.mpr ⟨_, hentry, rfl⟩
    constructor
    · intro hisAdmin
      obtain ⟨row, hrow, hmember⟩ := hrun.met _ (seedAdmins.members _ huser hisAdmin)
      obtain ⟨hmem, hat⟩ := Table.first?_eq_some hrow
      simp only [Bool.and_eq_true, beq_iff_eq] at hat
      have heq : row = u :=
        hunique.users row hmem u hu (Prod.ext hat.1 (hat.2.trans hemail.symm))
      exact hmember (by rw [heq])
    · intro hmember
      obtain ⟨tenantId, email', row, hentry', hrow, hid⟩ :=
        (hrun.grown.memberships _ hmember).resolve_left (Table.not_mem_empty _)
      obtain ⟨-, rfl⟩ := eq_of_addressee hrow hu hid
      exact seedAdmins.flagged _ huser _ (List.mem_filterMap.mpr ⟨_, hentry', rfl⟩) rfl rfl rfl

/-! ## Any number of turns -/

/-- A turn taken in a state. -/
structure Taken where
  before : Db
  turn : Turn
  draws : Draws

variable (env) in
/-- The state it leaves. -/
def Taken.after (m : Taken) : Db :=
  match m.turn with
  | .call op call => Served.after env ⟨m.before, .admin op call, m.draws⟩
  | .seed => reseeded env m.draws m.before

/-- From `start`, turns (latest first) lead to a state. -/
inductive Turns (env : Env) (start : Db) : List Taken → Db → Prop where
  | nil : Turns env start [] start
  | cons {ms : List Taken} {db : Db} (init : Turns env start ms db) (turn : Turn)
      (draws : Draws) :
      Turns env start (⟨db, turn, draws⟩ :: ms) (Taken.after env ⟨db, turn, draws⟩)

/-- The calls the two copies of the fact are written by, and the seed. -/
def Turn.Listed : Turn → Prop
  | .call _ call => call.onMembers = true
  | .seed => True

/-- **The flag agrees with the admin group.**  After a first run of the seed and any
number of careful turns, in any order, the flag is set exactly for the members of the
admin group. -/
theorem flagAgrees_run {seed : Draws} {ms : List Taken} {db : Db}
    (hseed : ((seedIdentity env seed).run ⟨Db.empty, [], []⟩).1 = .ok ())
    (run : Turns env (seeded env seed) ms db) (hlisted : ∀ m ∈ ms, m.turn.Listed)
    (hcareful : ∀ m ∈ ms, m.turn.Careful env m.before.toDirectory) :
    FlagAgrees db.toDirectory := by
  have hadministered : Administered env db := by
    induction run with
    | nil => exact administered_seeded hseed
    | cons init turn draws ih =>
        have hbefore := ih (fun m hm => hlisted m (List.mem_cons_of_mem _ hm))
          fun m hm => hcareful m (List.mem_cons_of_mem _ hm)
        have hthis := hcareful _ (List.mem_cons_self ..)
        cases turn with
        | call op call =>
            exact administered_call hbefore (hlisted _ (List.mem_cons_self ..)) hthis
        | seed => exact administered_seed hbefore hthis
  exact hadministered.flags.agrees hadministered.anchored

/-! ## A customer among the administrators -/

/-- A call of the bank's administrator. -/
def diegoCalls (db : Db) (n : ℕ) (call : AdminCall) : Taken :=
  ⟨db, .call ⟨"usr_rb_diego", "roku-bank", "roku-bank", ∅, false⟩ call, .numbered n⟩

/-- Martín is put into the admin group. -/
def joinsAdmins : AdminCall := .addMember "grp_roku_bank_admins" ⟨"usr_rb_martin"⟩

/-- Martín is put there in a fresh installation. -/
def martinJoins : Taken := diegoCalls fresh 1 joinsAdmins

/-- Martín is given the flag, is put into the group as well, and the seed is run again. -/
def martinPromoted : Taken :=
  diegoCalls fresh 1 (.patchUser "usr_rb_martin" ⟨none, some true, none, none⟩)

def martinJoinsToo : Taken := diegoCalls (martinPromoted.after .standIn) 2 joinsAdmins

def martinReseeded : Taken := ⟨martinJoinsToo.after .standIn, .seed, .numbered 3⟩

/-- What a careful run of the seed finds of an entry. -/
def SeedRow.Flagged (env : Env) (db : Directory) : SeedRow → Prop
  | .membership tenantId userId email groupId => groupId = adminGroupId tenantId →
      ∀ row ∈ addressee env db tenantId email, row.userId = userId → row.isAdmin = true
  | _ => True

instance (env : Env) (db : Directory) : DecidablePred (SeedRow.Flagged env db)
  | .membership .. => inferInstanceAs (Decidable (_ → ∀ _ ∈ _, _ → _))
  | .tenant .. | .logo .. | .domain .. | .application .. | .redirect .. | .permission .. | .role ..
  | .rolePermission .. | .group .. | .groupRole .. | .anchors .. | .user .. => isTrue trivial

theorem careful_seed (h : ∀ entry ∈ seedRows, entry.Flagged env db) :
    Turn.seed.Careful env db :=
  fun _ _ _ _ _ hentry hrow => h _ hentry rfl _ hrow

theorem martin_evaluated :
    (∀ u ∈ martinJoinsToo.before.users.rows, u.userId = "usr_rb_martin" → u.isAdmin = true) ∧
      (∀ entry ∈ seedRows, entry.Flagged .standIn martinReseeded.before.toDirectory) ∧
      (martinReseeded.after .standIn).groupMemberships.get
        ("grp_roku_bank_admins", "usr_rb_martin") ≠ none ∧
      (∃ t ∈ (martinJoins.after .standIn).tenants.rows, t.tenantId = "roku-bank" ∧
        t.adminGroupId = some "grp_roku_bank_admins") ∧
      ((martinJoins.after .standIn).groups.get "grp_roku_bank_admins").isSome ∧
      (∃ u ∈ (martinJoins.after .standIn).users.rows, u.userId = "usr_rb_martin" ∧
        u.tenantId = "roku-bank" ∧ u.isAdmin = false) ∧
      (martinJoins.after .standIn).groupMemberships.get
        ("grp_roku_bank_admins", "usr_rb_martin") ≠ none := by
  decide +kernel

/-- With the flag he may be put into the group, and the seed keeps him there. -/
theorem flagAgrees_run_promoted : FlagAgrees (martinReseeded.after .standIn).toDirectory ∧
    ⟨"grp_roku_bank_admins", "usr_rb_martin"⟩ ∈
      (martinReseeded.after .standIn).groupMemberships := by
  obtain ⟨hseed, -⟩ := customers_evaluated
  obtain ⟨hflag, hseeded, hmember, -⟩ := martin_evaluated
  have hrun : Turns .standIn fresh [martinReseeded, martinJoinsToo, martinPromoted]
      (martinReseeded.after .standIn) :=
    .cons (.cons (.cons .nil _ _) _ _) _ _
  have hagrees : FlagAgrees (martinReseeded.after .standIn).toDirectory := by
    refine flagAgrees_run hseed hrun ?_ ?_
    · exact List.forall_mem_cons.mpr ⟨trivial,
        List.forall_mem_cons.mpr ⟨rfl, List.forall_mem_singleton.mpr rfl⟩⟩
    · have hjoins : martinJoinsToo.turn.Careful .standIn martinJoinsToo.before.toDirectory :=
        fun _ u hu hid _ => hflag u hu hid
      exact List.forall_mem_cons.mpr ⟨careful_seed hseeded,
        List.forall_mem_cons.mpr ⟨hjoins, List.forall_mem_singleton.mpr trivial⟩⟩
  exact ⟨hagrees, mem_groupMemberships_iff.mpr hmember⟩

/-- The group does not bring him the flag. -/
theorem not_flagAgrees_joins : ∃ ms db, Turns .standIn fresh ms db ∧
    (∀ m ∈ ms, m.turn.Listed) ∧ ¬ FlagAgrees db.toDirectory := by
  obtain ⟨-, -, -, ⟨t, ht, htenant, hgroup⟩, hthere, ⟨u, hu, hid, howner, hoff⟩, hmember⟩ :=
    martin_evaluated
  have hrun : Turns .standIn fresh [martinJoins] (martinJoins.after .standIn) :=
    .cons .nil _ _
  refine ⟨[martinJoins], _, hrun, fun m hm => ?_, fun hagrees => ?_⟩
  · rw [List.mem_singleton.mp hm]
    rfl
  · have hflag := hagrees t ht _ hgroup hthere u hu (howner.trans htenant.symm)
    rw [hoff, hid] at hflag
    exact absurd (hflag.mpr (mem_groupMemberships_iff.mpr hmember)) (by simp)

end RbaIdp
