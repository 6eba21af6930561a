import RbaIdp.ConsoleViews

/-!
# The page of a role

The console's page of a role ticks the permissions the role carries, and has a box for each
permission of the role's application.  "Guardar" sends all the ticks.  It is on when there
is something to save and the operator may write; one who may not has no box to click, so
the first is enough (`RolePage.Open.savable_eq`).

Between reading and saving any other requests may be served.  A permission stays, and stays
on its application (`permissionApplication_invariant`), so every tick is one the service
takes as long as the role is the one that was read.  Then the save is answered, and the role
carries exactly the ticks, whatever others had made of it meanwhile (`role_saved`).
-/

namespace RbaIdp

open Relational Program

variable {env : Env} {d : Draws} {op : Operator} {tenantId roleId : String}

/-! ## What the page holds -/

/-- `Set.prototype.add`, in the order of insertion. -/
def setAdd (xs : List String) (x : String) : List String := if x ∈ xs then xs else xs ++ [x]

/-- `new Set(xs)` -/
def newSet (xs : List String) : List String := xs.foldl setAdd []

@[simp] theorem mem_setAdd {xs : List String} {x y : String} :
    y ∈ setAdd xs x ↔ y ∈ xs ∨ y = x := by
  unfold setAdd
  split
  · next hx =>
    constructor
    · exact Or.inl
    · rintro (hy | rfl)
      · exact hy
      · exact hx
  · simp

theorem nodup_setAdd {xs : List String} {x : String} (h : xs.Nodup) : (setAdd xs x).Nodup := by
  unfold setAdd
  split
  · exact h
  · next hx =>
    refine List.nodup_append.mpr ⟨h, List.nodup_singleton x, fun a ha b hb heq => hx ?_⟩
    rw [List.mem_singleton] at hb
    rw [← hb, ← heq]
    exact ha

theorem mem_foldl_setAdd {xs acc : List String} {y : String} :
    y ∈ xs.foldl setAdd acc ↔ y ∈ acc ∨ y ∈ xs := by
  induction xs generalizing acc with
  | nil => simp
  | cons x rest ih => rw [List.foldl_cons, ih, mem_setAdd, List.mem_cons, or_assoc]

@[simp] theorem mem_newSet {xs : List String} {y : String} : y ∈ newSet xs ↔ y ∈ xs := by
  simp [newSet, mem_foldl_setAdd]

theorem nodup_newSet (xs : List String) : (newSet xs).Nodup := by
  have hfold : ∀ acc : List String, acc.Nodup → (xs.foldl setAdd acc).Nodup := by
    induction xs with
    | nil => exact fun _ h => h
    | cons x rest ih => exact fun acc h => ih _ (nodup_setAdd h)
  exact hfold [] List.nodup_nil

/-- The state of `RolePage`: what it has read, and the ticks. -/
structure RolePage where
  role : RoleDetail
  permissions : List PermissionPublic
  checked : List String

namespace RolePage

variable (page : RolePage)

/-- The permissions of the role as it was read. -/
def original : List String := newSet (page.role.permissions.map (·.permissionId))

/-- The permissions with a box. -/
def own : List PermissionPublic :=
  page.permissions.filter fun p => p.applicationId == page.role.applicationId

/-- The page when the role has been read, or read again. -/
def read (role : RoleDetail) (permissions : List PermissionPublic) : RolePage where
  role := role
  permissions := permissions
  checked := newSet (role.permissions.map (·.permissionId))

/-- A click on a box. -/
def tick (permissionId : String) (on : Bool) : RolePage :=
  { page with
    checked := if on then setAdd page.checked permissionId
      else page.checked.filter (· != permissionId) }

/-- "Descartar" -/
def discard : RolePage := { page with checked := page.original }

/-- Whether there is something to save; "Descartar" is on then. -/
def dirty : Bool :=
  page.checked.length != page.original.length ||
    page.checked.any fun id => !page.original.contains id

/-- Whether "Guardar" is on, for an operator who may write (`canWrite`) or may not. -/
def savable (canWrite : Bool) : Bool := !(!canWrite || !page.dirty)

/-- "Guardar" -/
def save : AdminCall := .setRolePermissions page.role.roleId ⟨page.checked⟩

/-- There is something to save when the ticks are not what was read: the sizes are compared
first, so one inclusion is enough. -/
theorem dirty_iff (hnodup : page.checked.Nodup) :
    page.dirty = true ↔
      ¬ ∀ id, id ∈ page.checked ↔ ∃ p ∈ page.role.permissions, p.permissionId = id := by
  have horiginal : ∀ id, id ∈ page.original ↔ ∃ p ∈ page.role.permissions, p.permissionId = id := by
    simp [original]
  simp only [← horiginal]
  constructor
  · intro hdirty hsame
    have hlength : page.checked.length = page.original.length :=
      ((List.perm_ext_iff_of_nodup hnodup (nodup_newSet _)).mpr hsame).length_eq
    simp only [dirty, hlength, bne_self_eq_false, Bool.false_or, List.any_eq_true,
      Bool.not_eq_true', List.contains_eq_mem, decide_eq_false_iff_not] at hdirty
    obtain ⟨id, hchecked, hnot⟩ := hdirty
    exact hnot ((hsame id).mp hchecked)
  · intro hdiffer
    by_contra hclean
    simp only [dirty, Bool.or_eq_true, bne_iff_ne, List.any_eq_true, Bool.not_eq_true',
      List.contains_eq_mem, decide_eq_false_iff_not, not_or, not_not, not_exists, not_and]
      at hclean
    obtain ⟨hlength, hsub⟩ := hclean
    have hperm : page.checked.Perm page.original :=
      (hnodup.subperm hsub).perm_of_length_le hlength.ge
    exact hdiffer fun id => hperm.mem_iff

end RolePage

/-! ## What stays -/

/-- A permission stays, and stays on its application. -/
theorem permissionApplication_invariant {permissionId applicationId : String} :
    Invariant Write fun db : Db => db.permissionApplication permissionId = some applicationId := by
  rintro w db - happ
  cases w with
  | directory w => exact permissionApplication_effect happ
  | artefact w => exact happ

variable {start db : Db} {hist : List ApiServed}

/-- What every statement keeps, a request of the API keeps. -/
theorem ApiServed.kept {I : Db → Prop} (hI : Invariant Write I) {m : ApiServed}
    (h : I m.before) : I (m.after env) := by
  by_cases hchanged : m.after env = m.before
  · rw [hchanged]
    exact h
  · obtain ⟨s, -, hdb, -, hsame⟩ := reaches_of_changed hchanged
    rw [← hdb] at h
    rw [hsame]
    exact commit_invariant hI (s.commit_writes env) h

/-- What every statement keeps holds at the end of a run if it held on the way. -/
theorem ApiRun.kept {I : Db → Prop} (hI : Invariant Write I) (run : ApiRun env start hist db)
    {m : ApiServed} (hm : m ∈ hist) (h : I m.before) : I db := by
  induction run with
  | nil => cases hm
  | cons init request draws ih =>
      rcases List.mem_cons.mp hm with rfl | hm
      · exact ApiServed.kept hI h
      · exact ApiServed.kept hI (ih hm)

theorem orderly_before (hstart : Orderly start.toDirectory) (run : ApiRun env start hist db)
    (hcreate : ∀ m ∈ hist, m.FoundsNothing) {m : ApiServed} (hm : m ∈ hist) :
    Orderly m.before.toDirectory := by
  induction run with
  | nil => cases hm
  | cons init request draws ih =>
      obtain ⟨-, hearlier⟩ := List.forall_mem_cons.mp hcreate
      rcases List.mem_cons.mp hm with rfl | hm
      · exact orderly_api hstart init hearlier
      · exact ih hearlier hm

/-! ## The page over a run -/

/-- An operator on the tenant read this, in a state the run has passed through. -/
def ReadOnTheWay (env : Env) (hist : List ApiServed) (tenantId : String) (call : AdminCall)
    (a : Answer) : Prop :=
  ∃ m ∈ hist, ∃ (op : Operator) (d : Draws), op.tenantId = tenantId ∧
    Served.answer env ⟨m.before, .admin op call, d⟩ = .ok a

/-- The states of the page of a role.  `canWrite` is of the console, which asks once what
its operator may do. -/
inductive RolePage.Open (env : Env) (hist : List ApiServed) (tenantId roleId : String)
    (canWrite : Bool) : RolePage → Prop where
  /-- the role comes, the permissions have not or will never -/
  | opened {role : RoleDetail}
      (read : ReadOnTheWay env hist tenantId (.getRole roleId) (.role role)) :
      Open env hist tenantId roleId canWrite (.read role [])
  | listed {page : RolePage} {permissions : List PermissionPublic}
      (was : Open env hist tenantId roleId canWrite page)
      (read : ReadOnTheWay env hist tenantId (.listPermissions none) (.permissions permissions)) :
      Open env hist tenantId roleId canWrite { page with permissions := permissions }
  /-- the role is read again, as after a save -/
  | reloaded {page : RolePage} {role : RoleDetail}
      (was : Open env hist tenantId roleId canWrite page)
      (read : ReadOnTheWay env hist tenantId (.getRole roleId) (.role role)) :
      Open env hist tenantId roleId canWrite (.read role page.permissions)
  /-- the boxes are disabled for an operator who may not write -/
  | clicked {page : RolePage} {permission : PermissionPublic}
      (was : Open env hist tenantId roleId canWrite page) (writes : canWrite = true)
      (box : permission ∈ page.own) (on : Bool) :
      Open env hist tenantId roleId canWrite (page.tick permission.permissionId on)
  | discarded {page : RolePage} (was : Open env hist tenantId roleId canWrite page) :
      Open env hist tenantId roleId canWrite page.discard

/-- What the page has in hand is so now: the role's permissions, the boxes and the ticks are
permissions of the applications they were read with. -/
structure RolePage.Sound (db : Db) (tenantId roleId : String) (page : RolePage) : Prop where
  role : page.role.roleId = roleId
  tenant : db.applicationTenant page.role.applicationId = some tenantId
  nodup : page.checked.Nodup
  carried : ∀ p ∈ page.role.permissions,
    db.permissionApplication p.permissionId = some page.role.applicationId
  offered : ∀ p ∈ page.permissions, db.permissionApplication p.permissionId = some p.applicationId
  ticked : ∀ id ∈ page.checked, db.permissionApplication id = some page.role.applicationId

/-- A role is read with the permissions of its application. -/
theorem role_read (howned : WellOwned db.toDirectory) {role : RoleDetail}
    (hread : Served.answer env ⟨db, .admin op (.getRole roleId), d⟩ = .ok (.role role)) :
    role.roleId = roleId ∧ db.applicationTenant role.applicationId = some op.tenantId ∧
      ∀ p ∈ role.permissions,
        db.permissionApplication p.permissionId = some role.applicationId := by
  obtain ⟨row, hget, htenant, rfl⟩ := answer_getRole.mp hread
  have hid : row.roleId = roleId := Table.key_of_get hget
  refine ⟨hid, ?_, fun p hp => ?_⟩
  · rw [← htenant]
    exact howned.roles row (Table.mem_of_get hget)
  · obtain ⟨q, hq, hcarries, rfl⟩ := mem_shown_permissions.mp hp
    obtain ⟨_, _, howner, happ⟩ := howned.rolePermissions _ hcarries
    rw [Directory.roleOwners, Table.get_of_mem (Table.mem_of_get hget), Option.map_some,
      Option.some.injEq, Prod.mk.injEq] at howner
    rw [← howner.2] at happ
    exact happ

/-- A permission is listed with its application. -/
theorem permissions_read {permissions : List PermissionPublic}
    (hread : Served.answer env ⟨db, .admin op (.listPermissions none), d⟩ =
      .ok (.permissions permissions)) :
    ∀ p ∈ permissions, db.permissionApplication p.permissionId = some p.applicationId := by
  cases hread
  intro p hp
  simp only [List.mem_map, mem_sortOn, Table.mem_select] at hp
  obtain ⟨row, ⟨hrow, -⟩, rfl⟩ := hp
  show db.permissionApplication row.permissionId = some row.applicationId
  rw [Directory.permissionApplication, Table.get_of_mem hrow, Option.map_some]

theorem RolePage.sound_read {role : RoleDetail} {permissions : List PermissionPublic}
    (hstart : Orderly start.toDirectory) (run : ApiRun env start hist db)
    (hcreate : ∀ m ∈ hist, m.FoundsNothing)
    (hread : ReadOnTheWay env hist tenantId (.getRole roleId) (.role role))
    (hoffered : ∀ p ∈ permissions, db.permissionApplication p.permissionId = some p.applicationId) :
    (RolePage.read role permissions).Sound db tenantId roleId := by
  obtain ⟨m, hm, op, d, rfl, hanswer⟩ := hread
  obtain ⟨hrole, htenant, hcarried⟩ :=
    role_read (orderly_before hstart run hcreate hm).owned hanswer
  have hnow : ∀ p ∈ role.permissions,
      db.permissionApplication p.permissionId = some role.applicationId := fun p hp =>
    run.kept permissionApplication_invariant hm (hcarried p hp)
  refine ⟨hrole, run.kept applicationTenant_invariant hm htenant, nodup_newSet _, hnow,
    hoffered, ?_⟩
  intro id hid
  simp only [read, mem_newSet, List.mem_map] at hid
  obtain ⟨p, hp, rfl⟩ := hid
  exact hnow p hp

theorem RolePage.Open.sound {canWrite : Bool} {page : RolePage}
    (hpage : page.Open env hist tenantId roleId canWrite) (hstart : Orderly start.toDirectory)
    (run : ApiRun env start hist db) (hcreate : ∀ m ∈ hist, m.FoundsNothing) :
    page.Sound db tenantId roleId := by
  induction hpage with
  | opened read => exact sound_read hstart run hcreate read (by simp)
  | listed was read ih =>
      obtain ⟨m, hm, op, d, -, hanswer⟩ := read
      refine { ih with offered := fun p hp => ?_ }
      exact run.kept permissionApplication_invariant hm (permissions_read hanswer p hp)
  | reloaded was read ih => exact sound_read hstart run hcreate read ih.offered
  | @clicked page permission was writes box on ih =>
      obtain ⟨hlisted, happ⟩ := List.mem_filter.mp box
      have hown : db.permissionApplication permission.permissionId =
          some page.role.applicationId := by
        rw [ih.offered permission hlisted, eq_of_beq happ]
      cases on with
      | true =>
          refine { ih with nodup := nodup_setAdd ih.nodup, ticked := fun id hid => ?_ }
          rcases mem_setAdd.mp hid with hid | rfl
          · exact ih.ticked id hid
          · exact hown
      | false =>
          exact { ih with
            nodup := ih.nodup.filter _
            ticked := fun id hid => ih.ticked id (List.mem_filter.mp hid).1 }
  | @discarded page was ih =>
      refine { ih with nodup := nodup_newSet _, ticked := fun id hid => ?_ }
      simp only [discard, original, mem_newSet, List.mem_map] at hid
      obtain ⟨p, hp, rfl⟩ := hid
      exact ih.carried p hp

/-- Who may not write ticks nothing. -/
theorem RolePage.Open.untouched {page : RolePage}
    (hpage : page.Open env hist tenantId roleId false) : page.checked = page.original := by
  induction hpage with
  | opened read => rfl
  | listed was read ih => exact ih
  | reloaded was read ih => rfl
  | clicked was writes box on ih => cases writes
  | discarded was ih => rfl

/-- So "Guardar" is on whenever there is something to save. -/
theorem RolePage.Open.savable_eq {canWrite : Bool} {page : RolePage}
    (hpage : page.Open env hist tenantId roleId canWrite) :
    page.savable canWrite = page.dirty := by
  cases canWrite with
  | true => simp [savable]
  | false =>
      have hclean : page.dirty = false := by simp [dirty, hpage.untouched]
      simp [savable, hclean]

/-! ## The save -/

section Save

variable {t : World}

theorem wp_onDirectory_accepted {w : DirectoryWrite} {Q : Unit → World → Prop}
    (haccepted : w.violates t.db.toDirectory = false) (h : Q () (t.exec (.directory w))) :
    (onDirectory w).wp Q (fun _ => False) t := by
  rw [onDirectory, wp_execute]
  refine ⟨fun hviolates => ?_, fun _ => h⟩
  have hrefused : w.violates t.db.toDirectory = true := hviolates
  rw [haccepted] at hrefused
  cases hrefused

theorem wp_requireRole_found {role : Role} {Q : Role → World → Prop} {E : World → Prop}
    (hrole : t.db.roles.get roleId = some role) (htenant : role.tenantId = tenantId)
    (h : Q role t) : (requireRole tenantId roleId).wp Q E t := by
  have hfound : (t.db.roles.get roleId).filter (fun r => r.tenantId == tenantId) = some role :=
    Option.filter_eq_some_iff.mpr ⟨hrole, beq_iff_eq.mpr htenant⟩
  simp only [requireRole, wp_bind, wp_read, wp_require, hfound]
  refine ⟨fun hnone => (by cases hnone), fun row hrow => ?_⟩
  rw [← Option.some.inj hrow]
  exact h

/-- The loop that gives a role what it does not carry. -/
theorem wp_insertPermissions {pids : List String} (hnodup : pids.Nodup)
    (hrole : (t.db.roles.get roleId).isSome)
    (hknown : ∀ pid ∈ pids, (t.db.permissions.get pid).isSome)
    (hfree : ∀ pid ∈ pids, t.db.rolePermissions.get (roleId, pid) = none) :
    (forEach pids fun pid => onDirectory (.insertRolePermission ⟨roleId, pid⟩)).wp
      (fun _ t' => t'.db.roles = t.db.roles ∧ t'.db.permissions = t.db.permissions ∧
        ∀ rp, rp ∈ t'.db.rolePermissions ↔
          rp ∈ t.db.rolePermissions ∨ rp.roleId = roleId ∧ rp.permissionId ∈ pids)
      (fun _ => False) t := by
  induction pids generalizing t with
  | nil => simp [forEach]
  | cons pid rest ih =>
      obtain ⟨hnew, hrest⟩ := List.nodup_cons.mp hnodup
      have hfreeNow : t.db.rolePermissions.get (roleId, pid) = none :=
        hfree pid (List.mem_cons_self ..)
      simp only [forEach, wp_bind]
      refine wp_onDirectory_accepted ?_ ?_
      · have hpermission := hknown pid (List.mem_cons_self ..)
        simp [DirectoryWrite.violates, RolePermission.key, hfreeNow, hrole, hpermission]
      · have hinserted : ∀ rp, rp ∈ t.db.rolePermissions.insert ⟨roleId, pid⟩ ↔
            rp ∈ t.db.rolePermissions ∨ rp = ⟨roleId, pid⟩ := fun rp => Table.mem_insert hfreeNow
        refine wp_mono (ih (t := t.exec (.directory (.insertRolePermission ⟨roleId, pid⟩))) hrest
          hrole (fun other hother => hknown other (List.mem_cons_of_mem _ hother)) ?_)
          (fun _ t' h => ?_) fun _ h => h
        · -- the others are other rows
          intro other hother
          have hne : pid ≠ other := fun heq => hnew (heq ▸ hother)
          show (t.db.rolePermissions.insert ⟨roleId, pid⟩).get (roleId, other) = none
          simp [RolePermission.key, hfree other (List.mem_cons_of_mem _ hother), hne]
        · obtain ⟨hroles, hpermissions, hmem⟩ := h
          refine ⟨hroles, hpermissions, fun rp => (hmem rp).trans ?_⟩
          rw [show (t.exec (.directory (.insertRolePermission ⟨roleId, pid⟩))).db.rolePermissions =
            t.db.rolePermissions.insert ⟨roleId, pid⟩ from rfl, hinserted, or_assoc]
          refine or_congr_right ?_
          obtain ⟨rpRole, rpPermission⟩ := rp
          simp only [RolePermission.mk.injEq, List.mem_cons]
          tauto

/-- What is asked for is carried, when it is known and on the role's application. -/
theorem wp_setRolePermissions {body : SetRolePermissionsRequest} {role : Role}
    (hrole : t.db.roles.get roleId = some role) (htenant : role.tenantId = op.tenantId)
    (hown : t.db.applicationTenant role.applicationId = some op.tenantId)
    (hknown : ∀ pid ∈ body.permissionIds,
      t.db.permissionApplication pid = some role.applicationId) :
    (setRolePermissions op roleId body).wp
      (fun saved t' => saved = roleDetail t'.db role ∧ t'.db.permissions = t.db.permissions ∧
        ∀ pid, (⟨roleId, pid⟩ : RolePermission) ∈ t'.db.rolePermissions ↔
          pid ∈ body.permissionIds)
      (fun _ => False) t := by
  have howned : ∀ pid ∈ body.permissionIds, ∃ p, t.db.permissions.get pid = some p ∧
      ownPermission t.db.toDirectory op.tenantId pid = some p ∧
      p.applicationId = role.applicationId := by
    intro pid hpid
    obtain ⟨p, hget, happ⟩ := Option.map_eq_some_iff.mp (hknown pid hpid)
    obtain ⟨app, happGet, happTenant⟩ := Option.map_eq_some_iff.mp hown
    refine ⟨p, hget, ?_, happ⟩
    simp [ownPermission, hget, happ, happGet, happTenant]
  have hwanted : ∀ pid, pid ∈ wantedPermissions body ↔ pid ∈ body.permissionIds := fun _ =>
    mem_wantedPermissions
  rw [setRolePermissions, wp_transaction]
  refine wp_seq (I := fun row t' => t' = t ∧ row = role)
    (wp_requireRole_found hrole htenant ⟨rfl, rfl⟩) ?_
  rintro role t ⟨rfl, rfl⟩
  simp only [wp_bind, wp_read, wp_raiseIf]
  refine ⟨fun hmissing => hmissing (List.filter_eq_nil_iff.mpr fun pid hpid => ?_), fun _ =>
    ⟨fun hforeign => hforeign (List.filter_eq_nil_iff.mpr fun pid hpid => ?_), fun _ =>
      wp_onDirectory_accepted rfl ?_⟩⟩
  · obtain ⟨p, -, hownPermission, -⟩ := howned pid ((hwanted pid).mp hpid)
    simp [hownPermission]
  · obtain ⟨p, -, hownPermission, happ⟩ := howned pid ((hwanted pid).mp hpid)
    simp [hownPermission, happ]
  let cleared : World := t.exec (.directory (.deletePermissionsOfRole roleId))
  have hroles : cleared.db.roles = t.db.roles := rfl
  have hpermissions : cleared.db.permissions = t.db.permissions := rfl
  have hcleared : ∀ rp, rp ∈ cleared.db.rolePermissions ↔
      rp ∈ t.db.rolePermissions ∧ ¬ rp.roleId = roleId := by
    intro rp
    show rp ∈ t.db.rolePermissions.erase (fun r => r.roleId == roleId) ↔ _
    simp
  have hnodup : (wantedPermissions body).Nodup :=
    (perm_sortOn _ _).nodup_iff.mpr (List.nodup_dedup _)
  have hthere : (cleared.db.roles.get roleId).isSome := by
    rw [hroles, hrole]
    rfl
  have hloop := wp_insertPermissions hnodup hthere (fun pid hpid => ?_) fun pid hpid => ?_
  · refine wp_mono hloop (fun _ t' h => ?_) fun _ h => h
    obtain ⟨hrolesKept, hpermissionsKept, hmem⟩ := h
    have hstill : t'.db.roles.get roleId = some role := by
      rw [hrolesKept, hroles]
      exact hrole
    rw [refreshRole, wp_bind]
    refine wp_requireRole_found hstill htenant
      ⟨rfl, hpermissionsKept.trans hpermissions, fun pid => ?_⟩
    rw [hmem, hcleared]
    simp [hwanted]
  · obtain ⟨p, hget, -, -⟩ := howned pid ((hwanted pid).mp hpid)
    rw [hpermissions, hget]
    rfl
  · refine Table.get_eq_none.mpr fun rp hrp hkey => ((hcleared rp).mp hrp).2 ?_
    exact congrArg Prod.fst hkey

end Save

/-- **A save sets the ticks.**  From an orderly directory, let clients send any requests to
the API that found no tenant, in any order, while an operator opens the page of a role,
clicks and saves.  When the role is gone the save is refused.  When it is there, of the
tenant and the application it was read with, the save is answered, and the role carries
exactly the ticks. -/
theorem role_saved {canWrite : Bool} {page : RolePage} (hstart : Orderly start.toDirectory)
    (run : ApiRun env start hist db) (hcreate : ∀ m ∈ hist, m.FoundsNothing)
    (hpage : page.Open env hist op.tenantId roleId canWrite) :
    (page.dirty = true ↔
      ¬ ∀ id, id ∈ page.checked ↔ ∃ p ∈ page.role.permissions, p.permissionId = id) ∧
    page.savable canWrite = page.dirty ∧
    (db.roles.get roleId = none →
      Served.answer env ⟨db, .admin op page.save, d⟩ = .error (.raised ⟨404, "unknown role"⟩)) ∧
    (db.roleOwners roleId = some (op.tenantId, page.role.applicationId) →
      ∃ saved, Served.answer env ⟨db, .admin op page.save, d⟩ = .ok (.role saved) ∧
        (∀ id, (∃ p ∈ saved.permissions, p.permissionId = id) ↔ id ∈ page.checked) ∧
        ∀ id, (⟨roleId, id⟩ : RolePermission) ∈
          (Served.after env ⟨db, .admin op page.save, d⟩).rolePermissions ↔ id ∈ page.checked) := by
  have hsound : page.Sound db op.tenantId roleId := hpage.sound hstart run hcreate
  have hown : db.applicationTenant page.role.applicationId = some op.tenantId := hsound.tenant
  have hknown : ∀ pid ∈ SetRolePermissionsRequest.permissionIds ⟨page.checked⟩,
      db.permissionApplication pid = some page.role.applicationId := hsound.ticked
  refine ⟨page.dirty_iff hsound.nodup, hpage.savable_eq, fun hgone => ?_, fun hthere => ?_⟩
  · simp [Served.answer, Served.outcome, serve, serveAdmin, RolePage.save, hsound.role, answer,
      setRolePermissions, requireRole, transaction, run_bind, require, hgone]
  · obtain ⟨row, hget, howner⟩ := Option.map_eq_some_iff.mp hthere
    obtain ⟨htenant, happ⟩ := Prod.mk.inj howner
    rw [← happ] at hown hknown
    have hwp := wp_setRolePermissions (t := ⟨db, [], []⟩) hget htenant hown hknown
    rcases hrun : (setRolePermissions op roleId ⟨page.checked⟩).run ⟨db, [], []⟩ with
      ⟨e | saved, t'⟩
    · exact (wp_of_error hwp hrun).elim
    obtain ⟨rfl, hpermissions, hcarried⟩ := wp_of_ok hwp hrun
    have houtcome : Served.outcome env ⟨db, .admin op page.save, d⟩ =
        (.ok (.role (roleDetail t'.db row)), t') := by
      simp [Served.outcome, serve, serveAdmin, RolePage.save, hsound.role, answer, run_bind, hrun]
    have hid : row.roleId = roleId := Table.key_of_get hget
    refine ⟨roleDetail t'.db row, by rw [Served.answer, houtcome], fun id => ?_, fun id => ?_⟩
    · rw [← hcarried id]
      constructor
      · rintro ⟨p, hp, rfl⟩
        obtain ⟨q, -, hq, rfl⟩ := mem_shown_permissions.mp hp
        rw [hid] at hq
        exact hq
      · intro hcarries
        -- a permission that is ticked is there
        obtain ⟨q, hq, -⟩ :=
          Option.map_eq_some_iff.mp (hsound.ticked id ((hcarried id).mp hcarries))
        obtain rfl : q.permissionId = id := Table.key_of_get hq
        refine ⟨permissionPublic q, mem_shown_permissions.mpr ⟨q, ?_, ?_, rfl⟩, rfl⟩
        · rw [hpermissions]
          exact Table.mem_of_get hq
        · rw [hid]
          exact hcarries
    · rw [Served.after, houtcome]
      exact hcarried id

/-! Ana takes the right to write from the members, on a page read before she hired. -/

def memberDetail : RoleDetail :=
  roleDetail anaHires.before ⟨"member", "acme", "portal", "member", "", 0⟩

def memberPage : RolePage :=
  { RolePage.read memberDetail [] with
    permissions :=
      (sortOn (fun row : Permission => [row.applicationId, row.resource, row.operation])
        (anaHires.before.permissions.select fun _ => true)).map permissionPublic }

def memberUnticked : RolePage := memberPage.tick "portal_write" false

theorem open_memberUnticked :
    memberUnticked.Open .standIn [anaHires, anaSignsIn] Operator.standIn.tenantId "member"
      true := by
  have hrole : anaHires.before.roles.get "member" =
      some ⟨"member", "acme", "portal", "member", "", 0⟩ := by decide +kernel
  have hread : ReadOnTheWay .standIn [anaHires, anaSignsIn] "acme" (.getRole "member")
      (.role memberDetail) :=
    ⟨anaHires, List.mem_cons_self .., .standIn, .numbered 3, rfl,
      answer_getRole.mpr ⟨_, hrole, rfl, rfl⟩⟩
  have hlisted : ReadOnTheWay .standIn [anaHires, anaSignsIn] "acme" (.listPermissions none)
      (.permissions memberPage.permissions) := by
    refine ⟨anaHires, List.mem_cons_self .., .standIn, .numbered 3, rfl, ?_⟩
    decide +kernel
  have hbox : memberPage.own.any (fun p => p.permissionId == "portal_write") = true := by
    decide +kernel
  obtain ⟨permission, hown, hid⟩ := List.any_eq_true.mp hbox
  have hopen : (memberPage.tick permission.permissionId false).Open .standIn
      [anaHires, anaSignsIn] "acme" "member" true :=
    .clicked (.listed (.opened hread) hlisted) rfl hown false
  rw [eq_of_beq hid] at hopen
  exact hopen

theorem role_saved_member :
    ∃ saved, Served.answer .standIn
        ⟨anaHires.after .standIn, .admin .standIn memberUnticked.save, .numbered 3⟩ =
      .ok (.role saved) ∧
    ∀ id, (∃ p ∈ saved.permissions, p.permissionId = id) ↔ id = "portal_read" := by
  have hevaluated : (anaHires.after .standIn).roleOwners "member" =
      some ("acme", memberUnticked.role.applicationId) ∧
      memberUnticked.checked = ["portal_read"] := by decide +kernel
  obtain ⟨-, -, -, hsaved⟩ := role_saved (d := .numbered 3) orderly_standInManaged run_hires
    foundsNothing_hires open_memberUnticked
  obtain ⟨saved, hanswer, hshown, -⟩ := hsaved hevaluated.1
  refine ⟨saved, hanswer, fun id => ?_⟩
  rw [hshown, hevaluated.2, List.mem_singleton]

end RbaIdp
