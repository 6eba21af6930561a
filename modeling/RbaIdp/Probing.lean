import RbaIdp.Noninterference
import RbaIdp.Relational.Refusal

/-!
# Creation and the ids of other tenants

Primary keys are unique over the whole platform, rows belong to a tenant.  A call
that makes a row looks for its id among the rows of every tenant, so a row of
another tenant can refuse it.

Each of the four calls is brought to a decision table over the tenant's own rows
and one bit: is the id in use?  Two states with the same rows of a tenant agree on
the table, so what the answers of the two can differ in is the bit, and they do
differ in it exactly where the call gets as far as the id.
-/

namespace RbaIdp

open Relational Program

/-- A call that makes a row under an id that is chosen, drawn or derived. -/
inductive Creation where
  | user (body : CreateUserRequest)
  | group (body : CreateGroupRequest)
  | role (body : CreateRoleRequest)
  | permission (body : CreatePermissionRequest)

namespace Creation

def call : Creation → AdminCall
  | user body => .createUser body
  | group body => .createGroup body
  | role body => .createRole body
  | permission body => .createPermission body

variable (env : Env) (d : Draws) (tenantId : String)

/-- Is the id of the new row in use, by whatever tenant? -/
def taken (dir : Directory) : Creation → Bool
  | user _ => (dir.users.get ("usr_" ++ d.hex12)).isSome
  | group body => (dir.groups.get ((nonEmpty body.groupId).getD ("grp_" ++ d.hex12))).isSome
  | role body => (dir.roles.get ((nonEmpty body.roleId).getD ("role_" ++ d.hex12))).isSome
  | permission body =>
      (dir.permissions.get (permissionId body.applicationId (body.resource, body.operation))).isSome

/-! ## What the calls ask of the tenant's own rows -/

def emailUsed (dir : Directory) (email : String) : Bool :=
  dir.users.exists? fun u => u.tenantId == tenantId && u.email == env.lib.lower (strip email)

def groupNamed (dir : Directory) (name : String) : Bool :=
  dir.groups.exists? fun g => g.tenantId == tenantId && g.name == name

def ownApplication (dir : Directory) (applicationId : String) : Bool :=
  ((dir.applications.get applicationId).filter fun a => a.tenantId == tenantId).isSome

def roleNamed (dir : Directory) (applicationId name : String) : Bool :=
  dir.roles.exists? fun r => r.applicationId == applicationId && r.name == name

def scopeUsed (dir : Directory) (applicationId resource operation : String) : Bool :=
  dir.permissions.exists? fun p =>
    p.applicationId == applicationId && p.resource == resource && p.operation == operation

/-- Does the call get as far as the id? -/
def asks (dir : Directory) : Creation → Bool
  | user body => (dir.tenants.get tenantId).isSome && !emailUsed env tenantId dir body.email
  | group _ => true
  | role body => ownApplication tenantId dir body.applicationId
  | permission body => ownApplication tenantId dir body.applicationId &&
      !scopeUsed dir body.applicationId body.resource body.operation

/-- What the call is refused with, given whether its id is in use. -/
def verdict (taken : Bool) (dir : Directory) : Creation → Option HTTPException
  | user body =>
      if !(dir.tenants.get tenantId).isSome then some ⟨404, "unknown tenant"⟩
      else if emailUsed env tenantId dir body.email || taken then some ⟨409, "email already exists"⟩
      else none
  | group body =>
      if taken then some ⟨409, "group_id already exists"⟩
      else if groupNamed tenantId dir body.name then some ⟨409, "group name already exists"⟩
      else if !(dir.tenants.get tenantId).isSome then some ⟨409, "group_id or name already exists"⟩
      else none
  | role body =>
      if !ownApplication tenantId dir body.applicationId then some ⟨404, "unknown application"⟩
      else if taken then some ⟨409, "role_id already exists"⟩
      else if roleNamed dir body.applicationId body.name then
        some ⟨409, "role name already exists for this application"⟩
      else if !(dir.tenants.get tenantId).isSome then some ⟨409, "role_id or name already exists"⟩
      else none
  | permission body =>
      if !ownApplication tenantId dir body.applicationId then some ⟨404, "unknown application"⟩
      else if taken || scopeUsed dir body.applicationId body.resource body.operation then
        some ⟨409, "permission already exists"⟩
      else none

variable {env tenantId}

/-- The id decides exactly where the call gets as far as it. -/
theorem verdict_taken {dir : Directory} {c : Creation} :
    c.verdict env tenantId true dir = c.verdict env tenantId false dir ↔
      c.asks env tenantId dir = false := by
  cases c with
  | user body =>
      simp only [verdict, asks]
      cases (dir.tenants.get tenantId).isSome <;> cases emailUsed env tenantId dir body.email <;>
        simp
  | group body =>
      simp only [verdict, asks]
      cases groupNamed tenantId dir body.name <;> cases (dir.tenants.get tenantId).isSome <;> simp
  | role body =>
      simp only [verdict, asks]
      cases ownApplication tenantId dir body.applicationId <;>
        cases roleNamed dir body.applicationId body.name <;>
        cases (dir.tenants.get tenantId).isSome <;> simp
  | permission body =>
      simp only [verdict, asks]
      cases ownApplication tenantId dir body.applicationId <;>
        cases scopeUsed dir body.applicationId body.resource body.operation <;> simp

/-! ## Two states with the same rows of the tenant -/

section Agreeing

variable {db db' : Db} (hagree : Agree tenantId db db')

include hagree

theorem tenant_agree :
    (db.tenants.get tenantId).isSome = (db'.tenants.get tenantId).isSome := by
  rw [hagree.tenants.get_eq (fun r hget => Table.key_of_get hget) fun r hget =>
    Table.key_of_get hget]

theorem emailUsed_agree {email : String} :
    emailUsed env tenantId db.toDirectory email = emailUsed env tenantId db'.toDirectory email := by
  have hown : ∀ u : User, (u.tenantId == tenantId && u.email == env.lib.lower (strip email)) =
      true → u.tenantId = tenantId := by
    intro u hu
    exact beq_iff_eq.mp (Bool.and_eq_true_iff.mp hu).1
  exact hagree.users.exists?_eq (fun u _ => hown u) fun u _ => hown u

theorem groupNamed_agree {name : String} :
    groupNamed tenantId db.toDirectory name = groupNamed tenantId db'.toDirectory name := by
  have hown : ∀ g : Group, (g.tenantId == tenantId && g.name == name) = true →
      g.tenantId = tenantId := by
    intro g hg
    exact beq_iff_eq.mp (Bool.and_eq_true_iff.mp hg).1
  exact hagree.groups.exists?_eq (fun g _ => hown g) fun g _ => hown g

theorem ownApplication_agree {applicationId : String} :
    ownApplication tenantId db.toDirectory applicationId =
      ownApplication tenantId db'.toDirectory applicationId := by
  have hown : ∀ a : Application, (a.tenantId == tenantId) = true ↔ a.tenantId = tenantId :=
    fun _ => beq_iff_eq
  rw [ownApplication, ownApplication, hagree.applications.get_filter hown hown]

/-- The roles on an application of the tenant are the tenant's. -/
theorem roleNamed_agree (howned : Owned db.toDirectory) (howned' : Owned db'.toDirectory)
    {applicationId name : String}
    (happ : ownApplication tenantId db.toDirectory applicationId = true) :
    roleNamed db.toDirectory applicationId name = roleNamed db'.toDirectory applicationId name := by
  have hown : ∀ {dir : Directory}, Owned dir → dir.applicationTenant applicationId = some tenantId →
      ∀ r ∈ dir.roles, (r.applicationId == applicationId && r.name == name) = true →
        r.tenantId = tenantId := by
    intro dir howned htenant r hr hp
    have hrole := howned.roles r hr
    rw [beq_iff_eq.mp (Bool.and_eq_true_iff.mp hp).1, htenant] at hrole
    exact (Option.some.inj hrole).symm
  have htenant := isSome_filter_iff.mp happ
  have htenant' := isSome_filter_iff.mp ((ownApplication_agree hagree).symm.trans happ)
  exact hagree.roles.exists?_eq (hown howned htenant) (hown howned' htenant')

theorem scopeUsed_agree {applicationId resource operation : String}
    (happ : ownApplication tenantId db.toDirectory applicationId = true) :
    scopeUsed db.toDirectory applicationId resource operation =
      scopeUsed db'.toDirectory applicationId resource operation := by
  have hown : ∀ {dir : Directory}, dir.applicationTenant applicationId = some tenantId →
      ∀ p ∈ dir.permissions, (p.applicationId == applicationId && p.resource == resource &&
        p.operation == operation) = true →
          dir.applicationTenant p.applicationId = some tenantId := by
    intro dir htenant p _ hp
    rw [Bool.and_eq_true, Bool.and_eq_true, beq_iff_eq] at hp
    rw [hp.1.1]
    exact htenant
  have htenant := isSome_filter_iff.mp happ
  have htenant' := isSome_filter_iff.mp ((ownApplication_agree hagree).symm.trans happ)
  exact hagree.permissions.exists?_eq (hown htenant) (hown htenant')

/-- The table is a function of the tenant's own rows. -/
theorem verdict_agree (howned : Owned db.toDirectory) (howned' : Owned db'.toDirectory)
    {taken : Bool} {c : Creation} :
    c.verdict env tenantId taken db.toDirectory = c.verdict env tenantId taken db'.toDirectory := by
  cases c with
  | user body => simp only [verdict, tenant_agree hagree, emailUsed_agree hagree]
  | group body => simp only [verdict, tenant_agree hagree, groupNamed_agree hagree]
  | role body =>
      cases happ : ownApplication tenantId db.toDirectory body.applicationId with
      | false => simp [verdict, happ, (ownApplication_agree hagree).symm.trans happ]
      | true =>
          simp only [verdict, happ, (ownApplication_agree hagree).symm.trans happ,
            roleNamed_agree hagree howned howned' happ, tenant_agree hagree]
  | permission body =>
      cases happ : ownApplication tenantId db.toDirectory body.applicationId with
      | false => simp [verdict, happ, (ownApplication_agree hagree).symm.trans happ]
      | true =>
          simp only [verdict, happ, (ownApplication_agree hagree).symm.trans happ,
            scopeUsed_agree hagree happ]

end Agreeing

end Creation

/-! ## The calls follow the table -/

section Following

variable {env : Env} {d : Draws} {op : Operator} {t : World}

/-- No row of the table, or no first one. -/
theorem first?_ne_none {ρ κ : Type} {key : ρ → κ} {table : Table ρ key} {p : ρ → Bool} :
    table.first? p ≠ none ↔ table.exists? p = true := by
  rw [Table.exists?_eq_true, Option.ne_none_iff_exists']
  constructor
  · rintro ⟨r, hr⟩
    exact ⟨r, Table.first?_eq_some hr⟩
  · rintro ⟨r, hr, hp⟩
    cases hfound : table.first? p with
    | some s => exact ⟨s, rfl⟩
    | none => exact absurd hp (List.find?_eq_none.mp hfound r hr)

theorem refusal_answer {α : Type} {m : App α} {f : α → Answer} :
    refusal (answer m f) t = refusal m t := refusal_bind_pure m f

theorem refusal_requireTenant_bind {α : Type} {g : Tenant → App α} :
    refusal (requireTenant op.tenantId >>= g) t =
      (t.db.tenants.get op.tenantId).elim (some (.raised ⟨404, "unknown tenant"⟩)) fun tenant =>
        refusal (g tenant) t := by
  simp [requireTenant]

theorem refusal_requireApplication_bind {α : Type} {applicationId : String}
    {g : Application → App α} :
    refusal (requireApplication op.tenantId applicationId >>= g) t =
      ((t.db.applications.get applicationId).filter fun a => a.tenantId == op.tenantId).elim
        (some (.raised ⟨404, "unknown application"⟩)) fun app => refusal (g app) t := by
  simp [requireApplication]

/-- The row just made is there, and the tenant's. -/
theorem refusal_refreshGroup {groupId : String} :
    refusal (refreshGroup op groupId) t =
      ((t.db.groups.get groupId).filter fun g => g.tenantId == op.tenantId).elim
        (some (.raised ⟨404, "unknown group"⟩)) fun _ => none := by
  simp [refreshGroup, requireGroup]

theorem refusal_refreshRole {roleId : String} :
    refusal (refreshRole op roleId) t =
      ((t.db.roles.get roleId).filter fun r => r.tenantId == op.tenantId).elim
        (some (.raised ⟨404, "unknown role"⟩)) fun _ => none := by
  simp [refreshRole, requireRole]

theorem refusal_createGroup {body : CreateGroupRequest} :
    refusal (createGroup d op body) t =
      ((Creation.group body).verdict env op.tenantId
        ((Creation.group body).taken d t.db.toDirectory) t.db.toDirectory).map .raised := by
  simp only [createGroup, onDirectory, refusal_transaction, refusal_read_bind,
    refusal_raiseIf_bind, refusal_onIntegrity_bind, refusal_refreshGroup, first?_ne_none]
  by_cases hid : t.db.groups.get ((nonEmpty body.groupId).getD ("grp_" ++ d.hex12)) = none
  · by_cases hnamed : (t.db.groups.exists? fun g =>
        g.tenantId == op.tenantId && g.name == body.name) = true
    · simp [Creation.verdict, Creation.taken, Creation.groupNamed, hid, hnamed]
    · by_cases htenant : t.db.tenants.get op.tenantId = none
      · simp [Creation.verdict, Creation.taken, Creation.groupNamed, hid, hnamed, htenant,
          DirectoryWrite.violates]
      · simp [Creation.verdict, Creation.taken, Creation.groupNamed, hid, hnamed, htenant,
          DirectoryWrite.violates, DirectoryWrite.effect, Option.filter_some]
  · simp [Creation.verdict, Creation.taken, hid, Option.isSome_iff_ne_none]

theorem refusal_createRole {body : CreateRoleRequest} :
    refusal (createRole d op body) t =
      ((Creation.role body).verdict env op.tenantId ((Creation.role body).taken d t.db.toDirectory)
        t.db.toDirectory).map .raised := by
  simp only [createRole, onDirectory, refusal_transaction, refusal_requireApplication_bind,
    refusal_read_bind, refusal_raiseIf_bind, refusal_onIntegrity_bind, refusal_refreshRole,
    first?_ne_none]
  cases happ : (t.db.applications.get body.applicationId).filter fun a =>
      a.tenantId == op.tenantId with
  | none => simp [Creation.verdict, Creation.ownApplication, happ]
  | some app =>
      have hthere : (t.db.applications.get body.applicationId).isNone = false := by
        rw [(Option.filter_eq_some_iff.mp happ).1]
        rfl
      by_cases hid : t.db.roles.get ((nonEmpty body.roleId).getD ("role_" ++ d.hex12)) = none
      · by_cases hnamed : (t.db.roles.exists? fun r =>
            r.applicationId == body.applicationId && r.name == body.name) = true
        · simp [Creation.verdict, Creation.taken, Creation.ownApplication, Creation.roleNamed, happ,
            hid, hnamed]
        · by_cases htenant : t.db.tenants.get op.tenantId = none
          · simp [Creation.verdict, Creation.taken, Creation.ownApplication, Creation.roleNamed,
              happ, hid, hnamed, htenant, DirectoryWrite.violates]
          · simp [Creation.verdict, Creation.taken, Creation.ownApplication, Creation.roleNamed,
              happ, hid, hnamed, htenant, hthere, DirectoryWrite.violates, DirectoryWrite.effect,
              Option.filter_some]
      · simp [Creation.verdict, Creation.taken, Creation.ownApplication, happ, hid,
          Option.isSome_iff_ne_none]

theorem refusal_createPermission {body : CreatePermissionRequest} :
    refusal (createPermission op body) t =
      ((Creation.permission body).verdict env op.tenantId
        ((Creation.permission body).taken d t.db.toDirectory) t.db.toDirectory).map .raised := by
  simp only [createPermission, onDirectory, refusal_transaction, refusal_requireApplication_bind,
    refusal_read_bind, refusal_raiseIf_bind, refusal_onIntegrity_bind, refusal_pure]
  cases happ : (t.db.applications.get body.applicationId).filter fun a =>
      a.tenantId == op.tenantId with
  | none => simp [Creation.verdict, Creation.ownApplication, happ]
  | some app =>
      have hthere : (t.db.applications.get body.applicationId).isNone = false := by
        rw [(Option.filter_eq_some_iff.mp happ).1]
        rfl
      by_cases hid : t.db.permissions.get
          (permissionId body.applicationId (body.resource, body.operation)) = none
      · by_cases hused : (t.db.permissions.exists? fun p => p.applicationId == body.applicationId &&
            p.resource == body.resource && p.operation == body.operation) = true
        · simp [Creation.verdict, Creation.taken, Creation.ownApplication, Creation.scopeUsed, happ,
            hid, hused, DirectoryWrite.violates]
        · simp [Creation.verdict, Creation.taken, Creation.ownApplication, Creation.scopeUsed, happ,
            hid, hused, hthere, DirectoryWrite.violates]
      · simp [Creation.verdict, Creation.taken, Creation.ownApplication, happ, hid,
          Option.isSome_iff_ne_none]

/-- Nobody is a member of a group before there is such a user. -/
theorem no_membership (howned : Owned t.db.toDirectory) {groupId userId : String}
    (hid : t.db.users.get userId = none) : t.db.groupMemberships.get (groupId, userId) = none := by
  rw [Table.get_eq_none]
  intro m hm hkey
  obtain ⟨tenantId, -, huser⟩ := howned.memberships m hm
  have hsame : m.userId = userId := congrArg Prod.snd hkey
  rw [hsame, Directory.userTenant, hid] at huser
  cases huser

/-- Keeping the admin flag and the group in step cannot be refused for a new user. -/
theorem wp_syncAdminFlag_new {tenant : Tenant} {userId : String} {isAdmin : Bool}
    (hmember : ∀ groupId, t.db.groupMemberships.get (groupId, userId) = none)
    (huser : t.db.users.get userId ≠ none) :
    (syncAdminFlag tenant userId isAdmin).wp (fun _ t' => t'.db.users = t.db.users) (fun _ => False)
      t := by
  simp only [syncAdminFlag, wp_bind, wp_read, wp_ifSome, wp_when, onDirectory, wp_execute,
    violates_directory, hmember]
  refine ⟨fun _ => trivial, fun group hgroup => ⟨fun hjoin => ⟨fun hrefused => ?_, fun _ => ?_⟩,
    fun _ => ⟨fun hleave => absurd rfl hleave.2, fun _ => trivial⟩⟩⟩
  · obtain ⟨groupId, -, hget⟩ := Option.bind_eq_some_iff.mp hgroup
    have hkey : group.groupId = groupId := Table.key_of_get hget
    simp [DirectoryWrite.violates, GroupMembership.key, hmember, hkey, hget, huser] at hrefused
  · simp [hjoin.1, DirectoryWrite.effect]

theorem refusal_createUser {body : CreateUserRequest} (howned : Owned t.db.toDirectory) :
    refusal (createUser env d op body) t =
      ((Creation.user body).verdict env op.tenantId ((Creation.user body).taken d t.db.toDirectory)
        t.db.toDirectory).map .raised := by
  simp only [createUser, onDirectory, refusal_transaction, refusal_requireTenant_bind,
    refusal_read_bind, refusal_raiseIf_bind, refusal_onIntegrity_bind, userByEmail, first?_ne_none]
  cases htenant : t.db.tenants.get op.tenantId with
  | none => simp [Creation.verdict, htenant]
  | some tenant =>
      by_cases hused : (t.db.users.exists? fun u =>
          u.tenantId == op.tenantId && u.email == env.lib.lower (strip body.email)) = true
      · simp [Creation.verdict, Creation.emailUsed, htenant, hused]
      · by_cases hid : t.db.users.get ("usr_" ++ d.hex12) = none
        · rw [Option.elim_some, if_neg hused, if_neg (by
            simp [DirectoryWrite.violates, htenant, hused, hid]), refusal_of_wp]
          · simp [Creation.verdict, Creation.taken, Creation.emailUsed, htenant, hused, hid]
          · refine wp_seq (wp_syncAdminFlag_new (fun groupId => no_membership howned hid) ?_)
              fun _ t' ht' => ?_
            · simp [DirectoryWrite.effect, hid]
            · simp [refreshUser, requireUser, ht', DirectoryWrite.effect, hid]
        · simp [Creation.verdict, Creation.taken, Creation.emailUsed, htenant, hused, hid,
            DirectoryWrite.violates, Option.isSome_iff_ne_none]

theorem refusal_creation {c : Creation} (howned : Owned t.db.toDirectory) :
    refusal (serveAdmin env d op c.call) t =
      (c.verdict env op.tenantId (c.taken d t.db.toDirectory) t.db.toDirectory).map .raised := by
  cases c with
  | user body => exact refusal_answer.trans (refusal_createUser howned)
  | group body => exact refusal_answer.trans refusal_createGroup
  | role body => exact refusal_answer.trans refusal_createRole
  | permission body => exact refusal_answer.trans refusal_createPermission

end Following

/-! ## Two runs -/

/-- Both succeed, or both fail with the same status and detail. -/
def SameFate : Except (Failure HTTPException) Answer → Except (Failure HTTPException) Answer → Prop
  | .ok _, .ok _ => True
  | .error e, .error e' => e = e'
  | _, _ => False

theorem sameFate_iff {r r' : Except (Failure HTTPException) Answer} :
    SameFate r r' ↔ refusalOf r = refusalOf r' := by
  cases r <;> cases r' <;> simp [SameFate, refusalOf]

/-- **Creation probes ids.**  In two states with the same rows of the tenant a call
that makes a row has the same fate exactly if it does not get as far as the id, or
the id is in use in both states or in neither. -/
theorem creation_unprobed_iff {env : Env} {op : Operator} {db db' : Db}
    (howned : Owned db.toDirectory) (howned' : Owned db'.toDirectory)
    (hagree : Agree op.tenantId db db') (c : Creation) (d : Draws) :
    SameFate (Served.answer env ⟨db, .admin op c.call, d⟩)
        (Served.answer env ⟨db', .admin op c.call, d⟩) ↔
      (c.asks env op.tenantId db.toDirectory = true →
        (c.taken d db.toDirectory = true ↔ c.taken d db'.toDirectory = true)) := by
  have hrefusal : ∀ {db : Db}, Owned db.toDirectory →
      refusalOf (Served.answer env ⟨db, .admin op c.call, d⟩) =
        (c.verdict env op.tenantId (c.taken d db.toDirectory) db.toDirectory).map .raised :=
    fun howned => refusal_creation (t := ⟨_, [], []⟩) howned
  have hinjective : Function.Injective (Failure.raised : HTTPException → Failure HTTPException) :=
    fun _ _ heq => Failure.raised.inj heq
  have hdecides : c.verdict env op.tenantId true db.toDirectory =
      c.verdict env op.tenantId false db.toDirectory ↔
        c.asks env op.tenantId db.toDirectory = false := Creation.verdict_taken
  rw [sameFate_iff, hrefusal howned, hrefusal howned',
    ← Creation.verdict_agree hagree howned howned', (Option.map_injective hinjective).eq_iff]
  -- the same bit gives the same row of the table, and two bits give two rows where it is asked
  cases c.taken d db.toDirectory <;> cases c.taken d db'.toDirectory
  · simp
  · rw [eq_comm, hdecides]
    simp
  · rw [hdecides]
    simp
  · simp

/-- A group the tenant makes under an id of its choice. -/
def Creation.groupNamedOurs (groupId : String) : Creation := .group ⟨some groupId, "Ours", ""⟩

theorem creation_unprobed_free :
    SameFate (Served.answer Env.standIn
        ⟨Db.standInRivals, .admin .standIn (Creation.groupNamedOurs "ours").call, .numbered 0⟩)
      (Served.answer Env.standIn
        ⟨Db.standInConsole, .admin .standIn (Creation.groupNamedOurs "ours").call, .numbered 0⟩) :=
  (creation_unprobed_iff owned_standInRivals wellOwned_standInConsole.owned agree_standInRivals
    (.groupNamedOurs "ours") (.numbered 0)).mpr fun _ => by decide +kernel

/-- A group of a rival refuses the id it has. -/
theorem not_creation_unprobed :
    ¬ ∀ (env : Env) (op : Operator) (db db' : Db), Owned db.toDirectory → Owned db'.toDirectory →
      Agree op.tenantId db db' → ∀ (c : Creation) (d : Draws),
        SameFate (Served.answer env ⟨db, .admin op c.call, d⟩)
          (Served.answer env ⟨db', .admin op c.call, d⟩) := by
  intro h
  have hsame := h .standIn .standIn .standInRivals .standInConsole owned_standInRivals
    wellOwned_standInConsole.owned agree_standInRivals (.groupNamedOurs "rivals") (.numbered 0)
  rw [sameFate_iff] at hsame
  revert hsame
  decide +kernel

end RbaIdp
