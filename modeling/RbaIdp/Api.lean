import RbaIdp.Authorization

/-!
# The HTTP API

`main.py`.  A request of the admin API comes with two headers and no operator:
every route first asks `authorize` for one, with the permission of the route, and
only then calls the service.  The two are transactions of their own.

`ApiRun` is any number of such requests, with any headers, among the requests of
the other endpoints.  `api_refines` reads it as a run of the service whose
operators `authorize` has made, so that what holds of the runs of the service
holds here, and no operator has to be taken on trust.
-/

namespace RbaIdp

open Relational Program

/-- The permission a route asks for. -/
def AdminCall.needs : AdminCall → Scope
  | currentTenant => ADMIN_READ
  | listTenants => TENANTS_READ
  | createTenant _ | patchTenant _ _ => TENANTS_WRITE
  | listUsers | listApplications | listGroups | getGroup _ | listRoles _ | getRole _
  | listPermissions _ => ADMIN_READ
  | createUser _ | patchUser _ _ | issueActivationCode _ | createApplication _
  | patchApplication _ _ | createGroup _ | patchGroup _ _ | deleteGroup _ | addMember _ _
  | removeMember _ _ | addGroupRole _ _ | removeGroupRole _ _ | createRole _ | patchRole _ _
  | deleteRole _ | setRolePermissions _ _ | createPermission _ => ADMIN_WRITE

/-- The routes under `/admin/api/tenants`, which no tenant header reaches. -/
def AdminCall.ofPlatform : AdminCall → Bool
  | listTenants | createTenant _ | patchTenant _ _ => true
  | _ => false

/-- The operator a request of the service is made by. -/
def Request.operator : Request → Option Operator
  | admin op _ => some op
  | _ => none

/-- A request as a client sends it. -/
inductive ApiRequest where
  | endpoint (request : {request : Request // request.operator = none})
  | admin (authorization actingTenant : Option String) (call : AdminCall)

variable (env : Env) (d : Draws)

/-- `_op`, and the guard of the platform's routes. -/
def operatorFor (authorization actingTenant : Option String) (call : AdminCall) : App Operator :=
  if call.ofPlatform then authorizePlatform env d authorization call.needs
  else authorize env d authorization actingTenant call.needs

def serveApi : ApiRequest → App Answer
  | .endpoint request => serve env d request
  | .admin authorization actingTenant call => do
      let op ← operatorFor env d authorization actingTenant call
      serveAdmin env d op call

/-! ## One request -/

/-- A request of the API answered from a committed state. -/
structure ApiServed where
  before : Db
  request : ApiRequest
  draws : Draws

namespace ApiServed

variable (m : ApiServed)

def outcome : Except (Failure HTTPException) Answer × World :=
  (serveApi env m.draws m.request).run ⟨m.before, [], []⟩

def answer : Except (Failure HTTPException) Answer := (m.outcome env).1

def after : Db := (m.outcome env).2.db

end ApiServed

variable {env d}

/-- Who `authorize` has let through a route. -/
structure LetsThrough (env : Env) (db : Db) (now : Time) (authorization : Option String)
    (call : AdminCall) (row : IdpSession) (user : User) (home : Tenant) (op : Operator) :
    Prop where
  authorized : Authorized env db now authorization call.needs row user home op
  platform : call.ofPlatform = true → op.isPlatformOperator = true

theorem wp_operatorFor {authorization actingTenant : Option String} {call : AdminCall}
    {Q : Operator → World → Prop} {E : World → Prop} {t : World}
    (hok : ∀ row user home op, LetsThrough env t.db d.now authorization call row user home op →
      Q op t)
    (herror : ∀ t' : World, E t') :
    (operatorFor env d authorization actingTenant call).wp Q E t := by
  unfold operatorFor
  split
  · next hplatform =>
    rw [authorizePlatform, wp_bind]
    refine wp_authorize (fun row user home op hauthorized => ?_) herror
    simp only [wp_bind, wp_raiseIf, wp_pure]
    refine ⟨fun _ => herror _, fun hop => ?_⟩
    exact hok row user home op ⟨hauthorized, fun _ => by simpa using hop⟩
  · next hplatform =>
    exact wp_authorize (fun row user home op hauthorized =>
      hok row user home op ⟨hauthorized, fun h => absurd h hplatform⟩) herror

/-- Nothing is written on the way. -/
theorem operatorFor_reads (env : Env) (d : Draws) (authorization actingTenant : Option String)
    (call : AdminCall) (t : World) :
    (operatorFor env d authorization actingTenant call).wp (fun _ t' => t' = t)
      (fun t' => t' = t) t := by
  have hauthorize : ∀ (acting : Option String) {Q : Operator → World → Prop}, (∀ op, Q op t) →
      (authorize env d authorization acting call.needs).wp Q (fun t' => t' = t) t := by
    intro acting Q hQ
    rw [authorize, wp_bind]
    refine wp_loadSession (fun row user hbearer => ?_) rfl
    simp [resolveTenant, requireTenant, hQ]
  unfold operatorFor
  split
  · rw [authorizePlatform, wp_bind]
    exact hauthorize none fun op => by simp
  · exact hauthorize actingTenant fun op => rfl

/-- The request of the service a request of the API comes down to. -/
inductive Reaches (env : Env) (m : ApiServed) : Served → Prop where
  | endpoint {request : {request : Request // request.operator = none}}
      (request_eq : m.request = .endpoint request) :
      Reaches env m ⟨m.before, request, m.draws⟩
  | admin {authorization actingTenant : Option String} {call : AdminCall} {row : IdpSession}
      {user : User} {home : Tenant} {op : Operator}
      (request_eq : m.request = .admin authorization actingTenant call)
      (through : LetsThrough env m.before m.draws.now authorization call row user home op) :
      Reaches env m ⟨m.before, .admin op call, m.draws⟩

/-- **One request.**  A request of the API is answered as the service answers the
request it comes down to; or no operator was found, it is refused, and the state is
as it was. -/
theorem ApiServed.reaches (m : ApiServed) :
    (∃ s, Reaches env m s ∧ m.outcome env = s.outcome env) ∨
      m.after env = m.before ∧ ∃ e, m.answer env = .error e := by
  obtain ⟨db, request, d⟩ := m
  cases request with
  | endpoint request => exact Or.inl ⟨_, .endpoint rfl, rfl⟩
  | admin authorization actingTenant call =>
      have hreads := operatorFor_reads env d authorization actingTenant call ⟨db, [], []⟩
      rcases hrun : (operatorFor env d authorization actingTenant call).run ⟨db, [], []⟩ with
        ⟨e | op, t'⟩
      · right
        have hsame : t' = ⟨db, [], []⟩ :=
          wp_of_error (E := fun t' => t' = ⟨db, [], []⟩) hreads hrun
        have houtcome : ApiServed.outcome env ⟨db, .admin authorization actingTenant call, d⟩ =
            (.error e, t') := run_bind_of_error hrun
        simp [ApiServed.after, ApiServed.answer, houtcome, hsame]
      · left
        have hsame : t' = ⟨db, [], []⟩ :=
          wp_of_ok (Q := fun _ t' => t' = ⟨db, [], []⟩) hreads hrun
        obtain ⟨row, user, home, hthrough⟩ : ∃ row user home,
            LetsThrough env db d.now authorization call row user home op :=
          wp_of_ok (wp_operatorFor (Q := fun op _ => ∃ row user home,
            LetsThrough env db d.now authorization call row user home op)
            (fun row user home _ h => ⟨row, user, home, h⟩) (E := fun _ => True)
            fun _ => trivial) hrun
        refine ⟨_, .admin rfl hthrough, ?_⟩
        show (operatorFor env d authorization actingTenant call >>= _).run _ = _
        rw [run_bind_of_ok hrun, hsame]
        rfl

/-! ## Any number of requests -/

/-- From `start`, the requests of a history (latest first), one at a time, lead
to a state. -/
inductive ApiRun (env : Env) (start : Db) : List ApiServed → Db → Prop where
  | nil : ApiRun env start [] start
  | cons {hist : List ApiServed} {db : Db} (init : ApiRun env start hist db)
      (request : ApiRequest) (draws : Draws) :
      ApiRun env start (⟨db, request, draws⟩ :: hist)
        (ApiServed.after env ⟨db, request, draws⟩)

/-- A run of the API is a run of the service by operators that were let through. -/
theorem api_refines {start db : Db} {hist : List ApiServed} (run : ApiRun env start hist db) :
    ∃ served, Run env start served db ∧ ∀ s ∈ served, ∃ m ∈ hist, Reaches env m s := by
  induction run with
  | nil => exact ⟨[], .nil, by simp⟩
  | @cons hist db init request draws ih =>
      obtain ⟨served, hrun, hreaches⟩ := ih
      have hearlier : ∀ s ∈ served, ∃ m ∈ ⟨db, request, draws⟩ :: hist, Reaches env m s := by
        intro s hs
        obtain ⟨m, hm, hreach⟩ := hreaches s hs
        exact ⟨m, List.mem_cons_of_mem _ hm, hreach⟩
      rcases ApiServed.reaches ⟨db, request, draws⟩ with
        ⟨s, hreach, houtcome⟩ | ⟨hsame, -⟩
      · refine ⟨s :: served, ?_, List.forall_mem_cons.mpr
          ⟨⟨_, List.mem_cons_self .., hreach⟩, hearlier⟩⟩
        rw [ApiServed.after, houtcome]
        cases hreach with
        | endpoint => exact hrun.cons _ _
        | admin => exact hrun.cons _ _
      · rw [hsame]
        exact ⟨served, hrun, hearlier⟩

end RbaIdp
