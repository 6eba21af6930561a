import RbaIdp.PermissionIds
import RbaIdp.Relational.Assignment

/-!
# Operator domains

`_set_domains` looks for a listed domain that is routed elsewhere, deletes the rows of
the tenant and inserts one for every listed domain.  A domain that is listed twice is
inserted twice, and the second row is refused: unlike the creation of a tenant,
`patch_tenant` does not turn that into a conflict (`patchTenant_cases`).

A list is taken as a whole or leaves every domain where it was.  So a domain is routed
to the tenant whose last accepted list has it (`lists_of_run`).
-/

namespace RbaIdp

open Relational Program

variable {env : Env} {d : Draws} {db start : Db} {t : World} {tenantId : String}
  {domains : List String}

/-- The tenant a domain is routed to. -/
def Directory.route (db : Directory) (domain : String) : Option String :=
  (db.tenantDomains.get domain).map TenantDomain.tenantId

/-- A listed domain is routed to another tenant. -/
def Directory.TakenElsewhere (db : Directory) (tenantId : String) (domains : List String) : Prop :=
  ∃ domain ∈ domains, ∃ other, other ≠ tenantId ∧ db.route domain = some other

theorem freeFor_iff {dir : Directory} :
    FreeFor dir.route tenantId domains ↔ ¬ dir.TakenElsewhere tenantId domains := by
  simp only [FreeFor, Directory.TakenElsewhere]
  grind

/-- The answer when a domain is another tenant's. -/
def domainTaken (domain : String) : HTTPException :=
  ⟨409, "domain already registered: " ++ domain⟩

/-! ## `_set_domains` -/

/-- The check of one domain. -/
def checkDomain (tenantId domain : String) : App Unit := do
  let owner ← read fun db => db.tenantDomains.get domain
  raiseIf ((owner.filter fun r => r.tenantId != tenantId).isSome = true) (domainTaken domain)

theorem run_checkDomain {domain : String}
    (h : ∃ other, other ≠ tenantId ∧ t.db.route domain = some other) :
    (checkDomain tenantId domain).run t = (.error (.raised (domainTaken domain)), t) := by
  obtain ⟨other, hne, hroute⟩ := h
  obtain ⟨row, hrow, rfl⟩ := Option.map_eq_some_iff.mp hroute
  rw [checkDomain, run_bind_of_ok (run_read ..)]
  simp [hrow, hne, raiseIf, Option.filter]

theorem run_checkDomain_of_not {domain : String}
    (h : ¬ ∃ other, other ≠ tenantId ∧ t.db.route domain = some other) :
    (checkDomain tenantId domain).run t = (.ok (), t) := by
  rw [checkDomain, run_bind_of_ok (run_read ..)]
  cases hrow : t.db.tenantDomains.get domain with
  | none => rfl
  | some row =>
      have hown : row.tenantId = tenantId := by
        by_contra hne
        exact h ⟨row.tenantId, hne, by simp [Directory.route, hrow]⟩
      simp [hown, raiseIf, Option.filter]

/-- The loop that looks for a domain routed elsewhere finds one, or changes nothing. -/
theorem checkDomains_cases (t : World) (tenantId : String) (domains : List String) :
    (∃ domain ∈ domains, (∃ other, other ≠ tenantId ∧ t.db.route domain = some other) ∧
      (forEach domains (checkDomain tenantId)).run t =
        (.error (.raised (domainTaken domain)), t)) ∨
    (FreeFor t.db.route tenantId domains ∧
      (forEach domains (checkDomain tenantId)).run t = (.ok (), t)) := by
  induction domains with
  | nil => exact Or.inr ⟨by simp [FreeFor], rfl⟩
  | cons domain rest ih =>
      by_cases htaken : ∃ other, other ≠ tenantId ∧ t.db.route domain = some other
      · refine Or.inl ⟨domain, List.mem_cons_self .., htaken, ?_⟩
        rw [forEach, run_bind_of_error (run_checkDomain htaken)]
      · have hrest : (forEach (domain :: rest) (checkDomain tenantId)).run t =
            (forEach rest (checkDomain tenantId)).run t := by
          rw [forEach, run_bind_of_ok (run_checkDomain_of_not htaken)]
        rw [hrest]
        rcases ih with ⟨other, hmem, hother, hrun⟩ | ⟨hfree, hrun⟩
        · exact Or.inl ⟨other, List.mem_cons_of_mem _ hmem, hother, hrun⟩
        · refine Or.inr ⟨fun k hk other hroute => ?_, hrun⟩
          rcases List.mem_cons.mp hk with rfl | hk
          · by_contra hne
            exact htaken ⟨other, hne, hroute⟩
          · exact hfree k hk other hroute

theorem run_onDirectory {w : DirectoryWrite}
    (h : Statement.violates (Write.directory w) t.db = false) :
    (onDirectory w : App Unit).run t = (.ok (), t.exec (.directory w)) := run_execute h

theorem run_onDirectory_refused {w : DirectoryWrite}
    (h : Statement.violates (Write.directory w) t.db = true) :
    (onDirectory w : App Unit).run t = (.error .integrity, t) := run_execute_refused h

/-- The statement for one domain of a list. -/
abbrev insertDomain (tenantId domain : String) : App Unit :=
  onDirectory (.insertTenantDomain ⟨domain, tenantId⟩)

/-- A row for a domain that has none. -/
theorem route_insert {domain : String} (hnone : t.db.route domain = none) :
    (t.exec (.directory (.insertTenantDomain ⟨domain, tenantId⟩))).db.route =
      Function.update t.db.route domain (some tenantId) := by
  have hfree : t.db.tenantDomains.get domain = none := by simpa [Directory.route] using hnone
  funext other
  by_cases hother : domain = other
  · subst hother
    simp [Directory.route, DirectoryWrite.effect, hfree]
  · rw [Function.update_of_ne (Ne.symm hother)]
    simp [Directory.route, DirectoryWrite.effect, hother]

/-- The loop that inserts a row for each domain goes through when every domain is listed
once and none has a row. -/
theorem insertDomains_cases (domains : List String)
    (htenant : (t.db.tenants.get tenantId).isSome) :
    ((domains.Nodup ∧ ∀ domain ∈ domains, t.db.route domain = none) ∧
      ∃ t', (forEach domains (insertDomain tenantId)).run t = (.ok (), t') ∧
        t'.db.tenants = t.db.tenants ∧ t'.db.route =
          fun domain => if domain ∈ domains then some tenantId else t.db.route domain) ∨
    (¬ (domains.Nodup ∧ ∀ domain ∈ domains, t.db.route domain = none) ∧
      ∃ t', (forEach domains (insertDomain tenantId)).run t = (.error .integrity, t')) := by
  induction domains generalizing t with
  | nil => exact Or.inl ⟨by simp, t, rfl, rfl, by simp⟩
  | cons domain rest ih =>
      cases hroute : t.db.route domain with
      | some other =>
          refine Or.inr ⟨fun h => ?_, t, ?_⟩
          · rw [h.2 domain (List.mem_cons_self ..)] at hroute
            cases hroute
          · have htaken : (t.db.tenantDomains.get domain).isSome := by
              obtain ⟨row, hrow, -⟩ := Option.map_eq_some_iff.mp hroute
              simp [hrow]
            have hviolates : Statement.violates
                (Write.directory (.insertTenantDomain ⟨domain, tenantId⟩)) t.db = true := by
              simp [DirectoryWrite.violates, htaken]
            rw [forEach, run_bind_of_error (run_onDirectory_refused hviolates)]
      | none =>
          let mid := t.exec (.directory (.insertTenantDomain ⟨domain, tenantId⟩))
          have hrest : (forEach (domain :: rest) (insertDomain tenantId)).run t =
              (forEach rest (insertDomain tenantId)).run mid := by
            have haccepted : Statement.violates
                (Write.directory (.insertTenantDomain ⟨domain, tenantId⟩)) t.db = false := by
              have hnone : t.db.tenantDomains.get domain = none := by
                simpa [Directory.route] using hroute
              simp [DirectoryWrite.violates, hnone, htenant]
            rw [forEach, run_bind_of_ok (run_onDirectory haccepted)]
          have hmid : mid.db.route = Function.update t.db.route domain (some tenantId) :=
            route_insert hroute
          have hfree : (domain :: rest).Nodup ∧
              (∀ other ∈ domain :: rest, t.db.route other = none) ↔
              rest.Nodup ∧ ∀ other ∈ rest, mid.db.route other = none := by
            rw [hmid, List.nodup_cons, List.forall_mem_cons]
            constructor
            · rintro ⟨⟨hnew, hrest⟩, -, hnone⟩
              refine ⟨hrest, fun other hother => ?_⟩
              rw [Function.update_of_ne (ne_of_mem_of_not_mem hother hnew)]
              exact hnone other hother
            · rintro ⟨hrest, hnone⟩
              have hnew : ∀ other ∈ rest, other ≠ domain := by
                rintro other hother rfl
                simpa using hnone other hother
              refine ⟨⟨fun hmem => hnew domain hmem rfl, hrest⟩, hroute, fun other hother => ?_⟩
              simpa [hnew other hother] using hnone other hother
          rw [hrest, hfree]
          rcases ih (t := mid) htenant with ⟨hfresh, t', hrun, htenants, hafter⟩ | hrefused
          · refine Or.inl ⟨hfresh, t', hrun, htenants, ?_⟩
            rw [hafter, hmid]
            funext other
            by_cases hother : other = domain
            · simp [hother]
            · simp [hother]
          · exact Or.inr hrefused

/-- What comes of a list of domains: one of them is another tenant's, they become the
tenant's, or one of them is there twice. -/
theorem setDomains_cases (domains : List String)
    (htenant : (t.db.tenants.get tenantId).isSome) :
    (∃ domain ∈ domains, (∃ other, other ≠ tenantId ∧ t.db.route domain = some other) ∧
      (setDomains tenantId domains).run t = (.error (.raised (domainTaken domain)), t)) ∨
    (FreeFor t.db.route tenantId domains ∧ domains.Nodup ∧
      ∃ t', (setDomains tenantId domains).run t = (.ok (), t') ∧
        t'.db.tenants = t.db.tenants ∧ t'.db.route = reassign t.db.route tenantId domains) ∨
    (FreeFor t.db.route tenantId domains ∧ ¬ domains.Nodup ∧
      ∃ t', (setDomains tenantId domains).run t = (.error .integrity, t')) := by
  have hset : setDomains tenantId domains = forEach domains (checkDomain tenantId) >>= fun _ =>
      onDirectory (.deleteTenantDomains tenantId) >>= fun _ =>
        forEach domains (insertDomain tenantId) := rfl
  rcases checkDomains_cases t tenantId domains with
    ⟨domain, hmem, helsewhere, hrun⟩ | ⟨hfree, hrun⟩
  · refine Or.inl ⟨domain, hmem, helsewhere, ?_⟩
    rw [hset, run_bind_of_error hrun]
  · refine Or.inr ?_
    let mid := t.exec (.directory (.deleteTenantDomains tenantId))
    have hmid : mid.db.route = fun domain => (t.db.route domain).filter (· ≠ tenantId) := by
      funext domain
      cases hrow : t.db.tenantDomains.get domain with
      | none => simp [mid, Directory.route, DirectoryWrite.effect, hrow]
      | some row =>
          by_cases hown : row.tenantId = tenantId <;>
            simp [mid, Directory.route, DirectoryWrite.effect, hrow, hown, Option.filter_some]
    have hrest : (setDomains tenantId domains).run t =
        (forEach domains (insertDomain tenantId)).run mid := by
      rw [hset, run_bind_of_ok hrun]
      rfl
    have hnone : ∀ domain ∈ domains, mid.db.route domain = none := by
      intro domain hmem
      rw [hmid, Option.filter_eq_none_iff]
      intro other hroute
      simpa using hfree domain hmem other hroute
    rw [hrest]
    rcases insertDomains_cases domains (t := mid) htenant with
      ⟨⟨hnodup, -⟩, t', hrun, htenants, hroute⟩ | ⟨hrepeated, t', hrun⟩
    · refine Or.inl ⟨hfree, hnodup, t', hrun, htenants, ?_⟩
      rw [hroute, hmid]
      rfl
    · exact Or.inr ⟨hfree, fun hnodup => hrepeated ⟨hnodup, hnone⟩, t', hrun⟩

/-! ## `patch_tenant` -/

/-- The statements of an update that may be asked for leave the domains and the tenant alone. -/
theorem run_ifSome_tenant (tenantId : String) {α : Type} {o : Option α} {w : α → DirectoryWrite}
    (haccepted : ∀ a, Statement.violates (Write.directory (w a)) t.db = false)
    (hroute : ∀ a, ((w a).effect t.db.toDirectory).route = t.db.route)
    (htenants : ∀ a, (((w a).effect t.db.toDirectory).tenants.get tenantId).isSome =
      (t.db.tenants.get tenantId).isSome) :
    ∃ t', (ifSome o fun a => onDirectory (w a) : App Unit).run t = (.ok (), t') ∧
      t'.db.route = t.db.route ∧
      (t'.db.tenants.get tenantId).isSome = (t.db.tenants.get tenantId).isSome := by
  cases o with
  | none => exact ⟨t, rfl, rfl, rfl⟩
  | some a => exact ⟨_, run_onDirectory (haccepted a), hroute a, htenants a⟩

theorem run_setTenantName (name : Option String) (htenant : (t.db.tenants.get tenantId).isSome) :
    ∃ t', (ifSome name fun name => onDirectory (.setTenantName tenantId name) : App Unit).run t =
        (.ok (), t') ∧ t'.db.route = t.db.route ∧ (t'.db.tenants.get tenantId).isSome := by
  obtain ⟨t', hrun, hroute, hkept⟩ := run_ifSome_tenant (t := t) tenantId (o := name)
    (w := .setTenantName tenantId) (fun _ => by simpa [DirectoryWrite.violates] using htenant)
    (fun _ => rfl) (fun _ => by simp [DirectoryWrite.effect])
  exact ⟨t', hrun, hroute, hkept.trans htenant⟩

theorem run_setTenantBranding (branding : Option TenantBranding)
    (htenant : (t.db.tenants.get tenantId).isSome) :
    ∃ t', (ifSome branding fun branding =>
          onDirectory (.setTenantBranding tenantId branding) : App Unit).run t = (.ok (), t') ∧
        t'.db.route = t.db.route ∧ (t'.db.tenants.get tenantId).isSome := by
  obtain ⟨t', hrun, hroute, hkept⟩ := run_ifSome_tenant (t := t) tenantId
    (o := branding) (w := .setTenantBranding tenantId)
    (fun _ => by simpa [DirectoryWrite.violates] using htenant) (fun _ => rfl)
    (fun _ => by simp [DirectoryWrite.effect])
  exact ⟨t', hrun, hroute, hkept.trans htenant⟩

theorem run_requireTenant {row : Tenant} (hrow : t.db.tenants.get tenantId = some row) :
    (requireTenant tenantId).run t = (.ok row, t) := by
  rw [requireTenant, run_bind_of_ok (run_read ..), hrow]
  rfl

/-- What comes of a request for a list of domains. -/
theorem patchTenant_cases {body : PatchTenantRequest} (hbody : body.operatorDomains = some domains)
    (htenant : (t.db.tenants.get tenantId).isSome) :
    (∃ domain ∈ domains, (∃ other, other ≠ tenantId ∧ t.db.route domain = some other) ∧
      ((patchTenant tenantId body).run t).1 = .error (.raised (domainTaken domain))) ∨
    (FreeFor t.db.route tenantId domains ∧ domains.Nodup ∧
      ∃ a t', (patchTenant tenantId body).run t = (.ok a, t') ∧
        t'.db.route = reassign t.db.route tenantId domains) ∨
    (FreeFor t.db.route tenantId domains ∧ ¬ domains.Nodup ∧
      ((patchTenant tenantId body).run t).1 = .error .integrity) := by
  obtain ⟨t₁, hname, hroute₁, htenant₁⟩ := run_setTenantName body.name htenant
  rw [← hroute₁]
  obtain ⟨inner, hpatch, hinner⟩ : ∃ inner : App TenantPublic,
      patchTenant tenantId body = transaction inner ∧ inner.run t = (do
        setDomains tenantId domains
        ifSome body.branding fun branding => onDirectory (.setTenantBranding tenantId branding)
        refreshTenant tenantId : App TenantPublic).run t₁ := by
    obtain ⟨row, hrow⟩ := Option.isSome_iff_exists.mp htenant
    refine ⟨_, rfl, ?_⟩
    rw [run_bind_of_ok (run_requireTenant hrow), run_bind_of_ok hname, hbody]
    rfl
  rw [hpatch]
  rcases setDomains_cases domains htenant₁ with
    ⟨domain, hmem, helsewhere, hrun⟩ | ⟨hfree, hnodup, t₂, hrun, htenants, hroute⟩ |
    ⟨hfree, hrepeated, t₂, hrun⟩
  · rw [run_bind_of_error hrun] at hinner
    exact Or.inl ⟨domain, hmem, helsewhere, by rw [run_transaction_error hinner]⟩
  · refine Or.inr (Or.inl ⟨hfree, hnodup, ?_⟩)
    rw [← htenants] at htenant₁
    obtain ⟨t₃, hbranding, hroute₃, htenant₃⟩ :=
      run_setTenantBranding body.branding htenant₁
    obtain ⟨row, hrow⟩ := Option.isSome_iff_exists.mp htenant₃
    rw [run_bind_of_ok hrun, run_bind_of_ok hbranding, refreshTenant,
      run_bind_of_ok (run_requireTenant hrow)] at hinner
    exact ⟨_, t₃, run_transaction_ok hinner, hroute₃.trans hroute⟩
  · rw [run_bind_of_error hrun] at hinner
    exact Or.inr (Or.inr ⟨hfree, hrepeated, by rw [run_transaction_error hinner]⟩)

/-- A tenant whose request for a list is accepted has the domains of the list. -/
theorem wp_patchTenant_route {body : PatchTenantRequest}
    (hbody : body.operatorDomains = some domains) :
    (patchTenant tenantId body).wp (fun _ t' => FreeFor t.db.route tenantId domains ∧
      t'.db.route = reassign t.db.route tenantId domains) (fun _ => True) t := by
  cases htenant : t.db.tenants.get tenantId with
  | none => simp [patchTenant, requireTenant, htenant]
  | some row =>
      refine wp_intro (fun a t' hrun => ?_) fun _ _ _ => trivial
      have hthere : (t.db.tenants.get tenantId).isSome := by rw [htenant]; rfl
      rcases patchTenant_cases hbody hthere with
        ⟨_, -, -, hrefused⟩ | ⟨hfree, -, a', t'', haccepted, hroute⟩ | ⟨-, -, hrefused⟩
      · rw [hrun] at hrefused
        cases hrefused
      · rw [hrun] at haccepted
        cases haccepted
        exact ⟨hfree, hroute⟩
      · rw [hrun] at hrefused
        cases hrefused

/-! ## `create_tenant` -/

/-- The database of both runs is one, and its domains are these. -/
def Undisturbed (rows : Table TenantDomain TenantDomain.domain) (db db' : Db) : Prop :=
  db = db' ∧ db.tenantDomains = rows

variable {rows : Table TenantDomain TenantDomain.domain}

theorem undisturbed_read {α : Type} {f : Db → α} : Keeps (Undisturbed rows) (read f : App α) :=
  keeps_read fun _ _ h => by rw [h.1]

theorem undisturbed_execute {w : Write}
    (hw : ∀ db : Db, (w.effect db).tenantDomains = db.tenantDomains) :
    Keeps (Undisturbed rows) (execute w : App Unit) :=
  keeps_execute fun db _ h => ⟨by rw [h.1], by rw [h.1], (hw db).trans h.2⟩

/-- What leaves the domains alone leaves every domain routed where it was. -/
theorem route_of_undisturbed {α : Type} {m : App α}
    (h : ∀ rows, Keeps (Undisturbed rows) m) (t : World) : (m.run t).2.db.route = t.db.route := by
  have hrows : (m.run t).2.db.tenantDomains = t.db.tenantDomains :=
    ((h t.db.tenantDomains).db
      (show Undisturbed t.db.tenantDomains t.db t.db from ⟨rfl, rfl⟩)).2
  funext domain
  rw [Directory.route, hrows, Directory.route]

theorem undisturbed_bootstrapConsole {row : Tenant} :
    Keeps (Undisturbed rows) (bootstrapConsole d row) := by
  have hpermission : ∀ applicationId spec,
      Keeps (Undisturbed rows) (ensurePermission applicationId spec) := fun _ _ =>
    keeps_bind undisturbed_read fun _ => keeps_when (undisturbed_execute fun _ => rfl)
  have hrolePermission : ∀ roleId applicationId s,
      Keeps (Undisturbed rows) (ensureRolePermission roleId applicationId s) := fun _ _ _ =>
    keeps_bind undisturbed_read fun _ => keeps_when (undisturbed_execute fun _ => rfl)
  have hgroupRole : ∀ groupId roleId,
      Keeps (Undisturbed rows) (ensureGroupRole groupId roleId) := fun _ _ =>
    keeps_bind undisturbed_read fun _ => keeps_when (undisturbed_execute fun _ => rfl)
  simp only [RbaIdp.bootstrapConsole, ensureApplication, ensurePermissions, ensureRole,
    ensureGroup, onDirectory]
  repeat' with_reducible first
    | exact keeps_pure
    | exact undisturbed_read
    | exact hpermission _ _
    | exact hrolePermission _ _ _
    | exact hgroupRole _ _
    | refine undisturbed_execute fun _ => ?_
    | refine keeps_bind ?_ fun _ => ?_
    | refine keeps_when ?_
    | refine keeps_forEach fun _ => ?_
    | split
  all_goals rfl

/-- A tenant that is created has the domains of its list. -/
theorem wp_createTenant_route {body : CreateTenantRequest} :
    (createTenant env d body).wp (fun _ t' =>
        FreeFor t.db.route body.tenantId body.operatorDomains ∧
        t'.db.route = reassign t.db.route body.tenantId body.operatorDomains)
      (fun _ => True) t := by
  let R : World → Prop := fun t' =>
    FreeFor t.db.route body.tenantId body.operatorDomains ∧
      t'.db.route = reassign t.db.route body.tenantId body.operatorDomains
  rw [createTenant]
  refine wp_seq (I := fun _ t' => t'.db = t.db) ?_ ?_
  · simp only [checkTenant, wp_transaction, wp_bind, wp_read, wp_raiseIf]
    refine ⟨fun _ => trivial, fun _ => ?_⟩
    refine wp_forEach (I := fun t' => t'.db = t.db) (fun domain _ t' ht' => ?_) rfl
    rw [wp_bind, wp_read, wp_raiseIf]
    exact ⟨fun _ => trivial, fun _ => ht'⟩
  intro _ t₁ h₁
  simp only [wp_bind, wp_call, wp_raiseIf]
  refine ⟨fun _ => trivial, fun _ => ?_⟩
  rw [insertTenant, wp_transaction, wp_bind, wp_onIntegrity, wp_bind]
  refine wp_onDirectory fun haccepted => ?_
  let t₂ : World :=
    { t₁ with calls := t₁.calls ++ [.putPolicy (starterPolicy body.tenantId) d.policySaved] }
  let t₃ := t₂.exec (.directory (.insertTenant (tenantRow env d body)))
  have hroute : t₃.db.route = t.db.route := by
    rw [← h₁]
    rfl
  have hinserted : (t₃.db.tenants.get body.tenantId).isSome := by
    simp [t₃, DirectoryWrite.effect, tenantRow]
  refine wp_seq (I := fun _ => R) (wp_intro (fun _ t₄ hrun => ?_) fun _ _ _ => trivial)
    fun _ t₄ h₄ => ?_
  · rcases setDomains_cases body.operatorDomains hinserted with
      ⟨domain, -, -, hrefused⟩ | ⟨hfree, -, t', hset, -, hafter⟩ | ⟨-, -, t', hrefused⟩
    · rw [hrefused] at hrun
      cases hrun
    · rw [hset] at hrun
      cases hrun
      rw [hroute] at hfree hafter
      exact ⟨hfree, hafter⟩
    · rw [hrefused] at hrun
      cases hrun
  · refine wp_intro (fun _ t₅ hrun => ?_) fun _ _ _ => trivial
    have hkept : t₅.db.route = t₄.db.route := by
      have hroute := route_of_undisturbed (m := bootstrapConsole d (tenantRow env d body))
        (fun _ => undisturbed_bootstrapConsole) t₄
      rw [hrun] at hroute
      exact hroute
    have h₅ : R t₅ := ⟨h₄.1, hkept.trans h₄.2⟩
    exact wp_refreshTenant h₅

/-! ## Any request -/

/-- The list of domains a call is made with, and the tenant it is for. -/
def AdminCall.listed : AdminCall → Option (String × List String)
  | createTenant body => some (body.tenantId, body.operatorDomains)
  | patchTenant tenantId body => body.operatorDomains.map fun domains => (tenantId, domains)
  | _ => none

def Request.listed : Request → Option (String × List String)
  | admin _ call => call.listed
  | _ => none

/-- A call without a list leaves the domains alone. -/
theorem undisturbed_serveAdmin {op : Operator} {call : AdminCall} (h : call.listed = none) :
    Keeps (Undisturbed rows) (serveAdmin env d op call) := by
  cases call with
  | createTenant body => cases h
  | patchTenant tenantId body =>
      rw [AdminCall.listed, Option.map_eq_none_iff] at h
      have hnone : ∀ f : List String → App Unit, Keeps (Undisturbed rows) (ifSome none f) :=
        fun _ => keeps_pure
      simp only [serveAdmin, answer, patchTenant, requireTenant, refreshTenant, onDirectory, h]
      repeat' with_reducible first
        | exact keeps_pure
        | exact keeps_require
        | exact undisturbed_read
        | exact hnone _
        | refine undisturbed_execute fun _ => ?_
        | refine keeps_transaction ?_
        | refine keeps_bind ?_ fun _ => ?_
        | refine keeps_ifSome fun _ => ?_
      all_goals rfl
  | _ =>
      simp only [serveAdmin, answer, onDirectory, onArtefacts, refreshUser, refreshGroup,
        refreshRole, refreshApplication, syncAdminFlag, requireUser, requireTenant, requireGroup,
        requireRole, requireApplication, currentTenant, listTenants, listUsers, createUser,
        patchUser, issueActivationCode, listApplications, createApplication, patchApplication,
        listGroups, getGroup, createGroup, patchGroup, deleteGroup, addMember, removeMember,
        addGroupRole, removeGroupRole, listRoles, getRole, createRole, patchRole, deleteRole,
        setRolePermissions, listPermissions, createPermission, issueCode]
      repeat' with_reducible first
        | exact keeps_pure
        | exact keeps_require
        | exact keeps_raiseIf
        | exact undisturbed_read
        | refine undisturbed_execute fun _ => ?_
        | refine keeps_transaction ?_
        | refine keeps_onIntegrity ?_
        | refine keeps_bind ?_ fun _ => ?_
        | refine keeps_when ?_
        | refine keeps_ifSome fun _ => ?_
        | refine keeps_forEach fun _ => ?_
      all_goals rfl

/-- A request without a list leaves every domain routed where it was. -/
theorem route_of_unlisted {s : Served} (h : s.request.listed = none) :
    (s.after env).route = s.before.route := by
  cases hrequest : s.request with
  | admin op call =>
      rw [hrequest] at h
      have hkept := route_of_undisturbed (m := serveAdmin env s.draws op call)
        (fun _ => undisturbed_serveAdmin h) ⟨s.before, [], []⟩
      rw [Served.after, Served.outcome, hrequest]
      exact hkept
  | _ =>
      refine (Served.path env s).invariant (I := fun db => db.route = s.before.route)
        (fun db w hdb hallows _ => ?_) rfl
      cases hallows with
      | artefact w => exact hdb
      | lastLogin userId now => exact hdb
      | edit hother => rw [hrequest] at hother; cases hother
      | found hother => rw [hrequest] at hother; cases hother

/-- An accepted list becomes the domains of its tenant, and none was another tenant's. -/
theorem route_of_listed {s : Served} (h : s.request.listed = some (tenantId, domains)) {a : Answer}
    (hok : s.answer env = .ok a) :
    FreeFor s.before.route tenantId domains ∧
      (s.after env).route = reassign s.before.route tenantId domains := by
  have hrun : (serve env s.draws s.request).run ⟨s.before, [], []⟩ = (.ok a, (s.outcome env).2) :=
    Prod.ext hok rfl
  suffices hwp : (serve env s.draws s.request).wp (fun _ t' =>
      FreeFor s.before.route tenantId domains ∧
        t'.db.route = reassign s.before.route tenantId domains) (fun _ => True)
      ⟨s.before, [], []⟩ from wp_of_ok hwp hrun
  cases hrequest : s.request with
  | admin op call =>
      rw [hrequest] at h
      cases call with
      | createTenant body =>
          cases h
          exact wp_answer wp_createTenant_route
      | patchTenant patched body =>
          obtain ⟨listed, hbody, hlist⟩ := Option.map_eq_some_iff.mp h
          cases hlist
          exact wp_answer (wp_patchTenant_route hbody)
      | _ => cases h
  | _ => rw [hrequest] at h; cases h

/-! ## Runs -/

variable (env start) in
/-- The last list of domains accepted for a tenant, which to begin with is what is
routed to it. -/
def lastList : List Served → String → List String
  | [], tenantId =>
      (start.tenantDomains.select fun r => r.tenantId == tenantId).map TenantDomain.domain
  | s :: earlier, tenantId =>
      match s.request.listed with
      | none => lastList earlier tenantId
      | some (listed, domains) =>
          if listed = tenantId ∧ (s.answer env).isOk = true then domains
          else lastList earlier tenantId

/-- A domain is routed to the tenant whose last list has it. -/
theorem lists_of_run {hist : List Served} (run : Run env start hist db) :
    Lists db.route (lastList env start hist) := by
  induction run with
  | nil =>
      intro domain tenantId
      simp only [Directory.route, lastList, List.mem_map, Table.mem_select, beq_iff_eq,
        Option.map_eq_some_iff, Table.get_eq_some]
      grind
  | @cons hist db _ request draws ih =>
      let s : Served := ⟨db, request, draws⟩
      cases hlisted : s.request.listed with
      | none =>
          have hlast : lastList env start (s :: hist) = lastList env start hist := by
            funext tenantId
            rw [lastList, hlisted]
          rw [hlast, route_of_unlisted hlisted]
          exact ih
      | some list =>
          obtain ⟨tenantId, domains⟩ := list
          cases hanswer : s.answer env with
          | error e =>
              have hlast : lastList env start (s :: hist) = lastList env start hist := by
                funext other
                simp [lastList, hlisted, hanswer, Except.isOk, Except.toBool]
              rw [hlast, Served.after_of_error hanswer]
              exact ih
          | ok a =>
              have hlast : lastList env start (s :: hist) =
                  Function.update (lastList env start hist) tenantId domains := by
                funext other
                by_cases hother : tenantId = other
                · subst hother
                  simp [lastList, hlisted, hanswer, Except.isOk, Except.toBool]
                · simp [lastList, hlisted, hother, Function.update_of_ne (Ne.symm hother)]
              obtain ⟨hfree, hroute⟩ := route_of_listed hlisted hanswer
              rw [hlast, hroute]
              exact ih.reassign hfree

/-- The tenant a domain is routed to is there. -/
theorem tenant_of_domain (h : Reachable env db) {row : TenantDomain}
    (hrow : row ∈ db.tenantDomains) : (db.tenants.get row.tenantId).isSome := by
  have hkept : Invariant Write fun db : Db =>
      ∀ row ∈ db.tenantDomains, (db.tenants.get row.tenantId).isSome := by
    intro w db haccepted hdb row hrow
    cases w with
    | artefact w => exact hdb row hrow
    | directory w =>
        cases w with
        | insertTenantDomain inserted =>
            rcases Table.mem_or_eq_of_mem_insert hrow with hold | rfl
            · exact hdb row hold
            · simp only [violates_directory, DirectoryWrite.violates, Bool.or_eq_false_iff,
                Option.isNone_eq_false_iff] at haccepted
              exact tenants_effect haccepted.2
        | deleteTenantDomains tenantId => exact hdb row (Table.mem_erase.mp hrow).1
        | _ => exact tenants_effect (hdb row hrow)
  induction h generalizing row with
  | empty => exact absurd hrow (Table.not_mem_empty _)
  | seed init d ih => exact run_invariant hkept _ (fun row hrow => ih hrow) row hrow
  | request init request d ih => exact run_invariant hkept _ (fun row hrow => ih hrow) row hrow

/-- `tenant_for_operator_email` finds the tenant the domain is routed to. -/
theorem tenantForOperatorEmail_eq_some (h : Reachable env db) {email : String} :
    (tenantForOperatorEmail env db.toDirectory email).map Tenant.tenantId = some tenantId ↔
      emailDomain env email ≠ "" ∧ db.route (emailDomain env email) = some tenantId := by
  unfold tenantForOperatorEmail
  by_cases hdomain : emailDomain env email = ""
  · simp [hdomain]
  · simp only [hdomain, if_false, ne_eq, not_false_eq_true, true_and, Directory.route]
    cases hrow : db.tenantDomains.get (emailDomain env email) with
    | none => simp
    | some row =>
        obtain ⟨tenant, htenant⟩ :=
          Option.isSome_iff_exists.mp (tenant_of_domain h (Table.mem_of_get hrow))
        have hkey : tenant.tenantId = row.tenantId := Table.key_of_get htenant
        simp [htenant, hkey]

variable (env) in
/-- A list of domains is taken: the tenant has these and no others, and other tenants keep
theirs.  Or it is refused, because a domain is another tenant's, and nothing is changed. -/
def Replaced (s : Served) (tenantId : String) (domains : List String) : Prop :=
  ((∃ a, s.answer env = .ok a) ∧
    (∀ domain, (s.after env).route domain = some tenantId ↔ domain ∈ domains) ∧
    ∀ domain other, other ≠ tenantId → s.before.route domain = some other →
      (s.after env).route domain = some other) ∨
  ((∃ domain ∈ domains, (∃ other, other ≠ tenantId ∧ s.before.route domain = some other) ∧
      s.answer env = .error (.raised (domainTaken domain))) ∧
    s.after env = s.before)

/-- A list is taken or refused as a whole exactly when no domain is listed twice, or one is
another tenant's.  A domain that is listed twice fails otherwise. -/
theorem replaced_iff {s : Served} {op : Operator} {body : PatchTenantRequest}
    (hrequest : s.request = .admin op (.patchTenant tenantId body))
    (hbody : body.operatorDomains = some domains)
    (htenant : (s.before.tenants.get tenantId).isSome) :
    Replaced env s tenantId domains ↔
      domains.Nodup ∨ s.before.TakenElsewhere tenantId domains := by
  have hserve : serve env s.draws s.request = answer (patchTenant tenantId body) .tenant := by
    rw [hrequest]
    rfl
  have hrefuse : ∀ e, ((patchTenant tenantId body).run ⟨s.before, [], []⟩).1 = .error e →
      s.answer env = .error e := by
    intro e he
    rw [Served.answer, Served.outcome, hserve, RbaIdp.answer,
      run_bind_of_error (Prod.ext he rfl)]
  rcases patchTenant_cases (t := ⟨s.before, [], []⟩) hbody htenant with
    ⟨domain, hmem, ⟨other, hne, hroute⟩, hrun⟩ | ⟨hfree, hnodup, a, t', hrun, -⟩ |
    ⟨hfree, hrepeated, hrun⟩
  · have htaken : s.before.TakenElsewhere tenantId domains := ⟨domain, hmem, other, hne, hroute⟩
    have hanswer := hrefuse _ hrun
    refine iff_of_true (Or.inr ⟨⟨domain, hmem, ⟨other, hne, hroute⟩, hanswer⟩, ?_⟩) (Or.inr htaken)
    exact Served.after_of_error hanswer
  · have hanswer : s.answer env = .ok (.tenant a) := by
      rw [Served.answer, Served.outcome, hserve, RbaIdp.answer, run_bind_of_ok hrun]
      rfl
    have hlisted : s.request.listed = some (tenantId, domains) := by
      rw [hrequest]
      simp [Request.listed, AdminCall.listed, hbody]
    have hafter : (s.after env).route = reassign s.before.route tenantId domains :=
      (route_of_listed hlisted hanswer).2
    refine iff_of_true (Or.inl ⟨⟨_, hanswer⟩, fun domain => ?_, fun domain other hne h => ?_⟩)
      (Or.inl hnodup)
    · rw [hafter, reassign_self]
    · rw [hafter, reassign_other hfree hne]
      exact h
  · have hanswer := hrefuse _ hrun
    have hnone : ¬ s.before.TakenElsewhere tenantId domains := freeFor_iff.mp hfree
    refine iff_of_false ?_ (not_or.mpr ⟨hrepeated, hnone⟩)
    rintro (⟨⟨a, hok⟩, -⟩ | ⟨⟨domain, -, -, htaken⟩, -⟩)
    · rw [hanswer] at hok
      cases hok
    · rw [hanswer] at htaken
      cases htaken

/-- In every state a list is taken or refused as a whole exactly when no domain is listed twice
or one is another tenant's.  After any run from a reachable state the tenant of an
operator is the one whose last list has the domain of the operator's email. -/
theorem operator_domains_replaced (hstart : Reachable env start) {hist : List Served}
    (run : Run env start hist db) :
    (∀ (s : Served) (op : Operator) (tenantId : String) (body : PatchTenantRequest)
      (domains : List String), s.request = .admin op (.patchTenant tenantId body) →
      body.operatorDomains = some domains → (s.before.tenants.get tenantId).isSome →
      (Replaced env s tenantId domains ↔
        domains.Nodup ∨ s.before.TakenElsewhere tenantId domains)) ∧
    ∀ email tenantId,
      (tenantForOperatorEmail env db.toDirectory email).map Tenant.tenantId = some tenantId ↔
        emailDomain env email ≠ "" ∧ emailDomain env email ∈ lastList env start hist tenantId := by
  have hreachable : Reachable env db := by
    induction run with
    | nil => exact hstart
    | cons _ request d ih => exact .request ih request d
  refine ⟨fun s op tenantId body domains => replaced_iff, fun email tenantId => ?_⟩
  rw [tenantForOperatorEmail_eq_some hreachable, lists_of_run run]

/-! Acme is created with one domain, and moved to another. -/

def acmeMoves : List (Request × Draws) :=
  [(.admin .standIn (.patchTenant "acme" ⟨none, some ["acme.example"], none⟩), .usual 1),
    (.admin .standIn (.createTenant ⟨"acme", "Acme", ["old.example"], none⟩), .usual 0)]

/-- The domain of a request is there twice. -/
def listedTwice : Served where
  before := (play .standIn .empty acmeMoves).2
  request := .admin .standIn (.patchTenant "acme"
    ⟨some "Acme", some ["acme.example", "acme.example"], none⟩)
  draws := .usual 2

theorem operator_domains_replaced_acme :
    ¬ Replaced .standIn listedTwice "acme" ["acme.example", "acme.example"] ∧
    (tenantForOperatorEmail .standIn (play .standIn .empty acmeMoves).2.toDirectory
      "ana@acme.example").map Tenant.tenantId = some "acme" := by
  obtain ⟨hreplaced, htenant⟩ := operator_domains_replaced .empty (run_play acmeMoves)
  refine ⟨fun h => ?_, (htenant _ _).mpr ⟨by decide, by decide +kernel⟩⟩
  rcases (hreplaced listedTwice _ "acme" _ _ rfl rfl (by decide +kernel)).mp h with
    hnodup | ⟨domain, hmem, other, hne, hroute⟩
  · exact absurd hnodup (by decide)
  · have hown : listedTwice.before.route "acme.example" = some "acme" := by decide +kernel
    have hdomain : domain = "acme.example" := by simpa using hmem
    rw [hdomain, hown, Option.some.injEq] at hroute
    exact hne hroute.symm

/-- The request raises what no handler turns into an answer. -/
theorem not_operator_domains_replaced :
    ¬ ∀ (env : Env) (s : Served) (op : Operator) (tenantId : String) (body : PatchTenantRequest)
      (domains : List String), Reachable env s.before →
      s.request = .admin op (.patchTenant tenantId body) → body.operatorDomains = some domains →
      (s.before.tenants.get tenantId).isSome → Replaced env s tenantId domains := by
  intro h
  have hreachable : Reachable .standIn listedTwice.before := .request (.request .empty _ _) _ _
  have hfails : listedTwice.answer .standIn = .error .integrity := by decide +kernel
  rcases h _ listedTwice _ _ _ _ hreachable rfl rfl (by decide +kernel) with
    ⟨⟨a, hok⟩, -⟩ | ⟨⟨domain, -, -, htaken⟩, -⟩
  · rw [hfails] at hok
    cases hok
  · rw [hfails] at htaken
    cases htaken

end RbaIdp
