import Mathlib.Data.List.DropRight
import RbaIdp.Effects.Admin
import RbaIdp.Redirects

/-!
# The edit form of an application

The console's form sends the return URL without the spaces around it, and `null` when
nothing is left of it.  `patch_application` reads `null` as a field that is not sent:
an empty field leaves the redirect as it was (`save_sets_form_iff`).
-/

namespace RbaIdp

open Relational Program

variable {env : Env} {db : Db} {op : Operator} {t' : World}

/-! ## What the form sends -/

/-- What `String.prototype.trim` takes for white space. -/
def isJsSpace (c : Char) : Bool :=
  let n := c.toNat
  (9 ≤ n && n ≤ 13) || n == 32 || n == 0xA0 || n == 0x1680 || (0x2000 ≤ n && n ≤ 0x200A) ||
    n == 0x2028 || n == 0x2029 || n == 0x202F || n == 0x205F || n == 0x3000 || n == 0xFEFF

/-- `String.prototype.trim` -/
def jsTrim (s : String) : String :=
  String.ofList ((s.toList.dropWhile isJsSpace).rdropWhile isJsSpace)

theorem jsTrim_eq_empty {s : String} : jsTrim s = "" ↔ ∀ c ∈ s.toList, isJsSpace c = true := by
  have hempty : jsTrim s = "" ↔ (s.toList.dropWhile isJsSpace).rdropWhile isJsSpace = [] := by
    rw [jsTrim, String.ofList_eq_empty_iff]
  rw [hempty, List.rdropWhile_eq_nil_iff]
  constructor
  · intro h
    have hhead := List.head?_dropWhile_not isJsSpace s.toList
    cases hrest : s.toList.dropWhile isJsSpace with
    | nil => exact List.dropWhile_eq_nil_iff.mp hrest
    | cons c rest =>
        have hspace : isJsSpace c = true := h c (by simp [hrest])
        simp [hrest, hspace] at hhead
  · intro h
    rw [List.dropWhile_eq_nil_iff.mpr h]
    simp

/-- `AppForm`: what is typed into the form. -/
structure AppForm where
  name : String
  redirectUri : String

/-- The return URL the form shows, none if the field is empty. -/
def AppForm.returnUrl (form : AppForm) : Option String := nonEmpty (some (jsTrim form.redirectUri))

/-- The request body for an application there is. -/
def AppForm.edit (form : AppForm) : PatchApplicationRequest where
  name := some form.name
  redirectUri := form.returnUrl

/-- The form shows a return URL unless there is nothing but white space in its field. -/
theorem AppForm.returnUrl_ne_none {form : AppForm} :
    form.returnUrl ≠ none ↔ ∃ c ∈ form.redirectUri.toList, isJsSpace c = false := by
  have hblank : form.returnUrl = none ↔ jsTrim form.redirectUri = "" := by
    simp [returnUrl, nonEmpty, Option.filter_eq_none_iff]
  rw [Ne, hblank, jsTrim_eq_empty]
  simp

/-- What the form sends is not empty. -/
theorem AppForm.nonEmpty_returnUrl {form : AppForm} {url : String}
    (h : form.returnUrl = some url) : nonEmpty (some url) = some url := by
  rw [returnUrl, nonEmpty] at h
  obtain ⟨_, hne⟩ := Option.filter_eq_some_iff.mp h
  simpa [nonEmpty] using hne

/-! ## What is saved -/

/-- What a statement that updates an application leaves of it. -/
theorem get_updateApplication {t : World} {w : DirectoryWrite} {applicationId : String}
    {row : Application} {f : Application → Application}
    {hf : ∀ r, (f r).applicationId = r.applicationId}
    (hw : w.effect t.db.toDirectory = t.db.toDirectory.updateApplication applicationId f hf)
    (hrow : t.db.applications.get applicationId = some row) :
    (t.exec (.directory w)).db.applications.get applicationId = some (f row) := by
  have hkey : row.applicationId = applicationId := Table.key_of_get hrow
  have hexec : (t.exec (.directory w)).db.toDirectory = w.effect t.db.toDirectory := rfl
  rw [hexec, hw]
  simp [hrow, hkey]

/-- A body of a name, and of a URL that is not empty, writes these. -/
theorem wp_patchApplication {applicationId name : String} {url? : Option String}
    {row : Application} (hrow : db.applications.get applicationId = some row)
    (hurl : ∀ url, url? = some url → nonEmpty (some url) = some url) :
    (patchApplication op applicationId { name := some name, redirectUri := url? }).wp
      (fun _ t' => t'.db.applications.get applicationId = some { row with
        name := name
        redirectUri := url?.or row.redirectUri }) (fun _ => True) ⟨db, [], []⟩ := by
  rw [patchApplication, wp_transaction]
  refine wp_seq (I := fun _ t' => t' = ⟨db, [], []⟩)
    (wp_requireApplication (fun _ _ => rfl) trivial) ?_
  rintro _ _ rfl
  refine wp_seq (I := fun _ t' => t' = ⟨db, [], []⟩)
    (wp_requireTenant (fun _ _ => rfl) trivial) ?_
  rintro tenant _ rfl
  rw [wp_bind, wp_raiseIf]
  refine ⟨fun _ => trivial, fun _ => ?_⟩
  refine wp_seq (I := fun _ t' => t'.db.applications.get applicationId =
    some { row with name := name }) (wp_onDirectory fun _ => ?_) fun _ t₁ hnamed => ?_
  · exact get_updateApplication (t := ⟨db, [], []⟩)
      (w := .setApplicationName applicationId name) rfl hrow
  refine wp_seq (I := fun _ t' => t' = t₁) rfl ?_
  rintro _ _ rfl
  refine wp_seq (I := fun _ t' => t'.db.applications.get applicationId = some { row with
    name := name
    redirectUri := url?.or row.redirectUri }) ?_ fun _ t₂ hset => ?_
  · rw [wp_ifSome]
    refine ⟨fun (hnone : url? = none) => ?_,
      fun url (hsome : url? = some url) => wp_onDirectory fun _ => ?_⟩
    · rw [hnone, Option.none_or]
      exact hnamed
    · rw [hsome, Option.some_or, hurl url hsome]
      exact get_updateApplication (w := .setApplicationRedirectUri applicationId (some url))
        rfl hnamed
  refine wp_seq (I := fun _ t' => t' = t₂) rfl ?_
  rintro _ _ rfl
  exact wp_refreshApplication hset

/-- A save writes the name, and the return URL if the form shows one. -/
theorem run_patchApplication {applicationId : String} {form : AppForm} {row : Application}
    {saved : ApplicationPublic} (hrow : db.applications.get applicationId = some row)
    (hrun : (patchApplication op applicationId form.edit).run ⟨db, [], []⟩ = (.ok saved, t')) :
    t'.db.applications.get applicationId =
      some { row with
        name := form.name
        redirectUri := form.returnUrl.or row.redirectUri } := by
  rw [AppForm.edit] at hrun
  exact wp_of_ok (wp_patchApplication hrow fun _ => form.nonEmpty_returnUrl) hrun

/-- A save of the form for an application. -/
structure Save where
  op : Operator
  /-- the database it is saved to -/
  db : Db
  row : Application
  stored : db.applications.get row.applicationId = some row
  form : AppForm
  saved : ApplicationPublic
  answered : ((patchApplication op row.applicationId form.edit).run ⟨db, [], []⟩).1 = .ok saved

namespace Save

variable (s : Save)

/-- The redirect that is stored afterwards. -/
def redirectUri : Option String :=
  (((patchApplication s.op s.row.applicationId s.form.edit).run
    ⟨s.db, [], []⟩).2.db.applications.get s.row.applicationId).bind Application.redirectUri

/-- As long as the redirect stays as it was saved, nobody who signs in to the
application is sent anywhere, and no callback code is issued. -/
def CallsNothing : Prop :=
  ∀ (env : Env) (d : Draws) (request : HttpRequest) (signIn : SignIn) (response : LoginResponse)
    (later : Db) (row : Application) (t' : World),
    signIn.application later = some row → row.applicationId = s.row.applicationId →
    row.redirectUri = s.redirectUri →
    (signIn.post env d request).run ⟨later, [], []⟩ = (.ok response, t') →
    (response.session.isSome → response.redirectTo = none) ∧
      ∀ code, Write.artefact (.insertAuthCode code) ∉ t'.writes

theorem redirectUri_eq : s.redirectUri = s.form.returnUrl.or s.row.redirectUri := by
  rw [redirectUri, run_patchApplication s.stored (Prod.ext s.answered rfl), Option.bind_some]

/-- What calls nothing back is that no redirect is stored. -/
theorem callsNothing_of_none (h : s.redirectUri = none) : s.CallsNothing := by
  intro env d request signIn response later row t' happ _ hkept hrun
  have htarget : signIn.target later = none := by
    rw [SignIn.target, happ, Option.bind_some, hkept, h]
    rfl
  obtain ⟨hredirect, hcodes⟩ := callsBack_of_post hrun
  rw [htarget] at hredirect hcodes
  exact ⟨hredirect, fun code hcode => by cases hcodes code hcode⟩

end Save

/-- A save stores what the form shows, exactly when something is typed as the return URL or
none was stored.  An empty field does not clear a redirect. -/
theorem save_sets_form_iff (s : Save) :
    (s.redirectUri = s.form.returnUrl ∧ (s.form.returnUrl = none → s.CallsNothing)) ↔
      (∃ c ∈ s.form.redirectUri.toList, isJsSpace c = false) ∨ s.row.redirectUri = none := by
  rw [← AppForm.returnUrl_ne_none, s.redirectUri_eq]
  cases hurl : s.form.returnUrl with
  | none =>
      have hstored : s.redirectUri = s.row.redirectUri := by
        rw [s.redirectUri_eq, hurl, Option.none_or]
      simp only [Option.none_or, ne_eq, not_true_eq_false, false_or, forall_const]
      constructor
      · exact fun h => h.1
      · exact fun h => ⟨h, s.callsNothing_of_none (hstored.trans h)⟩
  | some url => simp

/-! The return URL of the portal is emptied. -/

def cleared : Save where
  op := ⟨"usr_ana", "acme", "acme", ∅, false⟩
  db := .standIn
  row := {
    applicationId := "portal"
    clientId := some "rk_portal"
    tenantId := "acme"
    name := "Portal"
    enabled := true
    redirectUri := some "https://portal"
    alwaysPasskey := none
    createdAt := 0 }
  stored := by decide +kernel
  form := ⟨"Portal", ""⟩
  saved := ⟨"acme", "portal", some "rk_portal", "Portal", true, 0, some "https://portal", false⟩
  answered := by decide +kernel

/-- Another return URL is put into the form, with a blank behind it. -/
def moved : Save where
  op := cleared.op
  db := .standIn
  row := cleared.row
  stored := cleared.stored
  form := ⟨"Portal", "https://portal.example "⟩
  saved := { cleared.saved with redirectUri := some "https://portal.example" }
  answered := by decide +kernel

theorem save_sets_form_iff_cleared :
    moved.redirectUri = moved.form.returnUrl ∧
      ¬ (cleared.redirectUri = cleared.form.returnUrl ∧
        (cleared.form.returnUrl = none → cleared.CallsNothing)) := by
  refine ⟨((save_sets_form_iff moved).mpr (Or.inl ?_)).1, fun h => ?_⟩
  · exact ⟨'h', by decide +kernel, by decide⟩
  · rcases (save_sets_form_iff cleared).mp h with ⟨c, hc, -⟩ | hnone
    · cases hc
    · cases hnone

/-- The save succeeds, and the portal keeps its return URL. -/
theorem not_save_sets_form : ¬ ∀ s : Save, s.redirectUri = s.form.returnUrl := by
  intro h
  have hkept : cleared.redirectUri = some "https://portal" := cleared.redirectUri_eq
  rw [h] at hkept
  exact absurd hkept (by decide)

end RbaIdp
