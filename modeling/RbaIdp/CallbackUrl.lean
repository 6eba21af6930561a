import RbaIdp.Contracts
import RbaIdp.Encoding.Dict
import RbaIdp.Encoding.Query
import RbaIdp.Environment

/-!
# The URL of a callback

`append_query` decodes the query of a registered URI into a dictionary, adds the code and
encodes the dictionary.  Everything but the query comes back (`urlparse_callback`).  The
query comes back as far as the dictionary kept it (`keepsQuery_iff`): a name that occurs
twice has one entry, in the place of the first and with the value of the last.
-/

namespace RbaIdp

open Encoding Url Query

/-- `append_query`; `none` stands for the `ValueError` of a URI that cannot be parsed. -/
def appendQuery (R : Rules) (uri : String) (params : List (String × String)) : Option String := do
  let parts ← urlparse R uri.toList
  let query := Dict.update (Dict.ofItems (parseQsl parts.query))
    (params.map fun param => (param.1.toList, param.2.toList))
  return String.ofList (urlunparse R { parts with query := urlencode query })

/-- The URL a browser is sent to. -/
def Callback.url (R : Rules) (callback : Callback) : Option String :=
  appendQuery R callback.target [("code", callback.code)]

variable {R : Rules} {u : String} {parts : SplitResult} {code : String}

/-- `urlparse` takes the URI apart. -/
def Parses (R : Rules) (uri : String) : Prop := (urlparse R uri.toList).isSome = true

instance (R : Rules) (uri : String) : Decidable (Parses R uri) :=
  inferInstanceAs (Decidable (_ = true))

/-- A callback needs a URI that parses, and no more. -/
theorem isNone_url {callback : Callback} :
    (callback.url R).isNone = true ↔ ¬ Parses R callback.target := by
  rw [Callback.url, appendQuery, Parses]
  cases urlparse R callback.target.toList <;> simp

/-! ## What comes back -/

/-- The names and values in a query. -/
abbrev decoded (parts : SplitResult) : List (List Char × List Char) := parseQsl parts.query

/-- No name of the query is that of the code. -/
def NoCode (parts : SplitResult) : Prop := "code".toList ∉ (decoded parts).map Prod.fst

/-- The query of a callback. -/
def callbackQuery (parts : SplitResult) (code : String) : List (List Char × List Char) :=
  Dict.ofItems (decoded parts) ++ [("code".toList, code.toList)]

theorem update_code (h : NoCode parts) :
    Dict.update (Dict.ofItems (decoded parts)) [("code".toList, code.toList)] =
      callbackQuery parts code :=
  Dict.setItem_new (mt Dict.mem_keys_ofItems.mp h)

/-- An encoded query ends no part of a URL, and nothing is stripped from it. -/
theorem urlencode_harmless {pairs : List (List Char × List Char)} :
    ∀ c ∈ urlencode pairs, c ≠ '#' ∧ isBreak c = false := by
  intro c hc
  rcases mem_urlencode hc with hplain | rfl | rfl
  · have hrange := hplain.toNat
    exact ⟨hplain.ne (by decide), isBreak_of_lt (by omega)⟩
  · decide
  · decide

theorem query_parseParams : (parseParams R parts).query = parts.query := by
  unfold parseParams
  split <;> rfl

/-- Everything but the query comes back. -/
theorem split_callback (h : urlsplit R u.toList = some parts) (hcode : NoCode parts)
    (code : String) :
    ∃ url, Callback.url R ⟨u, code⟩ = some url ∧
      urlparse R url.toList = some { parseParams R parts with
        query := urlencode (callbackQuery parts code) } ∧
      urlsplit R url.toList = some { parts with
        path := joined (parseParams R parts)
        query := urlencode (callbackQuery parts code) } := by
  refine ⟨String.ofList (urlunparse R
    { parseParams R parts with query := urlencode (callbackQuery parts code) }), ?_, ?_, ?_⟩
  · rw [Callback.url, appendQuery, urlparse, h, ← update_code hcode, decoded,
      ← query_parseParams (R := R)]
    rfl
  · rw [String.toList_ofList, urlparse_urlunparse h urlencode_harmless]
  · rw [String.toList_ofList, urlsplit_urlunparse h urlencode_harmless]

/-- The callback has the parts of the URI, as they are parsed, and its query with the code
behind it. -/
def KeepsUri (R : Rules) (u : String) (parts : SplitResult) (code : String) : Prop :=
  ∃ url parts', Callback.url R ⟨u, code⟩ = some url ∧ urlparse R url.toList = some parts' ∧
    parts'.scheme = parts.scheme ∧ parts'.netloc = parts.netloc ∧
    parts'.path = (parseParams R parts).path ∧ parts'.params = (parseParams R parts).params ∧
    parts'.fragment = parts.fragment ∧
    decoded parts'.toSplitResult = decoded parts ++ [("code".toList, code.toList)]

/-- The callback has the text of the path. -/
def KeepsPathText (R : Rules) (u : String) (parts : SplitResult) (code : String) : Prop :=
  ∃ url parts', Callback.url R ⟨u, code⟩ = some url ∧ urlsplit R url.toList = some parts' ∧
    parts'.path = parts.path

theorem keepsUri_iff (h : urlsplit R u.toList = some parts) (hcode : NoCode parts) :
    KeepsUri R u parts code ↔ ((decoded parts).map Prod.fst).Nodup := by
  obtain ⟨url, hurl, hparse, -⟩ := split_callback h hcode code
  have hquery : parseQsl (urlencode (callbackQuery parts code)) = callbackQuery parts code :=
    parseQsl_urlencode _
  rw [← Dict.ofItems_eq_self_iff]
  constructor
  · rintro ⟨url', parts', hurl', hparse', -, -, -, -, -, hdecoded⟩
    rw [hurl, Option.some.injEq] at hurl'
    rw [← hurl', hparse, Option.some.injEq] at hparse'
    rw [← hparse', decoded, hquery] at hdecoded
    exact List.append_cancel_right hdecoded
  · intro hkept
    have hparts : (parseParams R parts).scheme = parts.scheme ∧
        (parseParams R parts).netloc = parts.netloc ∧
        (parseParams R parts).fragment = parts.fragment := by
      unfold parseParams
      split <;> exact ⟨rfl, rfl, rfl⟩
    refine ⟨url, _, hurl, hparse, hparts.1, hparts.2.1, rfl, rfl, hparts.2.2, ?_⟩
    rw [decoded, hquery, callbackQuery, hkept]

theorem keepsPathText_iff (h : urlsplit R u.toList = some parts) (hcode : NoCode parts) :
    KeepsPathText R u parts code ↔ ¬ BlankParams R parts := by
  obtain ⟨url, hurl, -, hsplit⟩ := split_callback h hcode code
  rw [← joined_eq_iff]
  constructor
  · rintro ⟨url', parts', hurl', hsplit', hpath⟩
    rw [hurl, Option.some.injEq] at hurl'
    rw [← hurl', hsplit, Option.some.injEq] at hsplit'
    rw [← hpath, ← hsplit']
  · intro hkept
    exact ⟨url, _, hurl, hsplit, hkept⟩

/-- **A callback is the registered URI with one code, unless a parameter is repeated.**  For
any URI that parses and has no parameter named `code`: the callback has its scheme, host,
path, parameters and fragment, and its query with the code behind it, exactly when no name
of the query occurs twice.  The text of the path is the same, too, exactly when it does
not end in a `;` with nothing behind it. -/
theorem callback_keeps_uri_iff (h : urlsplit R u.toList = some parts) (hcode : NoCode parts)
    (code : String) :
    (KeepsUri R u parts code ↔ ((decoded parts).map Prod.fst).Nodup) ∧
    (KeepsUri R u parts code ∧ KeepsPathText R u parts code ↔
      ((decoded parts).map Prod.fst).Nodup ∧ ¬ BlankParams R parts) :=
  ⟨keepsUri_iff h hcode, and_congr (keepsUri_iff h hcode) (keepsPathText_iff h hcode)⟩

/-- A blank value, an escape and a fragment. -/
theorem callback_keeps_uri_iff_portal :
    KeepsUri standInRules "https://portal.example/cb?lang=&next=%2Fa+b#top"
      ⟨"https".toList, "portal.example".toList, "/cb".toList, "lang=&next=%2Fa+b".toList,
        "top".toList⟩ "k9" :=
  (callback_keeps_uri_iff (by decide +kernel) (by unfold NoCode; decide +kernel) "k9").1.mpr
    (by decide +kernel)

/-- Of two tags the last one is left. -/
theorem not_callback_keeps_uri :
    ¬ ∀ (R : Rules) (u code : String) (parts : SplitResult), urlsplit R u.toList = some parts →
      NoCode parts → KeepsUri R u parts code := by
  intro h
  let parts : SplitResult := ⟨"https".toList, "portal.example".toList, "/cb".toList,
    "tag=a&tag=b".toList, []⟩
  have hsplit : urlsplit standInRules "https://portal.example/cb?tag=a&tag=b".toList =
      some parts := by decide +kernel
  have hcode : NoCode parts := by
    unfold NoCode
    decide +kernel
  have hnodup := (keepsUri_iff hsplit hcode).mp (h standInRules _ "k9" parts hsplit hcode)
  revert hnodup
  decide +kernel

end RbaIdp
