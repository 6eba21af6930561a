import Mathlib.Data.List.Basic
import RbaIdp.Encoding.UriComponent

/-!
# The addresses of the console

`router.ts`: a page of the console, and an item on it, is an address under `/admin/`.  An id
is written with `encodeURIComponent`, so that it is one segment of the path whatever is in
it.  That is not enough for an id of one or two dots: the browser takes such a segment for a
step in the path, and the item, or the page as well, is lost (`address_kept`).

An address a browser shows has no such segments (`shown_pathnameOf`), so what is read from
it leads back to it: `useRoute` replaces an address by one that is read the same way.
-/

namespace RbaIdp

open Encoding.UriComponent

/-! ## The router -/

/-- `Page` -/
inductive ConsolePage where
  | home | events | effectiveness | policy | users | apps | groups | roles | orgs | account
deriving DecidableEq

/-- An entry of `PAGES`: what the router reads of it. -/
structure PageEntry where
  id : ConsolePage
  slug : String

def PAGES : List PageEntry :=
  [⟨.home, "resumen"⟩, ⟨.events, "eventos"⟩, ⟨.effectiveness, "efectividad"⟩,
    ⟨.users, "usuarios"⟩, ⟨.groups, "grupos"⟩, ⟨.roles, "roles"⟩, ⟨.apps, "aplicaciones"⟩,
    ⟨.policy, "politica"⟩, ⟨.orgs, "organizaciones"⟩, ⟨.account, "cuenta"⟩]

def BASE : List Char := "/admin/".toList

def HOME : ConsolePage := .home

/-- `Route` -/
structure ConsoleRoute where
  page : ConsolePage
  id : Option (List Char)
deriving DecidableEq

/-- What a path stands for; none is a `URIError`. -/
def routeFromPath (pathname : List Char) : Option ConsoleRoute :=
  let parts := if BASE.isPrefixOf pathname then (pathname.drop BASE.length).splitOn '/' else []
  let slug := parts.getD 0 []
  let id := parts.getD 1 []
  match PAGES.find? fun item => item.slug.toList == slug with
  | some item =>
      if id = [] then some ⟨item.id, none⟩
      else (decodeURIComponent id).map fun id => ⟨item.id, some id⟩
  | none => some ⟨HOME, none⟩

def slugOf (page : ConsolePage) : List Char :=
  ((PAGES.find? fun item => item.id == page).elim "" PageEntry.slug).toList

def hrefOf (page : ConsolePage) (id : Option (List Char)) : List Char :=
  let base := BASE ++ slugOf page
  match id with
  | some (c :: rest) => base ++ '/' :: encodeURIComponent (c :: rest)
  | _ => base

/-! ## The path of an address -/

/-- A segment that stays where it is. -/
def isSingleDot (segment : List Char) : Bool :=
  [".", "%2e", "%2E"].any fun dot => dot.toList == segment

/-- A segment that goes up. -/
def isDoubleDot (segment : List Char) : Bool :=
  ["..", ".%2e", ".%2E", "%2e.", "%2E.", "%2e%2e", "%2e%2E", "%2E%2e", "%2E%2E"].any
    fun dots => dots.toList == segment

/-- The segments of a path as a URL has them; at the end a dot leaves an empty one. -/
def undot : List (List Char) → List (List Char) → List (List Char)
  | kept, [] => kept
  | kept, segment :: rest =>
      let ending := if rest = [] then [[]] else []
      if isDoubleDot segment then undot (kept.dropLast ++ ending) rest
      else if isSingleDot segment then undot (kept ++ ending) rest
      else undot (kept ++ [segment]) rest

/-- `location.pathname` after going to an address of this origin; the other characters of
`hrefOf` are ones a path leaves as they are. -/
def pathnameOf (href : List Char) : List Char :=
  '/' :: ['/'].intercalate (undot [] ((href.drop 1).splitOn '/'))

/-- A path a browser shows. -/
def Shown (pathname : List Char) : Prop :=
  ∀ segment ∈ pathname.splitOn '/', isSingleDot segment = false ∧ isDoubleDot segment = false

/-! ## Pages -/

theorem slug_facts (page : ConsolePage) : '/' ∉ slugOf page ∧ isSingleDot (slugOf page) = false ∧
    isDoubleDot (slugOf page) = false ∧
    (PAGES.find? fun item => item.slug.toList == slugOf page).map PageEntry.id = some page := by
  cases page <;> decide

/-- An address of segments is read segment by segment. -/
theorem splitOn_segments {segments : List (List Char)} (hne : segments ≠ [])
    (hslash : ∀ segment ∈ segments, '/' ∉ segment) :
    (['/'].intercalate segments).splitOn '/' = segments :=
  List.splitOn_intercalate _ hslash hne

/-- Other segments stay. -/
theorem undot_append {kept segments rest : List (List Char)}
    (hplain : ∀ segment ∈ segments, isSingleDot segment = false ∧ isDoubleDot segment = false) :
    undot kept (segments ++ rest) = undot (kept ++ segments) rest := by
  induction segments generalizing kept with
  | nil => simp
  | cons segment others ih =>
      obtain ⟨hsingle, hdouble⟩ := hplain segment (List.mem_cons_self ..)
      rw [List.cons_append, undot]
      simp only [hsingle, hdouble, Bool.false_eq_true, if_false]
      rw [ih fun s hs => hplain s (List.mem_cons_of_mem _ hs), List.append_assoc,
        List.singleton_append]

theorem base_append (segment : List Char) (rest : List (List Char)) :
    '/' :: ['/'].intercalate ("admin".toList :: segment :: rest) =
      BASE ++ ['/'].intercalate (segment :: rest) := by
  rw [List.intercalate_cons_cons]
  rfl

/-- The path of an address of the console. -/
theorem pathnameOf_segments {page : ConsolePage} {rest : List (List Char)}
    (hslash : ∀ segment ∈ rest, '/' ∉ segment) :
    pathnameOf (BASE ++ ['/'].intercalate (slugOf page :: rest)) =
      '/' :: ['/'].intercalate (undot ["admin".toList, slugOf page] rest) := by
  obtain ⟨hslug, hsingle, hdouble, -⟩ := slug_facts page
  have hhref : (BASE ++ ['/'].intercalate (slugOf page :: rest)).drop 1 =
      ['/'].intercalate ("admin".toList :: slugOf page :: rest) := by
    rw [← base_append]
    rfl
  have hplain : ∀ segment ∈ ["admin".toList, slugOf page],
      isSingleDot segment = false ∧ isDoubleDot segment = false :=
    List.forall_mem_cons.mpr ⟨by decide, List.forall_mem_singleton.mpr ⟨hsingle, hdouble⟩⟩
  have hsegments : ∀ segment ∈ "admin".toList :: slugOf page :: rest, '/' ∉ segment :=
    List.forall_mem_cons.mpr ⟨by decide, List.forall_mem_cons.mpr ⟨hslug, hslash⟩⟩
  have hstay : undot [] (["admin".toList, slugOf page] ++ rest) =
      undot ["admin".toList, slugOf page] rest := undot_append hplain
  rw [pathnameOf, hhref, splitOn_segments (by simp) hsegments]
  exact congrArg (fun segments => '/' :: ['/'].intercalate segments) hstay

/-- What the router reads in the segments of a path. -/
theorem routeFromPath_segments {page : ConsolePage} {rest : List (List Char)}
    (hslash : ∀ segment ∈ rest, '/' ∉ segment) :
    routeFromPath (BASE ++ ['/'].intercalate (slugOf page :: rest)) =
      if rest.getD 0 [] = [] then some ⟨page, none⟩
      else (decodeURIComponent (rest.getD 0 [])).map fun id => ⟨page, some id⟩ := by
  obtain ⟨hslug, -, -, hfind⟩ := slug_facts page
  obtain ⟨item, hitem, rfl⟩ := Option.map_eq_some_iff.mp hfind
  have hprefix : BASE.isPrefixOf (BASE ++ ['/'].intercalate (slugOf item.id :: rest)) = true :=
    List.isPrefixOf_iff_prefix.mpr (List.prefix_append ..)
  have hsplit : (['/'].intercalate (slugOf item.id :: rest)).splitOn '/' = slugOf item.id :: rest :=
    splitOn_segments (by simp) (List.forall_mem_cons.mpr ⟨hslug, hslash⟩)
  simp only [routeFromPath, hprefix, if_true, List.drop_left, hsplit, List.getD_cons_zero,
    List.getD_cons_succ, hitem]

/-- A page without an item is kept. -/
theorem page_kept (page : ConsolePage) :
    routeFromPath (pathnameOf (hrefOf page none)) = some ⟨page, none⟩ := by
  have hhref : hrefOf page none = BASE ++ ['/'].intercalate [slugOf page] := by
    rw [List.intercalate_singleton]
    rfl
  have hpath : pathnameOf (hrefOf page none) = BASE ++ ['/'].intercalate [slugOf page] := by
    rw [hhref, pathnameOf_segments (by simp), undot, base_append]
  rw [hpath, routeFromPath_segments (by simp)]
  rfl

/-! ## Segments of dots -/

theorem decode_of_singleDot {segment : List Char} (h : isSingleDot segment = true) :
    decodeURIComponent segment = some ['.'] := by
  simp only [isSingleDot, List.any_cons, List.any_nil, Bool.or_false, Bool.or_eq_true,
    beq_iff_eq] at h
  rcases h with rfl | rfl | rfl <;> decide

theorem decode_of_doubleDot {segment : List Char} (h : isDoubleDot segment = true) :
    decodeURIComponent segment = some ['.', '.'] := by
  simp only [isDoubleDot, List.any_cons, List.any_nil, Bool.or_false, Bool.or_eq_true,
    beq_iff_eq] at h
  rcases h with rfl | rfl | rfl | rfl | rfl | rfl | rfl | rfl | rfl <;> decide

theorem singleDot_of_decode {segment : List Char} (h : decodeURIComponent segment = some ['.']) :
    isSingleDot segment = true := by
  obtain ⟨rest, hrest, hsegment⟩ := octets_dot (octets_of_decode h)
  obtain rfl : rest = [] := octets_eq_nil hrest
  rcases hsegment with rfl | rfl | rfl <;> decide

theorem doubleDot_of_decode {segment : List Char}
    (h : decodeURIComponent segment = some ['.', '.']) : isDoubleDot segment = true := by
  obtain ⟨second, hsecond, hsegment⟩ := octets_dot (octets_of_decode h)
  obtain ⟨rest, hrest, hsecond⟩ := octets_dot hsecond
  obtain rfl : rest = [] := octets_eq_nil hrest
  rcases hsegment with rfl | rfl | rfl <;> rcases hsecond with rfl | rfl | rfl <;> decide

/-! ## Items -/

/-- What becomes of an item. -/
theorem route_of_item {page : ConsolePage} {id : List Char} (hid : id ≠ []) :
    routeFromPath (pathnameOf (hrefOf page (some id))) =
      if id = ['.', '.'] then some ⟨HOME, none⟩
      else if id = ['.'] then some ⟨page, none⟩ else some ⟨page, some id⟩ := by
  have hslash : ∀ segment ∈ [encodeURIComponent id], '/' ∉ segment :=
    List.forall_mem_singleton.mpr (slash_not_mem id)
  have hread : decodeURIComponent (encodeURIComponent id) = some id :=
    decodeURIComponent_encodeURIComponent id
  have hhref : hrefOf page (some id) =
      BASE ++ ['/'].intercalate [slugOf page, encodeURIComponent id] := by
    cases id with
    | nil => exact absurd rfl hid
    | cons c rest =>
        rw [List.intercalate_cons_cons, List.intercalate_singleton, hrefOf, List.append_assoc,
          List.append_assoc]
        rfl
  have hsingle : isSingleDot (encodeURIComponent id) = true ↔ id = ['.'] := by
    constructor
    · intro h
      exact Option.some.inj (hread.symm.trans (decode_of_singleDot h))
    · intro h
      exact singleDot_of_decode (hread.trans (congrArg some h))
  have hdouble : isDoubleDot (encodeURIComponent id) = true ↔ id = ['.', '.'] := by
    constructor
    · intro h
      exact Option.some.inj (hread.symm.trans (decode_of_doubleDot h))
    · intro h
      exact doubleDot_of_decode (hread.trans (congrArg some h))
  rw [hhref, pathnameOf_segments hslash, undot]
  by_cases hup : id = ['.', '.']
  · -- the page goes with the item
    subst hup
    rfl
  by_cases hhere : id = ['.']
  · subst hhere
    have hdots : isDoubleDot (encodeURIComponent ['.']) = false ∧
        isSingleDot (encodeURIComponent ['.']) = true := by decide
    have hpath : '/' :: ['/'].intercalate (undot (["admin".toList, slugOf page] ++ [[]]) []) =
        BASE ++ ['/'].intercalate [slugOf page, []] := base_append _ _
    simp only [hdots.1, hdots.2, Bool.false_eq_true, if_false, if_true]
    rw [hpath, routeFromPath_segments (by simp)]
    rfl
  · have hnotDouble : isDoubleDot (encodeURIComponent id) = false :=
      Bool.eq_false_iff.mpr fun h => hup (hdouble.mp h)
    have hnotSingle : isSingleDot (encodeURIComponent id) = false :=
      Bool.eq_false_iff.mpr fun h => hhere (hsingle.mp h)
    have hpath : '/' :: ['/'].intercalate
        (undot (["admin".toList, slugOf page] ++ [encodeURIComponent id]) []) =
          BASE ++ ['/'].intercalate [slugOf page, encodeURIComponent id] := base_append _ _
    have hne : encodeURIComponent id ≠ [] := by
      intro hnil
      rw [hnil] at hread
      exact hid (Option.some.inj hread).symm
    simp only [hnotDouble, hnotSingle, hup, hhere, Bool.false_eq_true, if_false]
    rw [hpath, routeFromPath_segments hslash]
    simp only [List.getD_cons_zero, hne, if_false, hread, Option.map_some]

/-- The segments of a path have no slash. -/
theorem slash_not_mem_segment {path : List Char} :
    ∀ segment ∈ path.splitOn '/', '/' ∉ segment := by
  induction path with
  | nil => simp
  | cons c path ih =>
      rw [List.splitOn_cons_eq_if_modifyHead]
      split
      · exact List.forall_mem_cons.mpr ⟨List.not_mem_nil, ih⟩
      · next hc =>
        have hne : '/' ≠ c := by
          rintro rfl
          exact hc (beq_self_eq_true _)
        cases hsplit : path.splitOn '/' with
        | nil => simp
        | cons first others =>
            rw [hsplit] at ih
            obtain ⟨hfirst, hothers⟩ := List.forall_mem_cons.mp ih
            refine List.forall_mem_cons.mpr ⟨?_, hothers⟩
            exact List.not_mem_cons_of_ne_of_not_mem hne hfirst

/-- What is so of the other segments, and of an empty one, is so of what stays. -/
theorem forall_undot {P : List Char → Prop} {kept segments : List (List Char)} (hnil : P [])
    (hkept : ∀ segment ∈ kept, P segment)
    (hsegments : ∀ segment ∈ segments, isSingleDot segment = false →
      isDoubleDot segment = false → P segment) :
    ∀ segment ∈ undot kept segments, P segment := by
  induction segments generalizing kept with
  | nil => exact hkept
  | cons segment rest ih =>
      obtain ⟨hsegment, hrest⟩ := List.forall_mem_cons.mp hsegments
      have hending : ∀ s ∈ (if rest = [] then [[]] else [] : List (List Char)), P s := by
        intro s hs
        split at hs
        · rw [List.mem_singleton] at hs
          rw [hs]
          exact hnil
        · cases hs
      rw [undot]
      split
      · exact ih (List.forall_mem_append.mpr
          ⟨fun s hs => hkept s (List.dropLast_subset _ hs), hending⟩) hrest
      · next hdouble =>
        split
        · exact ih (List.forall_mem_append.mpr ⟨hkept, hending⟩) hrest
        · next hsingle =>
          have hplain : P segment :=
            hsegment (Bool.eq_false_iff.mpr hsingle) (Bool.eq_false_iff.mpr hdouble)
          exact ih (List.forall_mem_append.mpr
            ⟨hkept, List.forall_mem_singleton.mpr hplain⟩) hrest

/-- A browser shows what it has gone to. -/
theorem shown_pathnameOf (href : List Char) : Shown (pathnameOf href) := by
  have hslash : ∀ segment ∈ undot [] ((href.drop 1).splitOn '/'), '/' ∉ segment :=
    forall_undot List.not_mem_nil (by simp) fun segment hsegment _ _ =>
      slash_not_mem_segment segment hsegment
  have hplain : ∀ segment ∈ undot [] ((href.drop 1).splitOn '/'),
      isSingleDot segment = false ∧ isDoubleDot segment = false :=
    forall_undot (by decide) (by simp) fun _ _ hsingle hdouble => ⟨hsingle, hdouble⟩
  have hroot : pathnameOf href =
      [] ++ '/' :: ['/'].intercalate (undot [] ((href.drop 1).splitOn '/')) := rfl
  intro segment hsegment
  rw [hroot, List.splitOn_append_cons_self] at hsegment
  rcases List.mem_append.mp hsegment with hfirst | hsegment
  · obtain rfl : segment = [] := by simpa using hfirst
    decide
  by_cases hnone : undot [] ((href.drop 1).splitOn '/') = []
  · rw [hnone] at hsegment
    obtain rfl : segment = [] := by simpa using hsegment
    decide
  · rw [splitOn_segments hnone hslash] at hsegment
    exact hplain segment hsegment

/-- What is read from an address a browser shows leads back to it. -/
theorem route_settles {pathname : List Char} {route : ConsoleRoute} (hshown : Shown pathname)
    (h : routeFromPath pathname = some route) :
    routeFromPath (pathnameOf (hrefOf route.page route.id)) = some route := by
  by_cases hbase : BASE.isPrefixOf pathname = true
  swap
  · have hhome : routeFromPath pathname = some ⟨HOME, none⟩ := by
      simp only [routeFromPath, hbase, Bool.false_eq_true, if_false]
      rfl
    obtain rfl := Option.some.inj (hhome.symm.trans h)
    exact page_kept HOME
  obtain ⟨path, rfl⟩ := List.isPrefixOf_iff_prefix.mp hbase
  simp only [routeFromPath, hbase, if_true, List.drop_left] at h
  split at h
  · next item hitem =>
    split at h
    · obtain rfl := Option.some.inj h
      exact page_kept item.id
    · next hnonempty =>
      obtain ⟨id, hdecode, rfl⟩ := Option.map_eq_some_iff.mp h
      -- the item is a segment of the path
      have hsegment : (path.splitOn '/').getD 1 [] ∈ (BASE ++ path).splitOn '/' := by
        have hpath : BASE ++ path = "/admin".toList ++ '/' :: path := rfl
        rw [hpath, List.splitOn_append_cons_self]
        refine List.mem_append_right _ ?_
        rw [List.getD_eq_getElem?_getD] at hnonempty ⊢
        cases hget : (path.splitOn '/')[1]? with
        | none =>
            rw [hget] at hnonempty
            exact absurd rfl hnonempty
        | some segment => exact List.mem_of_getElem? hget
      obtain ⟨hsingle, hdouble⟩ := hshown _ hsegment
      have hid : id ≠ [] := by
        rintro rfl
        exact hnonempty (octets_eq_nil (octets_of_decode hdecode))
      rw [route_of_item hid, if_neg, if_neg]
      · rintro rfl
        rw [singleDot_of_decode hdecode] at hsingle
        cases hsingle
      · rintro rfl
        rw [doubleDot_of_decode hdecode] at hdouble
        cases hdouble
  · obtain rfl := Option.some.inj h
    exact page_kept HOME

/-- **An address is kept.**  The address of a page, and of an item on it, leads back to the
page and the item, exactly when the id is something and is not one dot or two.  What is read
wherever the browser has gone leads back there. -/
theorem address_kept :
    (∀ page, routeFromPath (pathnameOf (hrefOf page none)) = some ⟨page, none⟩) ∧
    (∀ page id, routeFromPath (pathnameOf (hrefOf page (some id))) = some ⟨page, some id⟩ ↔
      id ≠ [] ∧ id ≠ ['.'] ∧ id ≠ ['.', '.']) ∧
    ∀ href route, routeFromPath (pathnameOf href) = some route →
      routeFromPath (pathnameOf (hrefOf route.page route.id)) = some route := by
  refine ⟨page_kept, fun page id => ?_, fun href _ => route_settles (shown_pathnameOf href)⟩
  by_cases hid : id = []
  · subst hid
    have hpage : routeFromPath (pathnameOf (hrefOf page (some []))) = some ⟨page, none⟩ :=
      page_kept page
    simp [hpage]
  · rw [route_of_item hid]
    split_ifs with hup hhere
    · simp [hup]
    · simp [hhere]
    · simp [hid, hup, hhere]

example : routeFromPath (pathnameOf (hrefOf .apps (some ['.', '.']))) = some ⟨.home, none⟩ := by
  decide

end RbaIdp
