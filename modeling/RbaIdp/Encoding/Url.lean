import Mathlib.Data.List.DropRight

/-!
# URLs

Taking a URL apart and putting the parts together again.  What is taken apart is first
stripped of spaces and control characters in front and of tabs and line breaks anywhere, and
empty parts leave no mark, so that the text does not come back; the parts do
(`urlsplit_urlunsplit`).  The argument goes through `Canonical`, which collects what the
parts of any URL are like: every part of a URL has it, and no more is needed to find where
one part ends and the next begins.
-/

namespace Encoding.Url

/-- What is particular to the schemes, and the checks of an authority. -/
structure Rules where
  usesNetloc : List Char → Bool
  usesParams : List Char → Bool
  netlocOk : List Char → Bool

structure SplitResult where
  scheme : List Char
  netloc : List Char
  path : List Char
  query : List Char
  fragment : List Char
deriving DecidableEq

structure ParseResult extends SplitResult where
  params : List Char

/-! ## Taking apart -/

/-- `text.split(c, 1)`, with a blank second part when there is no mark -/
def cut (c : Char) (text : List Char) : List Char × List Char :=
  (text.takeWhile (· ≠ c), (text.dropWhile (· ≠ c)).drop 1)

def isBreak (c : Char) : Bool := c == '\t' || c == '\r' || c == '\n'

/-- Without spaces and control characters in front, and without tabs and line breaks. -/
def clean (url : List Char) : List Char :=
  (url.dropWhile fun c => decide (c.toNat ≤ 32)).filter fun c => !isBreak c

def isSchemeChar (c : Char) : Bool := c.isAlphanum || c == '+' || c == '-' || c == '.'

def isScheme : List Char → Bool
  | [] => false
  | c :: rest => c.isAlpha && (c :: rest).all isSchemeChar

/-- A text that begins with a scheme. -/
def Schemed (url : List Char) : Prop := ':' ∈ url ∧ isScheme (cut ':' url).1 = true

instance (url : List Char) : Decidable (Schemed url) := inferInstanceAs (Decidable (_ ∧ _))

def splitScheme (url : List Char) : List Char × List Char :=
  if Schemed url then ((cut ':' url).1.map Char.toLower, (cut ':' url).2) else ([], url)

def isDelimiter (c : Char) : Bool := c == '/' || c == '?' || c == '#'

/-- `_splitnetloc`, after two slashes -/
def splitNetloc : List Char → List Char × List Char
  | '/' :: '/' :: rest =>
      (rest.takeWhile fun c => !isDelimiter c, rest.dropWhile fun c => !isDelimiter c)
  | url => ([], url)

/-- `urlsplit`; `none` stands for its `ValueError`. -/
def urlsplit (R : Rules) (url : List Char) : Option SplitResult :=
  let (scheme, rest) := splitScheme (clean url)
  let (netloc, rest) := splitNetloc rest
  let (rest, fragment) := cut '#' rest
  let (path, query) := cut '?' rest
  if R.netlocOk netloc then some ⟨scheme, netloc, path, query, fragment⟩ else none

/-- `_splitparams`: the parameters of the last segment -/
def splitParams (path : List Char) : List Char × List Char :=
  let segment := cut ';' (path.rtakeWhile (· ≠ '/'))
  (path.rdropWhile (· ≠ '/') ++ segment.1, segment.2)

def parseParams (R : Rules) (parts : SplitResult) : ParseResult :=
  if R.usesParams parts.scheme ∧ ';' ∈ parts.path then
    { parts with path := (splitParams parts.path).1, params := (splitParams parts.path).2 }
  else { parts with params := [] }

/-- `urlparse` -/
def urlparse (R : Rules) (url : List Char) : Option ParseResult :=
  (urlsplit R url).map (parseParams R)

/-! ## Putting together -/

/-- The authority and the path. -/
def location (R : Rules) (parts : SplitResult) : List Char :=
  if parts.netloc ≠ [] then
    '/' :: '/' :: parts.netloc ++
      if parts.path ≠ [] ∧ parts.path.head? ≠ some '/' then '/' :: parts.path else parts.path
  else if ['/', '/'] <+: parts.path then '/' :: '/' :: parts.path
  else if parts.scheme ≠ [] ∧ R.usesNetloc parts.scheme ∧
      (parts.path = [] ∨ parts.path.head? = some '/') then '/' :: '/' :: parts.path
  else parts.path

/-- A part with its mark, unless it is blank. -/
def marked (c : Char) (part : List Char) : List Char := if part = [] then [] else c :: part

/-- `urlunsplit` -/
def urlunsplit (R : Rules) (parts : SplitResult) : List Char :=
  (if parts.scheme = [] then [] else parts.scheme ++ [':']) ++
    (location R parts ++ (marked '?' parts.query ++ marked '#' parts.fragment))

/-- `urlunparse` -/
def urlunparse (R : Rules) (parts : ParseResult) : List Char :=
  urlunsplit R { parts.toSplitResult with path := parts.path ++ marked ';' parts.params }

/-! ## Marks -/

section Marks

variable {c : Char} {l l' : List Char}

theorem cut_append (h : c ∉ l) : cut c (l ++ c :: l') = (l, l') := by
  have hfront : ∀ d ∈ l, decide (d ≠ c) = true := fun d hd =>
    decide_eq_true (ne_of_mem_of_not_mem hd h)
  rw [cut, List.takeWhile_append_of_pos hfront, List.dropWhile_append_of_pos hfront]
  simp

theorem cut_of_not_mem (h : c ∉ l) : cut c l = (l, []) := by
  have hfront : ∀ d ∈ l, decide (d ≠ c) = true := fun d hd =>
    decide_eq_true (ne_of_mem_of_not_mem hd h)
  rw [cut, List.takeWhile_eq_self_iff.mpr hfront, List.dropWhile_eq_nil_iff.mpr hfront]
  rfl

/-- What was marked is cut off. -/
theorem cut_marked (h : c ∉ l) : cut c (l ++ marked c l') = (l, l') := by
  unfold marked
  split
  · next hblank => rw [hblank, List.append_nil, cut_of_not_mem h]
  · exact cut_append h

/-- A text with a mark, or without. -/
theorem cut_cases (c : Char) (l : List Char) : c ∉ (cut c l).1 ∧
    (l = (cut c l).1 ++ c :: (cut c l).2 ∨ c ∉ l ∧ l = (cut c l).1 ∧ (cut c l).2 = []) := by
  by_cases hmem : c ∈ l
  · obtain ⟨front, back, rfl, hfront⟩ := List.eq_append_cons_of_mem hmem
    rw [cut_append hfront]
    exact ⟨hfront, Or.inl rfl⟩
  · rw [cut_of_not_mem hmem]
    exact ⟨hmem, Or.inr ⟨hmem, rfl, rfl⟩⟩

end Marks

/-! ## Schemes and authorities -/

/-- What may follow a path. -/
def Ends (tail : List Char) : Prop := ∀ c ∈ tail.head?, c = '?' ∨ c = '#'

section Finding

variable {scheme netloc path tail rest : List Char}

theorem ends_marked (query fragment : List Char) :
    Ends (marked '?' query ++ marked '#' fragment) := by
  intro c hc
  unfold marked at hc
  split at hc
  · split at hc
    · cases hc
    · exact Or.inr (Option.some.inj hc).symm
  · exact Or.inl (Option.some.inj hc).symm

theorem isSchemeChar_of_mem {c : Char} (h : isScheme scheme = true) (hc : c ∈ scheme) :
    isSchemeChar c = true := by
  cases scheme with
  | nil => cases hc
  | cons d rest =>
      rw [isScheme, Bool.and_eq_true, List.all_eq_true] at h
      exact h.2 c hc

theorem not_mem_scheme {c : Char} (h : isScheme scheme = true) (hc : isSchemeChar c = false) :
    c ∉ scheme := fun hmem => by
  rw [isSchemeChar_of_mem h hmem] at hc
  cases hc

/-- A scheme is found where it was put. -/
theorem splitScheme_append (h : isScheme scheme = true) :
    splitScheme (scheme ++ ':' :: rest) = (scheme.map Char.toLower, rest) := by
  have hcut : cut ':' (scheme ++ ':' :: rest) = (scheme, rest) :=
    cut_append (not_mem_scheme h (by decide))
  have hschemed : Schemed (scheme ++ ':' :: rest) := ⟨by simp, by rw [hcut]; exact h⟩
  rw [splitScheme, if_pos hschemed, hcut]

/-- What follows a path does not make a scheme of it. -/
theorem schemed_append (h : Ends tail) : Schemed (path ++ tail) ↔ Schemed path := by
  by_cases hmem : ':' ∈ path
  · obtain ⟨front, back, rfl, hfront⟩ := List.eq_append_cons_of_mem hmem
    unfold Schemed
    rw [List.append_assoc, List.cons_append, cut_append hfront, cut_append hfront]
    simp
  · refine iff_of_false ?_ fun hpath => hmem hpath.1
    rintro ⟨hcolon, hscheme⟩
    rcases List.mem_append.mp hcolon with hpath | htail
    · exact hmem hpath
    · obtain ⟨front, back, rfl, hfront⟩ := List.eq_append_cons_of_mem htail
      have hboth : ':' ∉ path ++ front := by
        rw [List.mem_append, not_or]
        exact ⟨hmem, hfront⟩
      rw [← List.append_assoc, cut_append hboth] at hscheme
      -- the front of the tail begins with a mark
      cases front with
      | nil =>
          have hcolon' := h ':' rfl
          revert hcolon'
          decide
      | cons c front =>
          refine not_mem_scheme hscheme (c := c) ?_ (by simp)
          rcases h c rfl with rfl | rfl <;> decide

theorem not_schemed_slash : ¬ Schemed ('/' :: rest) := by
  rintro ⟨hmem, hscheme⟩
  have hfront : (cut ':' ('/' :: rest)).1 = '/' :: (cut ':' rest).1 := by simp [cut]
  rw [hfront, isScheme, Bool.and_eq_true] at hscheme
  have halpha := hscheme.1
  revert halpha
  decide

/-- An authority is found where it was put. -/
theorem splitNetloc_append (h : ∀ c ∈ netloc, isDelimiter c = false)
    (hrest : ∀ c ∈ rest.head?, isDelimiter c = true) :
    splitNetloc ('/' :: '/' :: (netloc ++ rest)) = (netloc, rest) := by
  have hnetloc : ∀ c ∈ netloc, (!isDelimiter c) = true := fun c hc => by rw [h c hc]; rfl
  rw [splitNetloc, List.takeWhile_append_of_pos hnetloc, List.dropWhile_append_of_pos hnetloc]
  cases rest with
  | nil => simp
  | cons c rest => simp [hrest c rfl]

theorem splitNetloc_of_not (h : ¬ ['/', '/'] <+: rest) : splitNetloc rest = ([], rest) := by
  unfold splitNetloc
  split
  · next rest' => exact absurd ⟨rest', rfl⟩ h
  · rfl

end Finding

/-! ## Parts that come back -/

/-- What the parts of a URL are like. -/
structure Canonical (parts : SplitResult) : Prop where
  scheme : parts.scheme = [] ∨
    isScheme parts.scheme = true ∧ parts.scheme.map Char.toLower = parts.scheme
  netloc : ∀ c ∈ parts.netloc, isDelimiter c = false
  path : '?' ∉ parts.path ∧ '#' ∉ parts.path
  query : '#' ∉ parts.query
  rooted : parts.netloc ≠ [] → ∀ c ∈ parts.path.head?, c = '/'
  schemeless : parts.scheme = [] → parts.netloc = [] → ¬ Schemed parts.path
  start : parts.scheme = [] → parts.netloc = [] → ∀ c ∈ parts.path.head?, 32 < c.toNat
  breaks : ∀ c, c ∈ parts.scheme ∨ c ∈ parts.netloc ∨ c ∈ parts.path ∨ c ∈ parts.query ∨
    c ∈ parts.fragment → isBreak c = false

variable {R : Rules} {parts : SplitResult}

theorem clean_eq_self {url : List Char} (hstart : ∀ c ∈ url.head?, 32 < c.toNat)
    (hbreaks : ∀ c ∈ url, isBreak c = false) : clean url = url := by
  have hdrop : (url.dropWhile fun c => decide (c.toNat ≤ 32)) = url := by
    cases url with
    | nil => rfl
    | cons c rest =>
        have hc : ¬ c.toNat ≤ 32 := not_le.mpr (hstart c rfl)
        simp [hc]
  rw [clean, hdrop, List.filter_eq_self]
  intro c hc
  rw [hbreaks c hc]
  rfl

/-- Between the scheme and the query: two slashes and an authority, or a path alone. -/
theorem location_cases (h : Canonical parts) :
    (location R parts = '/' :: '/' :: (parts.netloc ++ parts.path) ∧
      ∀ c ∈ parts.path.head?, c = '/') ∨
    (parts.netloc = [] ∧ ¬ ['/', '/'] <+: parts.path ∧ location R parts = parts.path) := by
  by_cases hnetloc : parts.netloc = []
  · unfold location
    rw [if_neg (not_not.mpr hnetloc), hnetloc, List.nil_append]
    split
    · next hslashes =>
      obtain ⟨rest, hpath⟩ := hslashes
      refine Or.inl ⟨rfl, fun c hc => ?_⟩
      rw [← hpath] at hc
      exact (Option.some.inj hc).symm
    · next hslashes =>
      split
      · next hrooted =>
        refine Or.inl ⟨rfl, fun c hc => ?_⟩
        rcases hrooted.2.2 with hblank | hhead
        · rw [hblank] at hc
          cases hc
        · rw [hhead] at hc
          exact (Option.some.inj hc).symm
      · exact Or.inr ⟨rfl, hslashes, rfl⟩
  · have hpath : ¬ (parts.path ≠ [] ∧ parts.path.head? ≠ some '/') := by
      rintro ⟨hne, hhead⟩
      obtain ⟨c, rest, hcons⟩ := List.exists_cons_of_ne_nil hne
      rw [hcons] at hhead
      exact hhead (congrArg some (h.rooted hnetloc c (by rw [hcons]; rfl)))
    refine Or.inl ⟨?_, h.rooted hnetloc⟩
    rw [location, if_pos hnetloc, if_neg hpath]
    rfl

theorem mem_marked {c mark : Char} {part : List Char} (h : c ∈ marked mark part) :
    c = mark ∨ c ∈ part := by
  unfold marked at h
  split at h
  · cases h
  · exact List.mem_cons.mp h

theorem mem_location (h : Canonical parts) {c : Char} (hc : c ∈ location R parts) :
    c = '/' ∨ c ∈ parts.netloc ∨ c ∈ parts.path := by
  rcases location_cases (R := R) h with ⟨hlocation, -⟩ | ⟨-, -, hlocation⟩
  · rw [hlocation] at hc
    simpa only [List.mem_cons, List.mem_append, or_self_left] using hc
  · exact Or.inr (Or.inr (hlocation ▸ hc))

theorem splitNetloc_location (h : Canonical parts) {tail : List Char} (htail : Ends tail) :
    splitNetloc (location R parts ++ tail) = (parts.netloc, parts.path ++ tail) := by
  rcases location_cases (R := R) h with ⟨hlocation, hrooted⟩ | ⟨hnone, hslashes, hlocation⟩
  · rw [hlocation, List.cons_append, List.cons_append, List.append_assoc]
    refine splitNetloc_append h.netloc fun c hc => ?_
    cases hpath : parts.path with
    | nil =>
        rw [hpath, List.nil_append] at hc
        rcases htail c hc with rfl | rfl <;> rfl
    | cons d rest =>
        rw [hpath] at hc
        obtain rfl : d = c := Option.some.inj hc
        rw [hrooted d (by rw [hpath]; rfl)]
        rfl
  · rw [hlocation, hnone, splitNetloc_of_not]
    rintro ⟨rest, hrest⟩
    have hslash : ∀ rest, tail ≠ '/' :: rest := by
      rintro rest rfl
      have hmark := htail '/' rfl
      revert hmark
      decide
    cases hpath : parts.path with
    | nil =>
        rw [hpath] at hrest
        exact hslash _ hrest.symm
    | cons c path =>
        cases path with
        | nil =>
            rw [hpath] at hrest
            exact hslash _ (List.cons.inj hrest).2.symm
        | cons d path =>
            rw [hpath] at hrest hslashes
            obtain ⟨hfirst, hmore⟩ := List.cons.inj hrest
            obtain ⟨hsecond, -⟩ := List.cons.inj hmore
            exact hslashes ⟨path, by rw [← hfirst, ← hsecond]; rfl⟩

theorem lt_toNat_of_isSchemeChar {c : Char} (h : isSchemeChar c = true) : 32 < c.toNat := by
  have hlow : ∀ n ≤ 32, isSchemeChar (Char.ofNat n) = false := by decide
  by_contra hle
  have hc := hlow c.toNat (not_lt.mp hle)
  rw [Char.ofNat_toNat, h] at hc
  cases hc

/-- Nothing is stripped from a text that was put together. -/
theorem clean_urlunsplit (h : Canonical parts) :
    clean (urlunsplit R parts) = urlunsplit R parts := by
  refine clean_eq_self (fun c hc => ?_) fun c hc => ?_
  · unfold urlunsplit at hc
    split at hc
    · next hnone =>
      rw [List.nil_append] at hc
      rcases location_cases (R := R) h with ⟨hlocation, -⟩ | ⟨hnetloc, -, hlocation⟩
      · rw [hlocation] at hc
        obtain rfl : '/' = c := Option.some.inj hc
        decide
      · rw [hlocation] at hc
        cases hpath : parts.path with
        | nil =>
            rw [hpath, List.nil_append] at hc
            rcases ends_marked _ _ c hc with rfl | rfl <;> decide
        | cons d rest =>
            rw [hpath] at hc
            exact h.start hnone hnetloc c (by rw [hpath]; exact hc)
    · next hne =>
      obtain ⟨hscheme, -⟩ := h.scheme.resolve_left hne
      obtain ⟨d, rest, hcons⟩ := List.exists_cons_of_ne_nil hne
      rw [hcons] at hc
      obtain rfl : d = c := Option.some.inj hc
      exact lt_toNat_of_isSchemeChar (isSchemeChar_of_mem hscheme (by rw [hcons]; simp))
  · rw [urlunsplit, List.mem_append, List.mem_append, List.mem_append] at hc
    rcases hc with hc | hc | hc | hc
    · split at hc
      · cases hc
      · rcases List.mem_append.mp hc with hc | hc
        · exact h.breaks c (Or.inl hc)
        · rw [List.mem_singleton.mp hc]
          decide
    · rcases mem_location h hc with rfl | hc | hc
      · decide
      · exact h.breaks c (Or.inr (Or.inl hc))
      · exact h.breaks c (Or.inr (Or.inr (Or.inl hc)))
    · rcases mem_marked hc with rfl | hc
      · decide
      · exact h.breaks c (Or.inr (Or.inr (Or.inr (Or.inl hc))))
    · rcases mem_marked hc with rfl | hc
      · decide
      · exact h.breaks c (Or.inr (Or.inr (Or.inr (Or.inr hc))))

theorem splitScheme_urlunsplit (h : Canonical parts) : splitScheme (urlunsplit R parts) =
    (parts.scheme,
      location R parts ++ (marked '?' parts.query ++ marked '#' parts.fragment)) := by
  unfold urlunsplit
  split
  · next hnone =>
    have hplain : ¬ Schemed (location R parts) := by
      rcases location_cases (R := R) h with ⟨hlocation, -⟩ | ⟨hnetloc, -, hlocation⟩
      · rw [hlocation]
        exact not_schemed_slash
      · rw [hlocation]
        exact h.schemeless hnone hnetloc
    rw [List.nil_append, splitScheme, if_neg (mt (schemed_append (ends_marked _ _)).mp hplain),
      hnone]
  · next hne =>
    obtain ⟨hscheme, hlower⟩ := h.scheme.resolve_left hne
    rw [List.append_assoc, List.singleton_append, splitScheme_append hscheme, hlower]

/-- The parts of a URL come back from the text they are put together to. -/
theorem urlsplit_urlunsplit (h : Canonical parts) (hnetloc : R.netlocOk parts.netloc = true) :
    urlsplit R (urlunsplit R parts) = some parts := by
  have hfragment : cut '#' (parts.path ++ (marked '?' parts.query ++ marked '#' parts.fragment)) =
      (parts.path ++ marked '?' parts.query, parts.fragment) := by
    rw [← List.append_assoc]
    refine cut_marked ?_
    rw [List.mem_append, not_or]
    refine ⟨h.path.2, fun hmem => ?_⟩
    rcases mem_marked hmem with hmark | hquery
    · cases hmark
    · exact h.query hquery
  rw [urlsplit, clean_urlunsplit h, splitScheme_urlunsplit h]
  simp only [splitNetloc_location h (ends_marked _ _), hfragment, cut_marked h.path.1, hnetloc,
    if_true]

/-! ## The parts of a URL -/

section Parts

variable {url scheme : List Char} {c : Char}

theorem isBreak_clean (h : c ∈ clean url) : isBreak c = false := by
  rw [clean, List.mem_filter, Bool.not_eq_true'] at h
  exact h.2

theorem isBreak_of_lt (h : 32 < c.toNat) : isBreak c = false := by
  cases hbreak : isBreak c with
  | false => rfl
  | true =>
      simp only [isBreak, Bool.or_eq_true, beq_iff_eq] at hbreak
      rcases hbreak with (rfl | rfl) | rfl <;> revert h <;> decide

theorem start_clean (h : c ∈ (clean url).head?) : 32 < c.toNat := by
  unfold clean at h
  have hfirst := List.head?_dropWhile_not (fun c => decide (c.toNat ≤ 32)) url
  cases hdrop : url.dropWhile fun c => decide (c.toNat ≤ 32) with
  | nil =>
      rw [hdrop] at h
      cases h
  | cons d rest =>
      rw [hdrop] at h hfirst
      have hd : 32 < d.toNat := not_le.mp (of_decide_eq_false hfirst)
      rw [List.filter_cons_of_pos (by rw [isBreak_of_lt hd]; rfl)] at h
      obtain rfl : d = c := Option.some.inj h
      exact hd

theorem toLower_cases (c : Char) : (65 ≤ c.toNat ∧ c.toNat ≤ 90) ∨ c.toLower = c := by
  unfold Char.toLower
  split
  · next hupper => exact Or.inl hupper
  · exact Or.inr rfl

theorem toLower_schemeChar (h : isSchemeChar c = true) : isSchemeChar c.toLower = true ∧
    c.toLower.toLower = c.toLower ∧ (c.isAlpha = true → c.toLower.isAlpha = true) := by
  have hupper : ∀ n ≤ 90, 65 ≤ n → isSchemeChar (Char.ofNat n).toLower = true ∧
      (Char.ofNat n).toLower.toLower = (Char.ofNat n).toLower ∧
      (Char.ofNat n).toLower.isAlpha = true := by decide
  rcases toLower_cases c with ⟨hlow, hhigh⟩ | hsame
  · obtain ⟨hchar, htwice, halpha⟩ := hupper c.toNat hhigh hlow
    rw [Char.ofNat_toNat] at hchar htwice halpha
    exact ⟨hchar, htwice, fun _ => halpha⟩
  · rw [hsame, hsame]
    exact ⟨h, rfl, id⟩

/-- A scheme in lower case is a scheme. -/
theorem isScheme_lower (h : isScheme scheme = true) :
    isScheme (scheme.map Char.toLower) = true ∧
      (scheme.map Char.toLower).map Char.toLower = scheme.map Char.toLower := by
  have hchars := fun c (hc : c ∈ scheme) => toLower_schemeChar (isSchemeChar_of_mem h hc)
  refine ⟨?_, ?_⟩
  · cases hscheme : scheme with
    | nil =>
        rw [hscheme] at h
        cases h
    | cons d rest =>
        rw [hscheme] at hchars
        rw [hscheme, isScheme, Bool.and_eq_true] at h
        rw [List.map_cons, isScheme, Bool.and_eq_true, List.all_eq_true, ← List.map_cons]
        refine ⟨(hchars d (List.mem_cons_self ..)).2.2 h.1, fun c hc => ?_⟩
        obtain ⟨e, he, rfl⟩ := List.mem_map.mp hc
        exact (hchars e he).1
  · rw [List.map_map]
    exact List.map_congr_left fun c hc => (hchars c hc).2.1

theorem splitScheme_cases (url : List Char) :
    (∃ scheme rest, isScheme scheme = true ∧ url = scheme ++ ':' :: rest ∧
      splitScheme url = (scheme.map Char.toLower, rest)) ∨
    (¬ Schemed url ∧ splitScheme url = ([], url)) := by
  by_cases hschemed : Schemed url
  · obtain ⟨-, hurl | ⟨hnone, -⟩⟩ := cut_cases ':' url
    · exact Or.inl ⟨_, _, hschemed.2, hurl, by rw [splitScheme, if_pos hschemed]⟩
    · exact absurd hschemed.1 hnone
  · exact Or.inr ⟨hschemed, by rw [splitScheme, if_neg hschemed]⟩

theorem splitNetloc_cases (url : List Char) :
    (∃ netloc rest, url = '/' :: '/' :: (netloc ++ rest) ∧
      (∀ c ∈ netloc, isDelimiter c = false) ∧ (∀ c ∈ rest.head?, isDelimiter c = true) ∧
      splitNetloc url = (netloc, rest)) ∨
    (¬ ['/', '/'] <+: url ∧ splitNetloc url = ([], url)) := by
  by_cases hslashes : ['/', '/'] <+: url
  · obtain ⟨rest, rfl⟩ := hslashes
    refine Or.inl ⟨_, _, congrArg ('/' :: '/' :: ·) List.takeWhile_append_dropWhile.symm,
      fun c hc => ?_, fun c hc => ?_, rfl⟩
    · simpa using List.mem_takeWhile_imp hc
    · have hfirst := List.head?_dropWhile_not (fun c => !isDelimiter c) rest
      have hhead : (rest.dropWhile fun c => !isDelimiter c).head? = some c := hc
      rw [hhead] at hfirst
      simpa using hfirst
  · exact Or.inr ⟨hslashes, splitNetloc_of_not hslashes⟩

theorem mem_cut_left {mark : Char} {text : List Char} (h : c ∈ (cut mark text).1) : c ∈ text :=
  (List.takeWhile_sublist _).subset h

theorem mem_cut_right {mark : Char} {text : List Char} (h : c ∈ (cut mark text).2) : c ∈ text :=
  ((List.drop_sublist _ _).trans (List.dropWhile_sublist _)).subset h

theorem exists_cut_append (mark : Char) (text : List Char) :
    ∃ tail, text = (cut mark text).1 ++ tail ∧ ∀ c ∈ tail.head?, c = mark := by
  obtain ⟨-, htext | ⟨-, htext, -⟩⟩ := cut_cases mark text
  · exact ⟨_, htext, fun c hc => (Option.some.inj hc).symm⟩
  · exact ⟨[], by rwa [List.append_nil], by simp⟩

/-- The path, and what follows it. -/
theorem cuts_spec (text : List Char) : ∃ tail, Ends tail ∧
    text = (cut '?' (cut '#' text).1).1 ++ tail ∧
    '?' ∉ (cut '?' (cut '#' text).1).1 ∧ '#' ∉ (cut '?' (cut '#' text).1).1 ∧
    '#' ∉ (cut '?' (cut '#' text).1).2 := by
  have hfree := (cut_cases '#' text).1
  obtain ⟨fragment, htext, hfragment⟩ := exists_cut_append '#' text
  obtain ⟨query, hfront, hquery⟩ := exists_cut_append '?' (cut '#' text).1
  refine ⟨query ++ fragment, fun c hc => ?_, ?_, (cut_cases '?' _).1,
    fun hmem => hfree (mem_cut_left hmem), fun hmem => hfree (mem_cut_right hmem)⟩
  · cases query with
    | nil => exact Or.inr (hfragment c hc)
    | cons d query => exact Or.inl (hquery c hc)
  · rw [← List.append_assoc, ← hfront]
    exact htext

end Parts

/-- What a scheme, if there is one, leaves of a URL. -/
theorem splitScheme_spec (url : List Char) :
    ((splitScheme url).1 = [] ∧ ¬ Schemed url ∧ (splitScheme url).2 = url ∨
      isScheme (splitScheme url).1 = true ∧
        (splitScheme url).1.map Char.toLower = (splitScheme url).1) ∧
    ∀ c ∈ (splitScheme url).2, c ∈ url := by
  rcases splitScheme_cases url with ⟨scheme, rest, hscheme, hurl, hsplit⟩ | ⟨hplain, hsplit⟩
  · rw [hsplit]
    refine ⟨Or.inr (isScheme_lower hscheme), fun c hc => ?_⟩
    rw [hurl]
    exact List.mem_append_right _ (List.mem_cons_of_mem _ hc)
  · rw [hsplit]
    exact ⟨Or.inl ⟨rfl, hplain, rfl⟩, fun c hc => hc⟩

/-- What an authority, if there is one, leaves of a URL. -/
theorem splitNetloc_spec (url : List Char) :
    (∀ c ∈ (splitNetloc url).1, isDelimiter c = false) ∧
    ((∀ c ∈ (splitNetloc url).2.head?, isDelimiter c = true) ∨
      (splitNetloc url).1 = [] ∧ (splitNetloc url).2 = url) ∧
    ∀ c, c ∈ (splitNetloc url).1 ∨ c ∈ (splitNetloc url).2 → c ∈ url := by
  rcases splitNetloc_cases url with ⟨netloc, rest, hurl, hnetloc, hhead, hsplit⟩ | ⟨-, hsplit⟩
  · rw [hsplit]
    refine ⟨hnetloc, Or.inl hhead, fun c hc => ?_⟩
    rw [hurl]
    exact List.mem_cons_of_mem _ (List.mem_cons_of_mem _ (List.mem_append.mpr hc))
  · rw [hsplit]
    exact ⟨by simp, Or.inr ⟨rfl, rfl⟩, fun c hc => hc.resolve_left (by simp)⟩

/-- A path without `?` and `#` that begins at a delimiter begins at a slash. -/
theorem slash_of_delimiter {text path tail : List Char} (hpath : text = path ++ tail)
    (hquestion : '?' ∉ path) (hhash : '#' ∉ path)
    (hdelimiter : ∀ c ∈ text.head?, isDelimiter c = true) : ∀ c ∈ path.head?, c = '/' := by
  intro c hc
  cases path with
  | nil => cases hc
  | cons d path =>
      obtain rfl : d = c := Option.some.inj hc
      have hd := hdelimiter d (by rw [hpath]; rfl)
      simp only [isDelimiter, Bool.or_eq_true, beq_iff_eq] at hd
      rcases hd with (hslash | rfl) | rfl
      · exact hslash
      · exact absurd (List.mem_cons_self ..) hquestion
      · exact absurd (List.mem_cons_self ..) hhash

/-- The parts of any URL come back. -/
theorem canonical_of_urlsplit {url : List Char} (h : urlsplit R url = some parts) :
    Canonical parts ∧ R.netlocOk parts.netloc = true := by
  have hbreaks : ∀ c ∈ clean url, isBreak c = false := fun c => isBreak_clean
  have hstart : ∀ c ∈ (clean url).head?, 32 < c.toNat := fun c => start_clean
  rw [urlsplit] at h
  generalize clean url = url at h hbreaks hstart
  obtain ⟨hscheme, hrest⟩ := splitScheme_spec url
  generalize splitScheme url = first at h hscheme hrest
  obtain ⟨scheme, rest⟩ := first
  obtain ⟨hnetloc, hrooted, htext⟩ := splitNetloc_spec rest
  simp only at h hscheme hrest
  generalize splitNetloc rest = second at h hnetloc hrooted htext
  obtain ⟨netloc, text⟩ := second
  simp only at h hnetloc hrooted htext
  obtain ⟨tail, htail, hpath, hfree⟩ := cuts_spec text
  have hmem : ∀ c, c ∈ (cut '?' (cut '#' text).1).1 ∨ c ∈ (cut '?' (cut '#' text).1).2 ∨
      c ∈ (cut '#' text).2 → c ∈ text := by
    rintro c (hc | hc | hc)
    · exact mem_cut_left (mem_cut_left hc)
    · exact mem_cut_left (mem_cut_right hc)
    · exact mem_cut_right hc
  generalize (cut '?' (cut '#' text).1).1 = path at h hpath hfree hmem
  generalize (cut '?' (cut '#' text).1).2 = query at h hfree hmem
  generalize (cut '#' text).2 = fragment at h hmem
  split at h
  · next hok =>
    cases h
    have hurl : scheme = [] → ¬ Schemed url ∧ rest = url := by
      rintro rfl
      rcases hscheme with ⟨-, hurl⟩ | ⟨hchars, -⟩
      · exact hurl
      · cases hchars
    refine ⟨⟨?_, hnetloc, ⟨hfree.1, hfree.2.1⟩, hfree.2.2, ?_, ?_, ?_, ?_⟩, hok⟩
    · exact hscheme.imp And.left id
    · intro hne
      exact slash_of_delimiter hpath hfree.1 hfree.2.1
        (hrooted.resolve_right fun hnone => hne hnone.1)
    · intro hnone hblank
      obtain ⟨hplain, hrest⟩ := hurl hnone
      rcases hrooted with hdelimiter | ⟨-, hsame⟩
      · cases path with
        | nil => exact fun hschemed => by cases hschemed.1
        | cons c path =>
            rw [slash_of_delimiter hpath hfree.1 hfree.2.1 hdelimiter c rfl]
            exact not_schemed_slash
      · rw [← hrest, ← hsame, hpath] at hplain
        exact mt (schemed_append htail).mpr hplain
    · intro hnone hblank c hc
      obtain ⟨hplain, hrest⟩ := hurl hnone
      rcases hrooted with hdelimiter | ⟨-, hsame⟩
      · rw [slash_of_delimiter hpath hfree.1 hfree.2.1 hdelimiter c hc]
        decide
      · refine hstart c ?_
        rw [← hrest, ← hsame, hpath]
        cases path with
        | nil => cases hc
        | cons d path => exact hc
    · rintro c (hc | hc | hc)
      · rcases hscheme with ⟨hnone, -⟩ | ⟨hchars, -⟩
        · rw [hnone] at hc
          cases hc
        · exact isBreak_of_lt (lt_toNat_of_isSchemeChar (isSchemeChar_of_mem hchars hc))
      · exact hbreaks c (hrest c (htext c (Or.inl hc)))
      · exact hbreaks c (hrest c (htext c (Or.inr (hmem c hc))))
  · cases h

/-! ## Parameters of a path -/

section Params

variable {path dir last : List Char}

/-- The parameters are looked for in the last segment. -/
theorem splitParams_append (hdir : dir = [] ∨ ∃ front, dir = front ++ ['/']) (hlast : '/' ∉ last) :
    splitParams (dir ++ last) = (dir ++ (cut ';' last).1, (cut ';' last).2) := by
  have hsegment : ∀ c ∈ last.reverse, decide (c ≠ '/') = true := fun c hc =>
    decide_eq_true (ne_of_mem_of_not_mem (List.mem_reverse.mp hc) hlast)
  have htake : (dir ++ last).rtakeWhile (· ≠ '/') = last := by
    rw [List.rtakeWhile, List.reverse_append, List.takeWhile_append_of_pos hsegment]
    rcases hdir with rfl | ⟨front, rfl⟩ <;> simp
  have hdrop : (dir ++ last).rdropWhile (· ≠ '/') = dir := by
    rw [List.rdropWhile, List.reverse_append, List.dropWhile_append_of_pos hsegment]
    rcases hdir with rfl | ⟨front, rfl⟩ <;> simp
  rw [splitParams, htake, hdrop]

theorem exists_last_segment (path : List Char) : ∃ dir last, path = dir ++ last ∧
    (dir = [] ∨ ∃ front, dir = front ++ ['/']) ∧ '/' ∉ last := by
  induction path using List.reverseRecOn with
  | nil => exact ⟨[], [], rfl, Or.inl rfl, by simp⟩
  | append_singleton path c ih =>
      by_cases hc : c = '/'
      · subst hc
        exact ⟨path ++ ['/'], [], by simp, Or.inr ⟨path, rfl⟩, by simp⟩
      · obtain ⟨dir, last, rfl, hdir, hlast⟩ := ih
        refine ⟨dir, last ++ [c], by simp, hdir, ?_⟩
        simpa [hlast] using Ne.symm hc

/-- Without a mark there are no parameters. -/
theorem splitParams_of_not_mem (h : ';' ∉ path) : splitParams path = (path, []) := by
  obtain ⟨dir, last, rfl, hdir, hlast⟩ := exists_last_segment path
  have hfree : ';' ∉ last := fun hmem => h (List.mem_append_right _ hmem)
  rw [splitParams_append hdir hlast, cut_of_not_mem hfree]

/-- A path and its parameters put together: the path, or all of it but a mark at the end. -/
theorem joined_params (path : List Char) :
    (splitParams path).1 ++ marked ';' (splitParams path).2 <+: path ∧
      splitParams ((splitParams path).1 ++ marked ';' (splitParams path).2) = splitParams path := by
  obtain ⟨dir, last, rfl, hdir, hlast⟩ := exists_last_segment path
  obtain ⟨hfree, hparts⟩ := cut_cases ';' last
  have hsegment : (cut ';' last).1 ++ marked ';' (cut ';' last).2 <+: last := by
    rcases hparts with hmark | ⟨-, hnone, hblank⟩
    · by_cases hblank : (cut ';' last).2 = []
      · rw [hblank] at hmark ⊢
        exact ⟨[';'], by rw [marked, if_pos rfl, List.append_nil]; exact hmark.symm⟩
      · exact ⟨[], by rw [marked, if_neg hblank, List.append_nil]; exact hmark.symm⟩
    · exact ⟨[], by rw [hblank, marked, if_pos rfl, List.append_nil, List.append_nil, ← hnone]⟩
  rw [splitParams_append hdir hlast]
  simp only [List.append_assoc]
  refine ⟨(List.prefix_append_right_inj dir).mpr hsegment, ?_⟩
  rw [splitParams_append hdir fun hmem => hlast (hsegment.subset hmem), cut_marked hfree]

end Params

theorem parseParams_of_uses (h : R.usesParams parts.scheme = true) : parseParams R parts =
    { parts with path := (splitParams parts.path).1, params := (splitParams parts.path).2 } := by
  unfold parseParams
  split
  · rfl
  · next hfree =>
    rw [splitParams_of_not_mem fun hmem => hfree ⟨h, hmem⟩]

theorem parseParams_of_not (h : ¬ R.usesParams parts.scheme = true) :
    parseParams R parts = { parts with params := [] } := by
  rw [parseParams, if_neg fun huses => h huses.1]

/-- A beginning of the path, and another query. -/
theorem Canonical.replace (h : Canonical parts) {path query : List Char}
    (hpath : path <+: parts.path) (hquery : ∀ c ∈ query, c ≠ '#' ∧ isBreak c = false) :
    Canonical { parts with path, query } := by
  obtain ⟨rest, hrest⟩ := hpath
  have hhead : ∀ c ∈ path.head?, c ∈ parts.path.head? := by
    intro c hc
    cases path with
    | nil => cases hc
    | cons d path =>
        rw [← hrest]
        exact hc
  have hsub : ∀ c ∈ path, c ∈ parts.path := fun c hc => hrest ▸ List.mem_append_left _ hc
  refine ⟨h.scheme, h.netloc, ⟨fun hc => h.path.1 (hsub _ hc), fun hc => h.path.2 (hsub _ hc)⟩,
    fun hc => (hquery _ hc).1 rfl, fun hne c hc => h.rooted hne c (hhead c hc),
    fun hnone hblank => ?_, fun hnone hblank c hc => h.start hnone hblank c (hhead c hc), ?_⟩
  · rintro ⟨hmem, hscheme⟩
    refine h.schemeless hnone hblank ⟨hsub _ hmem, ?_⟩
    obtain ⟨front, back, rfl, hfront⟩ := List.eq_append_cons_of_mem hmem
    rw [cut_append hfront] at hscheme
    rwa [← hrest, List.append_assoc, List.cons_append, cut_append hfront]
  · rintro c (hc | hc | hc | hc | hc)
    · exact h.breaks c (Or.inl hc)
    · exact h.breaks c (Or.inr (Or.inl hc))
    · exact h.breaks c (Or.inr (Or.inr (Or.inl (hsub c hc))))
    · exact (hquery c hc).2
    · exact h.breaks c (Or.inr (Or.inr (Or.inr (Or.inr hc))))

/-- The text of a path with its parameters: a mark with nothing behind it is gone. -/
def joined (parts : ParseResult) : List Char := parts.path ++ marked ';' parts.params

/-- The path ends in the mark of parameters that are not there. -/
def BlankParams (R : Rules) (parts : SplitResult) : Prop :=
  R.usesParams parts.scheme = true ∧ (splitParams parts.path).1 ++ [';'] = parts.path

theorem joined_parseParams : joined (parseParams R parts) <+: parts.path := by
  by_cases huses : R.usesParams parts.scheme = true
  · rw [parseParams_of_uses huses]
    exact (joined_params parts.path).1
  · exact ⟨[], by
      rw [parseParams_of_not huses, joined, marked, if_pos rfl, List.append_nil, List.append_nil]⟩

/-- The path comes back as a text unless its last mark is gone. -/
theorem joined_eq_iff : joined (parseParams R parts) = parts.path ↔ ¬ BlankParams R parts := by
  by_cases huses : R.usesParams parts.scheme = true
  · rw [parseParams_of_uses huses]
    constructor
    · rintro hjoined ⟨-, hblank⟩
      have hmark : marked ';' (splitParams parts.path).2 = [';'] :=
        List.append_cancel_left (hjoined.trans hblank.symm)
      unfold marked at hmark
      split at hmark
      · cases hmark
      · next hne => exact hne (List.cons.inj hmark).2
    · intro hkept
      obtain ⟨dir, last, hpath, hdir, hlast⟩ := exists_last_segment parts.path
      have hsplit := splitParams_append hdir hlast
      rw [← hpath] at hsplit
      obtain ⟨-, hmark | ⟨-, hnone, hblank⟩⟩ := cut_cases ';' last
      · have hparams : (splitParams parts.path).2 ≠ [] := by
          intro hblank
          refine hkept ⟨huses, ?_⟩
          rw [hsplit] at hblank ⊢
          simp only at hblank ⊢
          rw [hblank] at hmark
          rw [List.append_assoc, ← hmark, ← hpath]
        rw [joined, marked, if_neg hparams, hsplit]
        simp only
        rw [List.append_assoc, ← hmark, ← hpath]
      · rw [joined, hsplit]
        simp only
        rw [hblank, marked, if_pos rfl, List.append_nil, ← hnone, ← hpath]
  · rw [parseParams_of_not huses, joined, marked, if_pos rfl, List.append_nil]
    exact iff_of_true rfl fun hblank => huses hblank.1

/-- All parts come back when a URL gets another query. -/
theorem urlsplit_urlunparse {url : List Char} (h : urlsplit R url = some parts)
    {query : List Char} (hquery : ∀ c ∈ query, c ≠ '#' ∧ isBreak c = false) :
    urlsplit R (urlunparse R { parseParams R parts with query }) =
      some { parts with path := joined (parseParams R parts), query } := by
  obtain ⟨hcanonical, hnetloc⟩ := canonical_of_urlsplit h
  have htext : urlunparse R { parseParams R parts with query } =
      urlunsplit R { parts with path := joined (parseParams R parts), query } := by
    by_cases huses : R.usesParams parts.scheme = true
    · rw [parseParams_of_uses huses]
      rfl
    · rw [parseParams_of_not huses]
      rfl
  rw [htext, urlsplit_urlunsplit (hcanonical.replace joined_parseParams hquery) hnetloc]

theorem parseParams_joined (query : List Char) :
    parseParams R { parts with path := joined (parseParams R parts), query } =
      { parseParams R parts with query } := by
  by_cases huses : R.usesParams parts.scheme = true
  · have huses' : ∀ path, R.usesParams { parts with path, query : SplitResult }.scheme = true :=
      fun _ => huses
    rw [parseParams_of_uses huses, parseParams_of_uses (huses' _)]
    simp only [joined, (joined_params parts.path).2]
  · have huses' : ∀ path, ¬ R.usesParams { parts with path, query : SplitResult }.scheme = true :=
      fun _ => huses
    rw [parseParams_of_not huses, parseParams_of_not (huses' _), joined, marked, if_pos rfl,
      List.append_nil]

/-- What is parsed comes back but for the query. -/
theorem urlparse_urlunparse {url : List Char} (h : urlsplit R url = some parts)
    {query : List Char} (hquery : ∀ c ∈ query, c ≠ '#' ∧ isBreak c = false) :
    urlparse R (urlunparse R { parseParams R parts with query }) =
      some { parseParams R parts with query } := by
  rw [urlparse, urlsplit_urlunparse h hquery, Option.map_some, parseParams_joined]

end Encoding.Url
