import HttpCatch.Library.UrlEncoded

/-!
# URL references

Two sides of a redirect. `httpRedirect` is the text that Go's `http.Redirect` sends for a target
that starts with a slash: when `url.Parse` takes it, its path goes through `path.Clean`. What a
browser makes of the text, on a page of an `http` or `https` origin, is `refHost`: it drops the
blanks around the text and the tabs and line ends in it, takes a backslash for a slash, and reads
an authority after two of them (WHATWG URL standard). The host parser, with its domain names and
addresses, is a parameter.

* `refHost_httpRedirect` — the host that a browser goes to for the target of a redirect.
-/

namespace HttpCatch.Url

open HttpCatch.Go

/-! ### The text of a redirect -/

/-- `unescape` finds no fault: two digits follow each percent sign. -/
def escapesOk : GoString → Bool
  | [] => true
  | b :: s => (b != 0x25 || ((s.take 2).length == 2 && (s.take 2).all isHexDigit)) && escapesOk s

/-- A byte that `url.Parse` refuses outside the fragment. -/
def isControl (b : UInt8) : Bool := b < 0x20 || b == 0x7F

/-- Whether `url.Parse` takes a text that starts with a single slash. -/
def urlParses (s : GoString) : Bool :=
  !(before s 0x23).any isControl && escapesOk (before (before s 0x23) 0x3F) &&
    escapesOk (afterByte s 0x23)

/-- The elements that `path.Clean` keeps of a rooted path; those kept so far, last first. -/
def cleanElems : List GoString → List GoString → List GoString
  | kept, [] => kept.reverse
  | kept, e :: es =>
    if e = [] ∨ e = str "." then cleanElems kept es
    else if e = str ".." then cleanElems kept.tail es
    else cleanElems (e :: kept) es

/-- `path.Clean` for a path that starts with a slash. -/
def pathClean (path : GoString) : GoString := 0x2F :: join (cleanElems [] (split path 0x2F)) 0x2F

/-- A digit as `strconv` writes it in base 16. -/
def lowerHex (n : UInt8) : UInt8 := if n < 10 then 0x30 + n else 0x61 + (n - 10)

/-- `hexEscapeNonASCII`. -/
def hexEscapeNonASCII (s : GoString) : GoString :=
  s.flatMap fun b => if b < 0x80 then [b] else [0x25, lowerHex (b / 16), lowerHex (b % 16)]

/-- The target as `http.Redirect` cleans it. -/
def cleanTarget (url : GoString) : GoString :=
  let path := before url 0x3F
  let query := url.drop path.length
  let cleaned := pathClean path
  cleaned ++ (if hasSuffix path (str "/") && !hasSuffix cleaned (str "/") then str "/" else []) ++
    query

/-- The `Location` that `http.Redirect` sends for a target that starts with a single slash. -/
def httpRedirect (url : GoString) : GoString :=
  hexEscapeNonASCII (if urlParses url then cleanTarget url else url)

/-! ### What a browser reads -/

/-- A slash, or the backslash that is read as one. -/
def isSlash (b : UInt8) : Bool := b == 0x2F || b == 0x5C

/-- A C0 control or a space; both ends of a reference are stripped of them. -/
def isEdge (b : UInt8) : Bool := b ≤ 0x20

/-- A tab or a line end; they are removed wherever they stand. -/
def isBreak (b : UInt8) : Bool := b == 0x09 || b == 0x0A || b == 0x0D

/-- The text that is parsed. -/
def normalize (s : GoString) : GoString :=
  ((s.dropWhile isEdge).rdropWhile isEdge).filter (!isBreak ·)

/-- A letter. -/
def isAlpha (b : UInt8) : Bool := (0x41 ≤ b && b ≤ 0x5A) || (0x61 ≤ b && b ≤ 0x7A)

/-- A byte of a scheme after its first letter. -/
def isSchemeByte (b : UInt8) : Bool :=
  isAlpha b || (0x30 ≤ b && b ≤ 0x39) || b == 0x2B || b == 0x2D || b == 0x2E

/-- Whether a text starts with a scheme of its own. -/
def hasScheme : GoString → Bool
  | [] => false
  | b :: s => isAlpha b && (s.dropWhile isSchemeByte).head? == some 0x3A

/-- Where an authority ends. -/
def endsAuthority (b : UInt8) : Bool := isSlash b || b == 0x3F || b == 0x23

/-- The authority after the slashes. -/
def authorityText (s : GoString) : GoString :=
  (s.dropWhile isSlash).takeWhile (!endsAuthority ·)

/-- The kinds of references. -/
inductive Reference where
  /-- With a scheme of its own. -/
  | absolute
  /-- With an authority and the scheme of the page. -/
  | authority (text : GoString)
  /-- On the host of the page. -/
  | relative
  deriving DecidableEq

/-- What kind of reference a text is. -/
def reference (s : GoString) : Reference :=
  let s := normalize s
  if hasScheme s then .absolute
  else if isSlash (s.getD 0 0) && isSlash (s.getD 1 0) then .authority (authorityText s)
  else .relative

/-- The host of an authority and what follows it, from the colon of the port on; a colon inside
the brackets of an address is part of the host. -/
def cutPort : Bool → GoString → GoString × GoString
  | _, [] => ([], [])
  | inside, b :: s =>
    if b == 0x3A && !inside then ([], b :: s)
    else
      let inside := if b == 0x5B then true else if b == 0x5D then false else inside
      let (host, port) := cutPort inside s
      (b :: host, port)

/-- The port, colon included, is absent, empty or a number below `65536`. -/
def portOk (port : GoString) : Bool :=
  let digits := port.drop 1
  digits.all (fun b => 0x30 ≤ b && b ≤ 0x39) &&
    digits.foldl (fun n b => 10 * n + (b.toNat - 0x30)) 0 < 65536

section Host

variable {Host : Type} (parseHost : GoString → Option Host)

/-- The host of an authority; credentials end at the last `@`. -/
def authorityHost (text : GoString) : Option Host :=
  let (host, port) := cutPort false (text.rtakeWhile (· != 0x40))
  if host = [] ∨ ¬ portOk port then none else parseHost host

/-- The host that a reference leads to from a page of the host `base`, if it is a valid URL. One
with a scheme of its own is not followed up. -/
def refHost (base : Host) (s : GoString) : Option Host :=
  match reference s with
  | .absolute => none
  | .authority text => authorityHost parseHost text
  | .relative => some base

end Host

/-! ### The byte after the first slash -/

/-- The first byte that is not removed is read as a slash. -/
def opensSlash : GoString → Bool
  | [] => false
  | b :: s => if isBreak b then opensSlash s else isSlash b

theorem isSlash_iff {b : UInt8} : isSlash b = true ↔ b = 0x2F ∨ b = 0x5C := by simp [isSlash]

theorem isBreak_iff {b : UInt8} : isBreak b = true ↔ b = 0x09 ∨ b = 0x0A ∨ b = 0x0D := by
  simp [isBreak, or_assoc]

theorem opensSlash_eq (s : GoString) :
    opensSlash s = isSlash ((s.filter (!isBreak ·)).getD 0 0) := by
  induction s with
  | nil => decide
  | cons b s ih =>
    by_cases hb : isBreak b = true
    · rw [List.filter_cons_of_neg (by simp [hb])]
      simpa only [opensSlash, hb, if_true] using ih
    · rw [List.filter_cons_of_pos (by simp [hb])]
      simp [opensSlash, hb]

theorem opensSlash_append (s t : GoString) :
    opensSlash (s ++ t) = if s.all isBreak then opensSlash t else opensSlash s := by
  induction s with
  | nil => rfl
  | cons b s ih =>
    rw [List.cons_append, opensSlash, opensSlash, List.all_cons]
    by_cases hb : isBreak b = true
    · simp [hb, ih]
    · simp [hb]

theorem opensSlash_concat {s : GoString} {b : UInt8} (hb : isSlash b = false) :
    opensSlash (s ++ [b]) = opensSlash s := by
  induction s with
  | nil => simp [opensSlash, hb]
  | cons c s ih =>
    rw [List.cons_append, opensSlash, opensSlash, ih]

/-- What is stripped at the end is no slash. -/
theorem opensSlash_rdropWhile (s : GoString) :
    opensSlash (s.rdropWhile isEdge) = opensSlash s := by
  induction s using List.reverseRecOn with
  | nil => rfl
  | append_singleton s b ih =>
    by_cases hb : isEdge b = true
    · have hslash : isSlash b = false := by
        refine Bool.eq_false_iff.2 fun h => ?_
        rcases isSlash_iff.1 h with rfl | rfl <;> exact absurd hb (by decide)
      rw [List.rdropWhile_concat_pos _ _ _ hb, ih, opensSlash_concat hslash]
    · rw [List.rdropWhile_concat_neg _ _ _ hb]

/-- Escapes are no slashes, and neither are the bytes they stand for. -/
theorem opensSlash_hexEscapeNonASCII (s : GoString) :
    opensSlash (hexEscapeNonASCII s) = opensSlash s := by
  induction s with
  | nil => rfl
  | cons b s ih =>
    rw [hexEscapeNonASCII, List.flatMap_cons, ← hexEscapeNonASCII]
    split_ifs with hb
    · rw [List.cons_append, List.nil_append, opensSlash, opensSlash, ih]
    · have hbreak : isBreak b = false := by
        refine Bool.eq_false_iff.2 fun h => ?_
        rcases isBreak_iff.1 h with rfl | rfl | rfl <;> exact hb (by decide)
      have hslash : isSlash b = false := by
        refine Bool.eq_false_iff.2 fun h => ?_
        rcases isSlash_iff.1 h with rfl | rfl <;> exact hb (by decide)
      rw [opensSlash, hbreak, hslash]
      rfl

theorem normalize_slash (s : GoString) :
    normalize (0x2F :: s) = 0x2F :: (s.rdropWhile isEdge).filter (!isBreak ·) := by
  have hdrop : (0x2F :: s).rdropWhile isEdge = 0x2F :: s.rdropWhile isEdge := by
    rw [List.rdropWhile, List.reverse_cons, List.dropWhile_append]
    split_ifs with h
    · rw [List.rdropWhile, List.isEmpty_iff.1 h]
      decide
    · rw [List.reverse_append]
      rfl
  rw [normalize, List.dropWhile_cons_of_neg (by decide), hdrop,
    List.filter_cons_of_pos (by decide)]

/-- A text that starts with a slash has an authority if what follows is read as a slash too. -/
theorem reference_slash (s : GoString) :
    reference (0x2F :: s) =
      if opensSlash s then .authority (authorityText (normalize (0x2F :: s))) else .relative := by
  have hscheme : hasScheme (normalize (0x2F :: s)) = false := by
    rw [normalize_slash]
    rfl
  have hsecond : isSlash ((normalize (0x2F :: s)).getD 1 0) = opensSlash s := by
    rw [← opensSlash_rdropWhile s, opensSlash_eq, normalize_slash, List.getD_cons_succ]
  have hfirst : isSlash ((normalize (0x2F :: s)).getD 0 0) = true := by
    rw [normalize_slash]
    rfl
  simp only [reference, hscheme, hsecond, hfirst, Bool.true_and, Bool.false_eq_true, if_false]

/-! ### The target of a redirect -/

/-- The elements of a path, and what `path.Clean` keeps of them. -/
theorem cleanElems_of_forall {P : GoString → Prop} {kept es : List GoString}
    (hkept : ∀ e ∈ kept, e ≠ [] ∧ P e) (hes : ∀ e ∈ es, P e) :
    ∀ e ∈ cleanElems kept es, e ≠ [] ∧ P e := by
  induction es generalizing kept with
  | nil =>
    intro e he
    exact hkept e (List.mem_reverse.1 he)
  | cons e es ih =>
    have htail : ∀ e ∈ es, P e := fun e' he' => hes e' (List.mem_cons_of_mem e he')
    rw [cleanElems]
    split_ifs with hskip hup
    · exact ih hkept htail
    · exact ih (fun e' he' => hkept e' (List.mem_of_mem_tail he')) htail
    · refine ih (fun e' he' => ?_) htail
      rcases List.mem_cons.1 he' with rfl | he'
      · exact ⟨fun h => hskip (.inl h), hes e' List.mem_cons_self⟩
      · exact hkept e' he'

theorem cleanElems_split (path : GoString) :
    ∀ e ∈ cleanElems [] (split path 0x2F), e ≠ [] ∧ (0x2F : UInt8) ∉ e :=
  cleanElems_of_forall (fun _ he => absurd he List.not_mem_nil)
    fun _ he => not_mem_of_mem_split he

/-- What follows the first slash of a clean path opens another one: a backslash does at the front
of the first element, and a slash does after an element of nothing but tabs and line ends. -/
def elemsOpenSlash (trailing : Bool) : List GoString → Bool
  | [] => false
  | e :: es => if e.all isBreak then !es.isEmpty || trailing else opensSlash e

/-- The target of a redirect is read with an authority: by the elements of its clean path when it
parses, and as it stands when it does not. -/
def leadsOff (url : GoString) : Bool :=
  if urlParses url then
    elemsOpenSlash (hasSuffix (before url 0x3F) (str "/"))
      (cleanElems [] (split (before url 0x3F) 0x2F))
  else opensSlash (url.drop 1)

/-- The query of a target, with its question mark, opens no slash. -/
theorem opensSlash_query (url : GoString) :
    opensSlash (url.drop (before url 0x3F).length) = false := by
  have hcut : before url 0x3F ++ url.dropWhile (· != 0x3F) = url := List.takeWhile_append_dropWhile
  have hdrop : url.drop (before url 0x3F).length = url.dropWhile (· != 0x3F) := by
    have hleft : (before url 0x3F ++ url.dropWhile (· != 0x3F)).drop (before url 0x3F).length =
        url.dropWhile (· != 0x3F) := List.drop_left
    rwa [hcut] at hleft
  rw [hdrop]
  cases hq : url.dropWhile (· != 0x3F) with
  | nil => rfl
  | cons b s =>
    have hb := List.head_dropWhile_not (· != 0x3F) (l := url) (by simp [hq])
    obtain rfl : b = 0x3F := by simpa [hq] using hb
    rfl

/-- Joined elements that are not empty and have no slash in them do not end in one. -/
theorem getLast?_join {e : GoString} {es : List GoString}
    (h : ∀ e' ∈ e :: es, e' ≠ [] ∧ (0x2F : UInt8) ∉ e') :
    ∃ b, (join (e :: es) 0x2F).getLast? = some b ∧ b ≠ 0x2F := by
  induction es generalizing e with
  | nil =>
    obtain ⟨hne, hslash⟩ := h e List.mem_cons_self
    refine ⟨e.getLast hne, ?_, fun hb => hslash (hb ▸ List.getLast_mem hne)⟩
    rw [join, List.intercalate_singleton, List.getLast?_eq_some_getLast hne]
  | cons e' es ih =>
    obtain ⟨b, hlast, hb⟩ := ih fun x hx => h x (List.mem_cons_of_mem e hx)
    refine ⟨b, ?_, hb⟩
    rw [join_cons_cons, List.getLast?_append, List.getLast?_cons, hlast]
    rfl

theorem hasSuffix_slash (s : GoString) : hasSuffix s (str "/") = (s.getLast? == some 0x2F) := by
  rw [Bool.eq_iff_iff, hasSuffix_iff, beq_iff_eq]
  constructor
  · rintro ⟨t, rfl⟩
    exact List.getLast?_concat
  · intro h
    have hne : s ≠ [] := by
      rintro rfl
      simp at h
    rw [List.getLast?_eq_some_getLast hne, Option.some_inj] at h
    have hcut := List.dropLast_concat_getLast hne
    rw [h] at hcut
    exact ⟨s.dropLast, hcut⟩

/-- Elements that are joined again, and the query after them. -/
theorem opensSlash_join {els : List GoString} {query : GoString} (trailing : Bool)
    (hels : ∀ e ∈ els, e ≠ [] ∧ (0x2F : UInt8) ∉ e) (hquery : opensSlash query = false) :
    ∃ s, 0x2F :: join els 0x2F ++
          (if trailing && !hasSuffix (0x2F :: join els 0x2F) (str "/") then str "/" else []) ++
          query = 0x2F :: s ∧
      opensSlash s = elemsOpenSlash trailing els := by
  cases els with
  | nil =>
    have hroot : hasSuffix (0x2F :: join [] 0x2F) (str "/") = true := by decide
    rw [hroot, Bool.not_true, Bool.and_false]
    exact ⟨query, rfl, hquery⟩
  | cons e es =>
    have hend : hasSuffix (0x2F :: join (e :: es) 0x2F) (str "/") = false := by
      obtain ⟨b, hlast, hb⟩ := getLast?_join hels
      rw [hasSuffix_slash, List.getLast?_cons, hlast]
      simpa using hb
    rw [hend, Bool.not_false, Bool.and_true]
    refine ⟨join (e :: es) 0x2F ++ ((if trailing then str "/" else []) ++ query),
      by simp only [List.cons_append, List.append_assoc], ?_⟩
    rw [elemsOpenSlash]
    cases es with
    | nil =>
      rw [join, List.intercalate_singleton, opensSlash_append]
      cases trailing with
      | false => simp [hquery]
      | true => rfl
    | cons e' es =>
      rw [join_cons_cons, List.append_assoc, opensSlash_append]
      rfl

/-- A clean target starts with a slash, and its elements say whether another one follows. -/
theorem cleanTarget_eq (url : GoString) :
    ∃ s, cleanTarget url = 0x2F :: s ∧
      opensSlash s = elemsOpenSlash (hasSuffix (before url 0x3F) (str "/"))
        (cleanElems [] (split (before url 0x3F) 0x2F)) :=
  opensSlash_join _ (cleanElems_split _) (opensSlash_query url)

section Host

variable {Host : Type} (parseHost : GoString → Option Host)

/-- The host that a browser goes to for the target of a redirect. -/
theorem refHost_httpRedirect (base : Host) (s : GoString) :
    refHost parseHost base (httpRedirect (0x2F :: s)) =
      if leadsOff (0x2F :: s) then
        authorityHost parseHost (authorityText (normalize (httpRedirect (0x2F :: s))))
      else some base := by
  obtain ⟨t, ht, hopens⟩ : ∃ t, httpRedirect (0x2F :: s) = 0x2F :: t ∧
      opensSlash t = leadsOff (0x2F :: s) := by
    rw [httpRedirect, leadsOff]
    split_ifs with hparses
    · obtain ⟨t, ht, hopens⟩ := cleanTarget_eq (0x2F :: s)
      rw [ht]
      exact ⟨hexEscapeNonASCII t, rfl, by rw [opensSlash_hexEscapeNonASCII, hopens]⟩
    · exact ⟨hexEscapeNonASCII s, rfl, opensSlash_hexEscapeNonASCII s⟩
  rw [refHost, ht, reference_slash, hopens]
  cases leadsOff (0x2F :: s) <;> rfl

end Host

end HttpCatch.Url
