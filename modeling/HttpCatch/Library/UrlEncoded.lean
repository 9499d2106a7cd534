import HttpCatch.Library.Text

/-!
# Form-encoded queries

The `application/x-www-form-urlencoded` format as a browser's `URLSearchParams` reads and writes
it (WHATWG URL standard). Texts are their UTF-8 bytes. Reading decodes the escapes and puts
`U+FFFD` in the place of what is no UTF-8, so that it always gives text (`IsText`).

* `parseQuery_serialize` — what is written is read back.
* `isText_of_mem_parseQuery` — what is read is text.
-/

namespace HttpCatch.Url

open HttpCatch.Go

/-! ### Text -/

/-- The bytes are valid UTF-8. -/
def IsText (s : GoString) : Prop := ∀ b, Piece.bad b ∉ pieces s

/-- The bytes for which a decoder that found no character in front of it writes one
replacement: a character that was cut short, or a single byte. -/
def badLength (b₀ : UInt8) (s : GoString) : ℕ :=
  if isTriple b₀ (s.getD 0 0) 0x80 then 2
  else if isQuad b₀ (s.getD 0 0) 0x80 0x80 then (if isCont (s.getD 1 0) then 3 else 2)
  else 1

/-- The decoding loop, `k` bytes of the string already read. -/
def scrubFrom : ℕ → GoString → GoString
  | _, [] => []
  | k + 1, _ :: s => scrubFrom k s
  | 0, b :: s =>
    match firstPiece b s with
    | .bad _ => runeError ++ scrubFrom (badLength b s - 1) s
    | p => p.bytes ++ scrubFrom (p.bytes.length - 1) s

/-- `UTF-8 decode`, and the bytes of the result. -/
def scrub (s : GoString) : GoString := scrubFrom 0 s

variable {s : GoString} {sep : UInt8}

/-- A character at the front of a string is followed by the pieces of the rest. -/
theorem pieces_append_of_firstPiece {b : UInt8} (h : ∀ c, firstPiece b s ≠ .bad c) (u : GoString) :
    pieces ((firstPiece b s).bytes ++ u) = firstPiece b s :: pieces u := by
  cases hp : firstPiece b s with
  | ascii c =>
    rw [firstPiece] at hp
    split_ifs at hp with hb
    obtain rfl := Piece.ascii.inj hp
    exact pieces_ascii hb u
  | multi bs =>
    obtain ⟨t, rfl, -⟩ := firstPiece_of_multi hp
    rw [Piece.bytes, List.cons_append, pieces_cons, firstPiece_multi hp, Piece.bytes,
      List.length_cons, Nat.add_sub_cancel, List.drop_left]
  | bad c => exact absurd hp (h c)

theorem isText_nil : IsText [] := by simp [IsText]

theorem IsText.cons {b : UInt8} (h : IsText (b :: s)) :
    (∀ c, firstPiece b s ≠ .bad c) ∧ IsText (s.drop ((firstPiece b s).bytes.length - 1)) := by
  rw [IsText, pieces_cons] at h
  exact ⟨fun c hc => h c (hc ▸ List.mem_cons_self), fun c hc => h c (List.mem_cons_of_mem _ hc)⟩

/-- The characters of text do not depend on what follows it. -/
theorem IsText.pieces_append (h : IsText s) (u : GoString) :
    pieces (s ++ u) = pieces s ++ pieces u := by
  induction s using pieces_induction with
  | nil => rfl
  | cons b s ih =>
    obtain ⟨hfirst, hrest⟩ := h.cons
    have hcut : b :: s = (firstPiece b s).bytes ++ s.drop ((firstPiece b s).bytes.length - 1) := by
      obtain ⟨t, ht, r, rfl⟩ := firstPiece_bytes b s
      rw [ht, List.length_cons, Nat.add_sub_cancel, List.drop_left, List.cons_append]
    calc pieces (b :: s ++ u)
        = pieces ((firstPiece b s).bytes ++
            (s.drop ((firstPiece b s).bytes.length - 1) ++ u)) := by
          conv_lhs => rw [hcut, List.append_assoc]
      _ = pieces (b :: s) ++ pieces u := by
          rw [pieces_append_of_firstPiece hfirst, ih hrest, pieces_cons, List.cons_append]

theorem IsText.append {t : GoString} (hs : IsText s) (ht : IsText t) : IsText (s ++ t) := by
  intro b hb
  rw [hs.pieces_append, List.mem_append] at hb
  exact hb.elim (hs b) (ht b)

theorem isText_of_ascii (h : s.all (· < 0x80) = true) : IsText s := by
  intro b hb
  rw [pieces_of_ascii (by simpa using h)] at hb
  simp at hb

theorem join_cons_cons (p q : GoString) (parts : List GoString) (sep : UInt8) :
    join (p :: q :: parts) sep = p ++ sep :: join (q :: parts) sep := by
  simp [join, List.intercalate]

/-- What holds of the parts and the separator, and of two texts put together, holds of the parts
joined. -/
theorem join_of_append {P : GoString → Prop} {parts : List GoString} (nil : P [])
    (append : ∀ s t, P s → P t → P (s ++ t)) (hsep : P [sep]) (h : ∀ p ∈ parts, P p) :
    P (join parts sep) := by
  induction parts with
  | nil => exact nil
  | cons p parts ih =>
    have hp := h p List.mem_cons_self
    have hparts := ih fun q hq => h q (List.mem_cons_of_mem p hq)
    cases parts with
    | nil => rwa [join, List.intercalate_singleton]
    | cons q parts =>
      rw [join_cons_cons]
      exact append _ _ hp (append [sep] _ hsep hparts)

/-- Decoding gives text. -/
theorem isText_scrub (s : GoString) : IsText (scrub s) := by
  have hfrom : ∀ k, IsText (scrubFrom k s) := by
    induction s with
    | nil =>
      intro k
      cases k <;> exact isText_nil
    | cons b s ih =>
      intro k
      cases k with
      | succ k => exact ih k
      | zero =>
        have hpiece : (∀ c, firstPiece b s ≠ .bad c) → IsText (firstPiece b s).bytes := by
          intro h c hc
          have hall := pieces_append_of_firstPiece h []
          rw [List.append_nil] at hall
          rw [hall, pieces_nil, List.mem_singleton] at hc
          exact h c hc.symm
        rw [scrubFrom]
        cases hp : firstPiece b s with
        | bad c =>
          have herr : IsText runeError := by
            intro c hc
            rw [show pieces runeError = [.multi runeError] by decide] at hc
            simp at hc
          exact herr.append (ih _)
        | ascii c =>
          rw [hp] at hpiece
          exact (hpiece (by simp)).append (ih _)
        | multi bs =>
          rw [hp] at hpiece
          exact (hpiece (by simp)).append (ih _)
  exact hfrom 0

theorem scrubFrom_drop (k : ℕ) (s : GoString) : scrubFrom k s = scrub (s.drop k) := by
  induction s generalizing k with
  | nil => cases k <;> rfl
  | cons b s ih =>
    cases k with
    | zero => rfl
    | succ k => rw [scrubFrom, ih, List.drop_succ_cons]

/-- Decoding leaves text as it is. -/
theorem scrub_eq (h : IsText s) : scrub s = s := by
  induction s using pieces_induction with
  | nil => rfl
  | cons b s ih =>
    obtain ⟨hfirst, htext⟩ := h.cons
    have hrest := ih htext
    have hstep : scrub (b :: s) = (firstPiece b s).bytes ++
        scrub (s.drop ((firstPiece b s).bytes.length - 1)) := by
      rw [← scrubFrom_drop, scrub, scrubFrom]
      split
      · exact absurd ‹_› (hfirst _)
      · rfl
    obtain ⟨t, ht, r, rfl⟩ := firstPiece_bytes b s
    rw [hstep, hrest, ht, List.length_cons, Nat.add_sub_cancel, List.drop_left, List.cons_append]

/-! ### Escapes -/

/-- A digit of an escape. -/
def isHexDigit (b : UInt8) : Bool :=
  (0x30 ≤ b && b ≤ 0x39) || (0x41 ≤ b && b ≤ 0x46) || (0x61 ≤ b && b ≤ 0x66)

/-- Its value. -/
def hexValue (b : UInt8) : UInt8 :=
  if b ≤ 0x39 then b - 0x30 else if b ≤ 0x46 then b - 0x37 else b - 0x57

/-- The digit that is written for a value. -/
def upperHex (n : UInt8) : UInt8 := if n < 10 then 0x30 + n else 0x37 + n

/-- Percent decoding; what is no escape stays. -/
def percentDecode : GoString → GoString
  | 0x25 :: h₁ :: h₂ :: s =>
    if isHexDigit h₁ && isHexDigit h₂ then (16 * hexValue h₁ + hexValue h₂) :: percentDecode s
    else 0x25 :: percentDecode (h₁ :: h₂ :: s)
  | b :: s => b :: percentDecode s
  | [] => []

/-- A byte that is written as it is. -/
def isFormByte (b : UInt8) : Bool :=
  (0x30 ≤ b && b ≤ 0x39) || (0x41 ≤ b && b ≤ 0x5A) || (0x61 ≤ b && b ≤ 0x7A) || b == 0x2A ||
    b == 0x2D || b == 0x2E || b == 0x5F

/-- How a byte is written. -/
def encodeByte (b : UInt8) : GoString :=
  if isFormByte b then [b]
  else if b = 0x20 then [0x2B]
  else [0x25, upperHex (b / 16), upperHex (b % 16)]

/-- How a name or a value is written. -/
def encode (s : GoString) : GoString := s.flatMap encodeByte

/-- A plus sign stands for a space. -/
def plusToSpace (b : UInt8) : UInt8 := if b = 0x2B then 0x20 else b

/-- How a name or a value is read. -/
def decode (s : GoString) : GoString := scrub (percentDecode (s.map plusToSpace))

/-- The separators of a query, and what begins or ends it in a URL. -/
def isSeparator (b : UInt8) : Bool := b == 0x26 || b == 0x3D || b == 0x3F || b == 0x23

/-- A byte that is written as it is has no meaning of its own. -/
theorem isFormByte_plain {b : UInt8} (h : isFormByte b = true) :
    plusToSpace b = b ∧ b ≠ 0x25 ∧ isSeparator b = false := by
  revert b
  decide +kernel

theorem upperHex_spec {n : UInt8} (h : n < 16) :
    isFormByte (upperHex n) = true ∧ isHexDigit (upperHex n) = true ∧
      hexValue (upperHex n) = n := by
  revert n
  decide +kernel

theorem nibbles (b : UInt8) : b / 16 < 16 ∧ b % 16 < 16 ∧ 16 * (b / 16) + b % 16 = b := by
  have hb := b.toNat_lt
  refine ⟨?_, ?_, ?_⟩
  · rw [UInt8.lt_iff_toNat_lt, UInt8.toNat_div]
    simp only [UInt8.reduceToNat]
    omega
  · rw [UInt8.lt_iff_toNat_lt, UInt8.toNat_mod]
    simp only [UInt8.reduceToNat]
    omega
  · rw [← UInt8.toNat_inj, UInt8.toNat_add, UInt8.toNat_mul, UInt8.toNat_div, UInt8.toNat_mod]
    simp only [UInt8.reduceToNat]
    omega

theorem percentDecode_encodeByte (b : UInt8) (t : GoString) :
    percentDecode ((encodeByte b).map plusToSpace ++ t) = b :: percentDecode t := by
  rw [encodeByte]
  split_ifs with hb hspace
  · obtain ⟨hplus, hpercent, -⟩ := isFormByte_plain hb
    rw [List.map_singleton, hplus, List.singleton_append, percentDecode]
    rintro h₁ h₂ s rfl
    exact absurd rfl hpercent
  · subst hspace
    rfl
  · obtain ⟨hlt₁, hlt₂, hval⟩ := nibbles b
    obtain ⟨hform₁, hdigit₁, hvalue₁⟩ := upperHex_spec hlt₁
    obtain ⟨hform₂, hdigit₂, hvalue₂⟩ := upperHex_spec hlt₂
    have hpercent : plusToSpace 0x25 = 0x25 := by decide
    simp only [List.map_cons, List.map_nil, (isFormByte_plain hform₁).1,
      (isFormByte_plain hform₂).1, hpercent, List.cons_append, List.nil_append]
    rw [percentDecode, hdigit₁, hdigit₂, hvalue₁, hvalue₂, hval]
    rfl

theorem percentDecode_encode (s : GoString) : percentDecode ((encode s).map plusToSpace) = s := by
  induction s with
  | nil => rfl
  | cons b s ih =>
    rw [encode, List.flatMap_cons, ← encode, List.map_append, percentDecode_encodeByte, ih]

theorem decode_encode (h : IsText s) : decode (encode s) = s := by
  rw [decode, percentDecode_encode, scrub_eq h]

theorem not_mem_encode (hsep : isSeparator sep = true) (s : GoString) : sep ∉ encode s := by
  have hform : ∀ {b : UInt8}, isFormByte b = true → sep ≠ b := fun h heq => by
    rw [heq, (isFormByte_plain h).2.2] at hsep
    cases hsep
  intro hmem
  obtain ⟨b, -, hb⟩ := List.mem_flatMap.1 hmem
  rw [encodeByte] at hb
  split_ifs at hb with hb' hspace
  · exact hform hb' (List.mem_singleton.1 hb)
  · obtain rfl := List.mem_singleton.1 hb
    exact absurd hsep (by decide)
  · obtain ⟨hlt₁, hlt₂, -⟩ := nibbles b
    simp only [List.mem_cons, List.not_mem_nil, or_false] at hb
    rcases hb with rfl | hb | hb
    · exact absurd hsep (by decide)
    · exact hform (upperHex_spec hlt₁).1 hb
    · exact hform (upperHex_spec hlt₂).1 hb

/-! ### Queries -/

/-- The entries of `new URLSearchParams(s)` for a query without its question mark. -/
def parseQuery (s : GoString) : List (GoString × GoString) :=
  ((split s 0x26).filter fun part => part ≠ []).map fun part =>
    (decode (before part 0x3D), decode (afterByte part 0x3D))

/-- An entry as it is written. -/
def serializeEntry (entry : GoString × GoString) : GoString :=
  encode entry.1 ++ 0x3D :: encode entry.2

/-- `toString`. -/
def serialize (entries : List (GoString × GoString)) : GoString :=
  join (entries.map serializeEntry) 0x26

/-- `get`: the first value of a name. -/
def getParam (entries : List (GoString × GoString)) (name : GoString) : Option GoString :=
  (entries.find? fun entry => entry.1 = name).map Prod.snd

/-- `set`: the first entry of the name gets the value, the others go. -/
def setParam (name value : GoString) : List (GoString × GoString) → List (GoString × GoString)
  | [] => [(name, value)]
  | entry :: entries =>
    if entry.1 = name then (name, value) :: entries.filter fun e => e.1 ≠ name
    else entry :: setParam name value entries

theorem not_mem_serializeEntry (hsep : isSeparator sep = true) (heq : sep ≠ 0x3D)
    (entry : GoString × GoString) : sep ∉ serializeEntry entry := by
  rw [serializeEntry, List.mem_append, List.mem_cons]
  rintro (h | h | h)
  · exact not_mem_encode hsep _ h
  · exact heq h
  · exact not_mem_encode hsep _ h

theorem split_serialize {entries : List (GoString × GoString)} (hne : entries ≠ []) :
    split (serialize entries) 0x26 = entries.map serializeEntry := by
  refine split_join (fun part hpart => ?_) (by simpa using hne)
  obtain ⟨e, -, rfl⟩ := List.mem_map.1 hpart
  exact not_mem_serializeEntry (by decide) (by decide) e

/-- What is written is read back. -/
theorem parseQuery_serialize {entries : List (GoString × GoString)}
    (h : ∀ entry ∈ entries, IsText entry.1 ∧ IsText entry.2) :
    parseQuery (serialize entries) = entries := by
  have hentry : ∀ entry ∈ entries, (decode (before (serializeEntry entry) 0x3D),
      decode (afterByte (serializeEntry entry) 0x3D)) = entry := by
    intro entry hmem
    obtain ⟨hname, hvalue⟩ := h entry hmem
    have hfree : (0x3D : UInt8) ∉ encode entry.1 := not_mem_encode (by decide) _
    rw [serializeEntry, before_append_of_not_mem hfree, before_cons_self, List.append_nil,
      afterByte_append hfree, decode_encode hname, decode_encode hvalue]
  have hsplit : (split (serialize entries) 0x26).filter (fun part => part ≠ []) =
      entries.map serializeEntry := by
    cases entries with
    | nil => rfl
    | cons entry entries =>
      rw [split_serialize (List.cons_ne_nil _ _), List.filter_eq_self]
      intro part hpart
      obtain ⟨e, -, rfl⟩ := List.mem_map.1 hpart
      simp [serializeEntry]
  rw [parseQuery, hsplit, List.map_map]
  exact (List.map_congr_left hentry).trans (List.map_id' entries)

/-- What opens a query in a URL, and what ends it, is not written in it. -/
theorem not_mem_serialize (hsep : isSeparator sep = true) (heq : sep ≠ 0x3D) (hand : sep ≠ 0x26)
    (entries : List (GoString × GoString)) : sep ∉ serialize entries := by
  have hentries : ∀ part ∈ entries.map serializeEntry, sep ∉ part := by
    intro part hpart
    obtain ⟨e, -, rfl⟩ := List.mem_map.1 hpart
    exact not_mem_serializeEntry hsep heq e
  refine join_of_append List.not_mem_nil (fun s t hs ht => ?_) ?_ hentries
  · rw [List.mem_append]
    exact not_or.2 ⟨hs, ht⟩
  · rwa [List.mem_singleton]

/-- A parameter of the query of a URL. -/
def urlParam (url name : GoString) : Option GoString :=
  getParam (parseQuery (afterByte (before url 0x23) 0x3F)) name

theorem urlParam_serialize {base : GoString} (hquery : (0x3F : UInt8) ∉ base)
    (hfragment : (0x23 : UInt8) ∉ base) {entries : List (GoString × GoString)}
    (h : ∀ entry ∈ entries, IsText entry.1 ∧ IsText entry.2) (name : GoString) :
    urlParam (base ++ 0x3F :: serialize entries) name = getParam entries name := by
  have hhash : (0x23 : UInt8) ∉ base ++ 0x3F :: serialize entries := by
    rw [List.mem_append, List.mem_cons]
    rintro (h | h | h)
    · exact hfragment h
    · exact absurd h (by decide)
    · exact not_mem_serialize (by decide) (by decide) (by decide) entries h
  rw [urlParam, before_of_not_mem hhash, afterByte_append hquery, parseQuery_serialize h]

theorem isText_of_mem_parseQuery {entry : GoString × GoString} (h : entry ∈ parseQuery s) :
    IsText entry.1 ∧ IsText entry.2 := by
  obtain ⟨part, -, rfl⟩ := List.mem_map.1 h
  exact ⟨isText_scrub _, isText_scrub _⟩

@[simp] theorem getParam_setParam_self (entries : List (GoString × GoString))
    (name value : GoString) : getParam (setParam name value entries) name = some value := by
  induction entries with
  | nil => simp [setParam, getParam]
  | cons entry entries ih =>
    rw [setParam]
    split_ifs with hname
    · simp [getParam]
    · rwa [getParam, List.find?_cons_of_neg (by simpa using hname), ← getParam]

theorem getParam_setParam_of_ne {name name' : GoString} (h : name' ≠ name)
    (entries : List (GoString × GoString)) (value : GoString) :
    getParam (setParam name value entries) name' = getParam entries name' := by
  induction entries with
  | nil => simp [setParam, getParam, Ne.symm h]
  | cons entry entries ih =>
    rw [setParam]
    split_ifs with hname
    · have hrest : (entries.filter fun e => e.1 ≠ name).find? (fun e => e.1 = name') =
          entries.find? fun e => e.1 = name' := by
        rw [List.find?_filter]
        congr 1
        funext e
        by_cases he : e.1 = name'
        · simp [he, h]
        · simp [he]
      subst hname
      rw [getParam, getParam, List.find?_cons_of_neg (by simpa using Ne.symm h),
        List.find?_cons_of_neg (by simpa using Ne.symm h), hrest]
    · by_cases he : entry.1 = name'
      · simp [getParam, he]
      · rw [getParam, getParam, List.find?_cons_of_neg (by simpa using he),
          List.find?_cons_of_neg (by simpa using he)]
        exact ih

end HttpCatch.Url
