import HttpCatch.Library.Text

/-!
# Lower case, character by character

`strings.ToLower` maps characters one by one, and puts `U+FFFD` for every byte that is not part of
one. The table it uses is a parameter; `Unicode.SimpleCase` says what is relied on of the simple
case mapping of Unicode.

## Main results

* `pieces_toLower`: the characters of the lower-case text are those of the text in lower case.
* `toLower_idem`, `trimSpace_toLower`: lower case is lower case already, and neither makes nor
  removes white space.
* `length_toLower`: how much longer a text gets.
-/

namespace HttpCatch.Go

/-- The encoding of one character that is not ASCII. -/
def IsChar (bs : GoString) : Prop := pieces bs = [.multi bs]

instance (bs : GoString) : Decidable (IsChar bs) := inferInstanceAs (Decidable (_ = _))

/-- The simple case mapping: a character has one lower-case character, which has no other one
itself. No white space has case, and the only ASCII characters that are the lower case of another
character are letters. -/
structure Unicode.SimpleCase (U : Unicode) : Prop where
  char : ∀ bs, IsChar bs → (∃ b, 0x61 ≤ b ∧ b ≤ 0x7A ∧ U.lower bs = [b]) ∨
    IsChar (U.lower bs) ∧ U.lower (U.lower bs) = U.lower bs
  space : ∀ bs, IsChar bs → (U.lower bs ∈ wideSpaces ↔ bs ∈ wideSpaces)
  runeError : U.lower runeError = runeError

theorem simpleCase_asciiOnly : Unicode.asciiOnly.SimpleCase where
  char := fun _ h => .inr ⟨h, rfl⟩
  space := fun _ _ => Iff.rfl
  runeError := rfl

/-! ### Whole characters -/

/-- A piece that is a character, and not a stray byte. -/
def Piece.Whole : Piece → Prop
  | .ascii b => b < 0x80
  | .multi bs => IsChar bs
  | .bad _ => False

/-- A character is cut off a string whatever follows it. -/
theorem pieces_multi_append {bs : GoString} (h : IsChar bs) (s : GoString) :
    pieces (bs ++ s) = .multi bs :: pieces s := by
  cases bs with
  | nil => cases h
  | cons b t =>
    rw [IsChar, pieces_cons] at h
    have hfirst : firstPiece b t = .multi (b :: t) := (List.cons.inj h).1
    rw [List.cons_append, pieces_cons, firstPiece_multi hfirst]
    simp [Piece.bytes]

/-- Characters put one behind the other are these characters. -/
theorem pieces_flatMap_bytes {ps : List Piece} (h : ∀ p ∈ ps, p.Whole) :
    pieces (ps.flatMap Piece.bytes) = ps := by
  induction ps with
  | nil => rfl
  | cons p ps ih =>
    obtain ⟨hp, hps⟩ := List.forall_mem_cons.mp h
    rw [List.flatMap_cons]
    cases p with
    | ascii b =>
      rw [Piece.bytes, List.singleton_append, pieces_ascii hp, ih hps]
    | multi bs =>
      rw [Piece.bytes, pieces_multi_append hp, ih hps]
    | bad b => exact hp.elim

/-- What is read as a character is one. -/
theorem isChar_of_mem {s bs : GoString} (h : .multi bs ∈ pieces s) : IsChar bs := by
  obtain ⟨l, l', hl⟩ := List.append_of_mem h
  have hright := pieces_right hl
  have hleft := pieces_left (l := [.multi bs]) hright
  rwa [List.flatMap_cons, List.flatMap_nil, List.append_nil] at hleft

/-- The characters of `m` are some of those of `s`, one after the other. -/
def IsRun (m s : GoString) : Prop := pieces m <:+: pieces s

/-- Some characters of a text, one after the other, are the characters of a part of it. -/
theorem pieces_middle {s : GoString} {l m l' : List Piece} (h : pieces s = l ++ m ++ l') :
    pieces (m.flatMap Piece.bytes) = m :=
  pieces_right (pieces_left h)

theorem IsRun.isInfix {m s : GoString} (h : IsRun m s) : m <:+: s := by
  obtain ⟨l, l', hl⟩ := h
  refine ⟨l.flatMap Piece.bytes, l'.flatMap Piece.bytes, ?_⟩
  rw [← pieces_flatten s, ← hl, List.flatMap_append, List.flatMap_append, pieces_flatten m]

/-! ### Lower case -/

/-- The lower-case character. -/
def Piece.lowered (U : Unicode) : Piece → Piece
  | .ascii b => .ascii (lowerByte b)
  | .multi bs =>
    match U.lower bs with
    | [b] => .ascii b
    | bs' => .multi bs'
  | .bad _ => .multi runeError

section

variable {U : Unicode}

/-- Lower case of one character, as a character and as bytes. -/
theorem lowered_bytes (p : Piece) : (p.lowered U).bytes = p.lower U := by
  cases p with
  | ascii b => rfl
  | multi bs =>
    rw [Piece.lowered, Piece.lower]
    split
    · case h_1 b hb => rw [hb]; rfl
    · rfl
  | bad b => rfl

theorem lowered_multi (hU : U.SimpleCase) {bs : GoString} (h : IsChar bs) :
    (∃ b, 0x61 ≤ b ∧ b ≤ 0x7A ∧ U.lower bs = [b] ∧ Piece.lowered U (.multi bs) = .ascii b) ∨
      IsChar (U.lower bs) ∧ U.lower (U.lower bs) = U.lower bs ∧
        Piece.lowered U (.multi bs) = .multi (U.lower bs) := by
  rcases hU.char bs h with ⟨b, h₁, h₂, hb⟩ | ⟨hchar, hidem⟩
  · refine .inl ⟨b, h₁, h₂, hb, ?_⟩
    rw [Piece.lowered, hb]
  · refine .inr ⟨hchar, hidem, ?_⟩
    rw [Piece.lowered]
    split
    · -- one byte alone is no character of several bytes
      case h_1 b hb =>
        have hfirst : pieces [b] = [.multi [b]] := hb ▸ hchar
        rw [pieces_cons] at hfirst
        have hmulti := (List.cons.inj hfirst).1
        rw [firstPiece] at hmulti
        split_ifs at hmulti <;> simp at hmulti
    · rfl

theorem lowered_whole (hU : U.SimpleCase) {s : GoString} {p : Piece} (hp : p ∈ pieces s) :
    (p.lowered U).Whole := by
  cases p with
  | ascii b => exact lowerByte_lt (ascii_lt hp)
  | multi bs =>
    rcases lowered_multi hU (isChar_of_mem hp) with ⟨b, h₁, h₂, -, hb⟩ | ⟨hchar, -, hb⟩
    · rw [hb]
      exact lt_of_le_of_lt h₂ (by decide)
    · rw [hb]
      exact hchar
  | bad b => exact (rfl : pieces runeError = [.multi runeError])

/-- **The characters of the lower-case text.** -/
theorem pieces_toLower (hU : U.SimpleCase) (s : GoString) :
    pieces (toLower U s) = (pieces s).map (Piece.lowered U) := by
  have hbytes : toLower U s = ((pieces s).map (Piece.lowered U)).flatMap Piece.bytes := by
    rw [toLower, List.flatMap_map]
    exact List.flatMap_congr fun p _ => (lowered_bytes p).symm
  rw [hbytes]
  apply pieces_flatMap_bytes
  intro q hq
  obtain ⟨p, hp, rfl⟩ := List.mem_map.mp hq
  exact lowered_whole hU hp

theorem lowered_lowered (hU : U.SimpleCase) {s : GoString} {p : Piece} (hp : p ∈ pieces s) :
    (p.lowered U).lower U = p.lower U := by
  cases p with
  | ascii b => exact congrArg (fun c => [c]) (lowerByte_idem b)
  | multi bs =>
    rcases lowered_multi hU (isChar_of_mem hp) with ⟨b, h₁, h₂, hlow, hb⟩ | ⟨-, hidem, hb⟩
    · have hbyte : lowerByte b = b := by
        rw [lowerByte, if_neg]
        simp only [Bool.and_eq_true, decide_eq_true_eq, UInt8.le_iff_toNat_le,
          UInt8.reduceToNat] at h₁ h₂ ⊢
        omega
      rw [hb, Piece.lower, hbyte, Piece.lower, hlow]
    · rw [hb, Piece.lower, hidem, Piece.lower]
  | bad b => exact hU.runeError

/-- Lower case is lower case already. -/
theorem toLower_idem (hU : U.SimpleCase) (s : GoString) :
    toLower U (toLower U s) = toLower U s := by
  rw [toLower, pieces_toLower hU, List.flatMap_map, toLower]
  exact List.flatMap_congr fun p hp => lowered_lowered hU hp

theorem dropWhile_map_of_eq {α : Type} {f : α → α} {p : α → Bool} {l : List α}
    (h : ∀ a ∈ l, p (f a) = p a) : (l.map f).dropWhile p = (l.dropWhile p).map f := by
  induction l with
  | nil => rfl
  | cons a l ih =>
    obtain ⟨ha, hl⟩ := List.forall_mem_cons.mp h
    rw [List.map_cons, List.dropWhile_cons, List.dropWhile_cons, ha]
    split_ifs
    · exact ih hl
    · rfl

/-- Trimming does not look at more of a character than whether it is white space. -/
theorem trimPieces_map {f : Piece → Piece} {ps : List Piece}
    (h : ∀ p ∈ ps, (f p).isSpace = p.isSpace) :
    trimPieces (ps.map f) = (trimPieces ps).map f := by
  have hleft : ∀ p ∈ (ps.dropWhile Piece.isSpace).reverse, (f p).isSpace = p.isSpace := by
    intro p hp
    exact h p (List.dropWhile_subset _ (List.mem_reverse.mp hp))
  rw [trimPieces, dropWhile_map_of_eq h, List.rdropWhile, ← List.map_reverse,
    dropWhile_map_of_eq hleft, ← List.map_reverse, ← List.rdropWhile, ← trimPieces]

theorem isSpace_lowerByte (b : UInt8) :
    (Piece.ascii (lowerByte b)).isSpace = (Piece.ascii b).isSpace := by
  by_cases hc : 0x41 ≤ b && b ≤ 0x5A
  · have hl : lowerByte b = b + 0x20 := if_pos hc
    rw [hl, Bool.eq_iff_iff]
    simp only [Piece.isSpace, Bool.or_eq_true, Bool.and_eq_true, beq_iff_eq, decide_eq_true_eq,
      UInt8.le_iff_toNat_le, ← UInt8.toNat_inj, UInt8.toNat_add, UInt8.reduceToNat] at hc ⊢
    omega
  · rw [show lowerByte b = b from if_neg hc]

theorem isSpace_lowered (hU : U.SimpleCase) {s : GoString} {p : Piece} (hp : p ∈ pieces s) :
    (p.lowered U).isSpace = p.isSpace := by
  cases p with
  | ascii b => exact isSpace_lowerByte b
  | multi bs =>
    have hspace := hU.space bs (isChar_of_mem hp)
    rw [Bool.eq_iff_iff, Piece.isSpace, List.contains_iff_mem, ← hspace]
    rcases lowered_multi hU (isChar_of_mem hp) with ⟨b, h₁, h₂, hlow, hb⟩ | ⟨-, -, hb⟩
    · -- a letter is no white space, and no white space is one byte long
      have hlen : ∀ w ∈ wideSpaces, w.length ≠ 1 := by decide
      have hletter : (Piece.ascii b).isSpace = false := by
        simp only [Piece.isSpace, Bool.or_eq_false_iff, beq_eq_false_iff_ne, ne_eq,
          Bool.and_eq_false_iff, decide_eq_false_iff_not, UInt8.le_iff_toNat_le, ← UInt8.toNat_inj,
          UInt8.reduceToNat] at h₁ h₂ ⊢
        omega
      rw [hb, hlow, hletter]
      exact iff_of_false Bool.false_ne_true fun hmem => hlen _ hmem rfl
    · rw [hb, Piece.isSpace, List.contains_iff_mem]
  | bad b => rfl

/-- Lower case neither makes nor removes white space at the ends. -/
theorem trimSpace_toLower (hU : U.SimpleCase) {s : GoString} (h : trimSpace s = s) :
    trimSpace (toLower U s) = toLower U s := by
  have hpieces : trimPieces (pieces s) = pieces s := by rw [← pieces_trimSpace, h]
  rw [trimSpace, pieces_toLower hU, trimPieces_map fun p hp => isSpace_lowered hU hp, hpieces,
    ← pieces_toLower hU, pieces_flatten]

/-! ### Length -/

/-- By how many bytes a character grows in lower case. -/
def Piece.growth (U : Unicode) : Piece → ℤ
  | .ascii _ => 0
  | .multi bs => (U.lower bs).length - bs.length
  | .bad _ => 2

/-- By how many bytes a text grows in lower case: two for each byte that is not part of a
character, and what the table adds for the others. -/
def growth (U : Unicode) (s : GoString) : ℤ := ((pieces s).map (Piece.growth U)).sum

theorem length_lower (p : Piece) : ((p.lower U).length : ℤ) = p.bytes.length + p.growth U := by
  cases p with
  | ascii b => rfl
  | multi bs =>
    simp only [Piece.lower, Piece.bytes, Piece.growth]
    ring
  | bad b => rfl

theorem length_toLower (U : Unicode) (s : GoString) :
    ((toLower U s).length : ℤ) = s.length + growth U s := by
  have hsum : ∀ ps : List Piece, ((ps.flatMap (Piece.lower U)).length : ℤ) =
      (ps.flatMap Piece.bytes).length + (ps.map (Piece.growth U)).sum := by
    intro ps
    induction ps with
    | nil => rfl
    | cons p ps ih =>
      rw [List.flatMap_cons, List.flatMap_cons, List.length_append, List.length_append,
        List.map_cons, List.sum_cons]
      push_cast
      rw [ih, length_lower]
      ring
  rw [toLower, hsum, pieces_flatten, growth]

end

end HttpCatch.Go
