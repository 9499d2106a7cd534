import Mathlib.Data.List.DropRight
import HttpCatch.Library.GoString

/-!
# Splitting and trimming

The functions of Go's `strings` package that take a string apart: `Split`, `Join`, `Cut`,
`TrimLeft` and `TrimSpace`, and `TrimString` of `net/textproto`, which knows only the four
ASCII blanks.

## Main results

* `split_join`: joining and splitting at a byte no part contains.
* `trimSpace_idem`: trimming twice is trimming once. It rests on `pieces_left` and
  `pieces_right`: decoding a string cut between two characters gives the same characters.
* `trimSpace_pad`: trimming finds a word between blanks.
-/

namespace HttpCatch.Go

/-! ### Splitting -/

/-- `strings.Split` for a separator of one byte. -/
def split (s : GoString) (sep : UInt8) : List GoString := s.splitOn sep

/-- `strings.Join` for a separator of one byte. -/
def join (parts : List GoString) (sep : UInt8) : GoString := [sep].intercalate parts

/-- What `strings.Cut` finds before the separator, or all of the string. -/
def before (s : GoString) (sep : UInt8) : GoString := s.takeWhile (· != sep)

/-- What `strings.Cut` finds after the separator; nothing when there is none. -/
def afterByte (s : GoString) (sep : UInt8) : GoString := (s.dropWhile (· != sep)).drop 1

/-- `strings.TrimLeft` for a set of ASCII bytes. -/
def trimLeft (s cutset : GoString) : GoString := s.dropWhile cutset.contains

variable {sep b : UInt8} {s cutset t : GoString}

theorem split_join {parts : List GoString} (h : ∀ p ∈ parts, sep ∉ p) (hne : parts ≠ []) :
    split (join parts sep) sep = parts :=
  List.splitOn_intercalate sep h hne

@[simp] theorem split_empty (sep : UInt8) : split [] sep = [[]] := List.splitOn_nil sep

theorem split_ne_nil (s : GoString) (sep : UInt8) : split s sep ≠ [] := List.splitOn_ne_nil _ _

/-- No part of a split string has the separator in it. -/
theorem not_mem_of_mem_split {p : GoString} (h : p ∈ split s sep) : sep ∉ p := by
  induction s generalizing p with
  | nil =>
    obtain rfl : p = [] := by simpa [split] using h
    exact List.not_mem_nil
  | cons b s ih =>
    obtain ⟨q, qs, hq⟩ := List.exists_cons_of_ne_nil (split_ne_nil s sep)
    rw [split, List.splitOn_cons_eq_if_modifyHead, ← split, hq] at h
    rw [hq] at ih
    split_ifs at h with hb
    · rcases List.mem_cons.1 h with rfl | h
      · exact List.not_mem_nil
      · exact ih h
    · rcases List.mem_cons.1 h with rfl | h
      · rw [List.mem_cons, not_or]
        exact ⟨fun he => hb (by simp [he]), ih List.mem_cons_self⟩
      · exact ih (List.mem_cons_of_mem q h)

@[simp] theorem before_nil (sep : UInt8) : before [] sep = [] := rfl

@[simp] theorem before_cons_self (sep : UInt8) (s : GoString) : before (sep :: s) sep = [] :=
  List.takeWhile_cons_of_neg (by simp)

theorem before_cons_of_ne (h : b ≠ sep) (s : GoString) : before (b :: s) sep = b :: before s sep :=
  List.takeWhile_cons_of_pos (by simpa using h)

theorem before_append_of_not_mem {u : GoString} (h : sep ∉ u) (s : GoString) :
    before (u ++ s) sep = u ++ before s sep := by
  induction u with
  | nil => rfl
  | cons b u ih =>
    rw [List.mem_cons, not_or] at h
    rw [List.cons_append, before_cons_of_ne (Ne.symm h.1), ih h.2, List.cons_append]

theorem before_of_not_mem (h : sep ∉ s) : before s sep = s := by
  have hs := before_append_of_not_mem h []
  rwa [List.append_nil, before_nil, List.append_nil] at hs

theorem before_append_of_mem (h : sep ∈ s) (v : GoString) : before (s ++ v) sep = before s sep := by
  induction s with
  | nil => cases h
  | cons b s ih =>
    by_cases hb : b = sep
    · rw [hb, List.cons_append, before_cons_self, before_cons_self]
    · rw [List.cons_append, before_cons_of_ne hb, before_cons_of_ne hb,
        ih ((List.mem_cons.1 h).resolve_left (Ne.symm hb))]

/-- What precedes the separator may be trimmed before or after it is cut off. -/
theorem before_trimLeft (s : GoString) (h : sep ∉ cutset) :
    before (trimLeft s cutset) sep = trimLeft (before s sep) cutset := by
  induction s with
  | nil => rfl
  | cons b s ih =>
    by_cases hb : cutset.contains b
    · have hne : b ≠ sep := fun he => h (he ▸ List.contains_iff_mem.1 hb)
      rw [trimLeft, List.dropWhile_cons_of_pos hb, before_cons_of_ne hne, trimLeft,
        List.dropWhile_cons_of_pos hb]
      exact ih
    · rw [trimLeft, List.dropWhile_cons_of_neg hb]
      by_cases hne : b = sep
      · rw [hne, before_cons_self]
        rfl
      · rw [before_cons_of_ne hne, trimLeft, List.dropWhile_cons_of_neg hb]

theorem not_mem_before (s : GoString) (sep : UInt8) : sep ∉ before s sep := by
  intro h
  simpa using List.mem_takeWhile_imp h

/-- Of two cuts, either may be made first. -/
theorem before_comm (s : GoString) (a b : UInt8) :
    before (before s a) b = before (before s b) a := by
  simp only [before, List.takeWhile_takeWhile, and_comm]

theorem afterByte_of_not_mem (h : sep ∉ s) : afterByte s sep = [] := by
  have hall : ∀ b ∈ s, (b != sep) = true := fun b hb => bne_iff_ne.2 fun he => h (he ▸ hb)
  rw [afterByte, List.dropWhile_eq_nil_iff.2 hall, List.drop_nil]

/-- The text after the first separator. -/
theorem afterByte_append {u : GoString} (h : sep ∉ u) (w : GoString) :
    afterByte (u ++ sep :: w) sep = w := by
  have hall : ∀ b ∈ u, (b != sep) = true := fun b hb => bne_iff_ne.2 fun he => h (he ▸ hb)
  rw [afterByte, List.dropWhile_append_of_pos hall, List.dropWhile_cons_of_neg (by simp)]
  rfl

/-- Only the text before a byte that stays can be trimmed from the left. -/
theorem trimLeft_append_cons (u w : GoString) (h : sep ∉ cutset) :
    trimLeft (u ++ sep :: w) cutset = trimLeft u cutset ++ sep :: w := by
  induction u with
  | nil => exact List.dropWhile_cons_of_neg (mt List.contains_iff_mem.1 h)
  | cons b u ih =>
    rw [List.cons_append, trimLeft, trimLeft]
    by_cases hb : cutset.contains b
    · rw [List.dropWhile_cons_of_pos hb, List.dropWhile_cons_of_pos hb]
      exact ih
    · rw [List.dropWhile_cons_of_neg hb, List.dropWhile_cons_of_neg hb, List.cons_append]

theorem not_mem_trimLeft (h : b ∉ s) (cutset : GoString) : b ∉ trimLeft s cutset :=
  fun hm => h ((List.dropWhile_sublist _).subset hm)

theorem trimLeft_trimLeft (s cutset : GoString) :
    trimLeft (trimLeft s cutset) cutset = trimLeft s cutset :=
  List.dropWhile_idempotent _ _

theorem indexByte_eq_none (h : b ∉ s) : indexByte s b = none := by
  rw [indexByte, List.findIdx?_eq_none_iff]
  intro c hc
  exact beq_eq_false_iff_ne.mpr fun hcb => h (hcb ▸ hc)

theorem indexByte_append (h : b ∉ s) : indexByte (s ++ b :: t) b = some s.length := by
  have hnone : s.findIdx? (· == b) = none := indexByte_eq_none h
  simp [indexByte, List.findIdx?_append, hnone, List.findIdx?_cons]

/-! ### Case of ASCII letters -/

theorem lowerByte_lt (h : b < 0x80) : lowerByte b < 0x80 := by
  rw [lowerByte]
  split_ifs with hc
  · simp only [Bool.and_eq_true, decide_eq_true_eq, UInt8.le_iff_toNat_le] at hc
    simp only [UInt8.lt_iff_toNat_lt, UInt8.toNat_add, UInt8.reduceToNat] at hc ⊢
    omega
  · exact h

theorem lowerByte_idem (c : UInt8) : lowerByte (lowerByte c) = lowerByte c := by
  by_cases h : (0x41 ≤ c && c ≤ 0x5A) = true
  · have hc : lowerByte c = c + 0x20 := if_pos h
    rw [hc, lowerByte, if_neg]
    simp only [Bool.and_eq_true, decide_eq_true_eq, UInt8.le_iff_toNat_le, UInt8.toNat_add,
      UInt8.reduceToNat] at h ⊢
    omega
  · have hc : lowerByte c = c := if_neg h
    rw [hc, hc]

theorem upperByte_lt (h : b < 0x80) : upperByte b < 0x80 := by
  revert b
  decide +kernel

theorem upperByte_idem (c : UInt8) : upperByte (upperByte c) = upperByte c := by
  by_cases h : (0x61 ≤ c && c ≤ 0x7A) = true
  · have hc : upperByte c = c - 0x20 := if_pos h
    rw [hc, upperByte, if_neg]
    simp only [Bool.and_eq_true, decide_eq_true_eq, UInt8.le_iff_toNat_le, UInt8.toNat_sub,
      UInt8.reduceToNat] at h ⊢
    omega
  · have hc : upperByte c = c := if_neg h
    rw [hc, hc]

theorem eq_zero_of_lowerByte (h : lowerByte b = 0) : b = 0 := by
  rw [lowerByte] at h
  split_ifs at h with hc
  · simp only [Bool.and_eq_true, decide_eq_true_iff, UInt8.le_iff_toNat_le, ← UInt8.toNat_inj,
      UInt8.toNat_add, UInt8.reduceToNat] at hc h
    omega
  · exact h

theorem lowerByte_upperByte (b : UInt8) : lowerByte (upperByte b) = lowerByte b := by
  revert b
  decide +kernel

/-! ### Characters of a part of a string -/

/-- A multi-byte character is recognised by its own bytes. -/
theorem firstPiece_multi (h : firstPiece b s = .multi (b :: t)) (u : GoString) :
    firstPiece b (t ++ u) = .multi (b :: t) := by
  rw [firstPiece] at h
  split_ifs at h with h₀ h₂ h₃ h₄
  all_goals
    simp only [Piece.multi.injEq, List.cons.injEq, true_and] at h
    subst h
  · exact (if_neg h₀).trans (if_pos h₂)
  · exact (if_neg h₀).trans ((if_neg h₂).trans (if_pos h₃))
  · exact (if_neg h₀).trans ((if_neg h₂).trans ((if_neg h₃).trans (if_pos h₄)))

theorem firstPiece_of_multi {bs : GoString} (h : firstPiece b s = .multi bs) :
    ∃ t, bs = b :: t ∧ t <+: s := by
  obtain ⟨t, ht, hs⟩ := firstPiece_bytes b s
  rw [h] at ht
  exact ⟨t, ht, hs⟩

/-- The first character does not depend on the bytes after it. -/
theorem firstPiece_append {v : GoString} (h : (firstPiece b (s ++ v)).bytes <+: b :: s) :
    firstPiece b s = firstPiece b (s ++ v) := by
  by_cases hb : b < 0x80
  · rw [firstPiece, firstPiece, if_pos hb, if_pos hb]
  cases hs : firstPiece b s with
  | ascii c =>
    rw [firstPiece] at hs
    split_ifs at hs
  | multi bs =>
    obtain ⟨t, rfl, r, rfl⟩ := firstPiece_of_multi hs
    rw [List.append_assoc, firstPiece_multi hs]
  | bad c =>
    cases hv : firstPiece b (s ++ v) with
    | ascii d =>
      rw [firstPiece] at hv
      split_ifs at hv
    | multi bs =>
      -- its bytes lie in `s`, so `s` alone would have shown it
      obtain ⟨t, rfl, -⟩ := firstPiece_of_multi hv
      rw [hv] at h
      obtain ⟨r, rfl⟩ : t <+: s := (List.cons_prefix_cons.1 h).2
      rw [firstPiece_multi hv] at hs
      cases hs
    | bad d =>
      rw [firstPiece] at hs hv
      split_ifs at hs hv
      rw [← hs, ← hv]

/-- Pieces at the front of a string are the pieces of their bytes. -/
theorem pieces_left {l l' : List Piece} (h : pieces s = l ++ l') :
    pieces (l.flatMap Piece.bytes) = l := by
  induction s using pieces_induction generalizing l with
  | nil =>
    obtain ⟨rfl, -⟩ := List.append_eq_nil_iff.1 h.symm
    rfl
  | cons b s ih =>
    cases l with
    | nil => rfl
    | cons p l =>
      rw [pieces_cons, List.cons_append, List.cons.injEq] at h
      obtain ⟨rfl, h⟩ := h
      obtain ⟨t, ht, r, rfl⟩ := firstPiece_bytes b s
      rw [ht, List.length_cons, Nat.add_sub_cancel, List.drop_left] at h ih
      -- what follows the piece is the rest of `l` and then `l'`
      have hr : r = l.flatMap Piece.bytes ++ l'.flatMap Piece.bytes := by
        rw [← List.flatMap_append, ← h, pieces_flatten]
      have hp : firstPiece b (t ++ l.flatMap Piece.bytes) = firstPiece b (t ++ r) := by
        rw [hr, ← List.append_assoc]
        apply firstPiece_append
        rw [List.append_assoc, ← hr, ht]
        exact List.cons_prefix_cons.2 ⟨rfl, List.prefix_append _ _⟩
      rw [List.flatMap_cons, ht, List.cons_append, pieces_cons, hp, ht, List.length_cons,
        Nat.add_sub_cancel, List.drop_left, ih h]

/-- Pieces at the end of a string are the pieces of their bytes. -/
theorem pieces_right {l l' : List Piece} (h : pieces s = l ++ l') :
    pieces (l'.flatMap Piece.bytes) = l' := by
  induction s using pieces_induction generalizing l with
  | nil =>
    obtain ⟨-, rfl⟩ := List.append_eq_nil_iff.1 h.symm
    rfl
  | cons b s ih =>
    cases l with
    | nil =>
      rw [List.nil_append] at h
      rw [← h, pieces_flatten]
    | cons p l =>
      rw [pieces_cons, List.cons_append, List.cons.injEq] at h
      exact ih h.2

/-- The pieces of ASCII text are its bytes. -/
theorem pieces_of_ascii (h : ∀ b ∈ s, b < 0x80) : pieces s = s.map .ascii := by
  induction s with
  | nil => rfl
  | cons b s ih =>
    rw [pieces_ascii (h b List.mem_cons_self), ih fun c hc => h c (List.mem_cons_of_mem b hc),
      List.map_cons]

theorem flatMap_bytes_ascii (s : GoString) : (s.map Piece.ascii).flatMap Piece.bytes = s := by
  rw [List.flatMap_map]
  exact List.flatMap_singleton' s

/-! ### Lower case -/

theorem bad_ge (h : .bad b ∈ pieces s) : 0x80 ≤ b := by
  induction s using pieces_induction with
  | nil => simp at h
  | cons c s ih =>
    rw [pieces_cons, List.mem_cons] at h
    rcases h with h | h
    · simp only [firstPiece] at h
      split_ifs at h with h₀
      obtain rfl := Piece.bad.inj h
      exact UInt8.not_lt.mp h₀
    · exact ih h

/-- An ASCII byte that occurs in a piece is the piece. -/
theorem eq_ascii_of_mem_bytes {p : Piece} (hp : p ∈ pieces s) (hb : b ∈ p.bytes) (hlt : b < 0x80) :
    p = .ascii b := by
  cases p with
  | ascii c => rw [List.mem_singleton.mp hb]
  | multi bs => exact absurd (multi_bytes_ge hp b hb) (UInt8.not_le.mpr hlt)
  | bad c =>
    obtain rfl := List.mem_singleton.mp hb
    exact absurd (bad_ge hp) (UInt8.not_le.mpr hlt)

/-- An ASCII byte of a text is there, in lower case, in the lower-case text. -/
theorem mem_toLower {U : Unicode} (hb : b ∈ s) (hlt : b < 0x80) : lowerByte b ∈ toLower U s := by
  rw [← pieces_flatten s, List.mem_flatMap] at hb
  obtain ⟨p, hp, hbp⟩ := hb
  rw [eq_ascii_of_mem_bytes hp hbp hlt] at hp
  exact List.mem_flatMap.mpr ⟨_, hp, List.mem_singleton.mpr rfl⟩

/-- The lower case of a non-ASCII character is one character, ASCII or not. -/
def Unicode.Runewise (U : Unicode) : Prop :=
  ∀ bs, (∀ b ∈ bs, 0x80 ≤ b) → (U.lower bs).length ≤ 1 ∨ ∀ b ∈ U.lower bs, 0x80 ≤ b

theorem runewise_asciiOnly : Unicode.asciiOnly.Runewise := fun _ h => .inr h

theorem bytes_ne_nil {p : Piece} (hp : p ∈ pieces s) : p.bytes ≠ [] := by
  induction s using pieces_induction with
  | nil => simp at hp
  | cons b s ih =>
    rw [pieces_cons, List.mem_cons] at hp
    rcases hp with rfl | hp
    · obtain ⟨t, ht, -⟩ := firstPiece_bytes b s
      simp [ht]
    · exact ih hp

/-- When the lower-case text starts with an ASCII text, a byte that this text does not have is
not among the first bytes, as many as the text has. -/
theorem not_mem_take_of_toLower {U : Unicode} (hU : U.Runewise) {w : GoString}
    (hw : w <+: toLower U s) (hascii : ∀ c ∈ w, c < 0x80) (hb : b < 0x80) (hbw : lowerByte b ∉ w) :
    b ∉ s.take w.length := by
  -- along the pieces: each gives at least one byte of the text and at most one of `w`
  suffices h : ∀ ps : List Piece, (∀ p ∈ ps, p ∈ pieces s) →
      ∀ w : GoString, w <+: ps.flatMap (Piece.lower U) →
      (∀ c ∈ w, c < 0x80) → lowerByte b ∉ w → b ∉ (ps.flatMap Piece.bytes).take w.length by
    have := h (pieces s) (fun _ hp => hp) w hw hascii hbw
    rwa [pieces_flatten] at this
  intro ps
  induction ps with
  | nil => simp
  | cons p ps ih =>
    intro hps w hw hascii hbw
    obtain ⟨hp, hrest⟩ := List.forall_mem_cons.mp hps
    cases w with
    | nil => simp
    | cons c w =>
      obtain ⟨hc, hwascii⟩ := List.forall_mem_cons.mp hascii
      obtain ⟨hbc, hbw'⟩ := not_or.mp (mt List.mem_cons.mpr hbw)
      rw [List.flatMap_cons] at hw ⊢
      cases p with
      | ascii d =>
        obtain ⟨rfl, hw'⟩ := List.cons_prefix_cons.mp hw
        rw [Piece.bytes, List.singleton_append, List.length_cons, List.take_succ_cons,
          List.mem_cons, not_or]
        exact ⟨fun hbd => hbc (hbd ▸ rfl), ih hrest w hw' hwascii hbw'⟩
      | bad d =>
        obtain ⟨rfl, -⟩ := List.cons_prefix_cons.mp hw
        exact absurd hc (by decide)
      | multi bs =>
        have hge := multi_bytes_ge hp
        have hbs : b ∉ bs := fun h => absurd (hge b h) (UInt8.not_le.mpr hb)
        rw [Piece.bytes, List.take_append, List.mem_append, not_or]
        refine ⟨fun h => hbs (List.mem_of_mem_take h), fun h => ?_⟩
        cases hl : U.lower bs with
        | nil =>
          rw [Piece.lower, hl, List.nil_append] at hw
          exact ih hrest (c :: w) hw hascii hbw (List.take_subset_take_left _ (Nat.sub_le _ _) h)
        | cons d l =>
          rw [Piece.lower, hl] at hw
          obtain ⟨rfl, hw'⟩ := List.cons_prefix_cons.mp hw
          rcases hU bs hge with hone | hwide
          · obtain rfl : l = [] := by simpa [hl] using hone
            have hlen : 1 ≤ bs.length := List.length_pos_iff.mpr (bytes_ne_nil hp)
            exact ih hrest w hw' hwascii hbw'
              (List.take_subset_take_left _ (by rw [List.length_cons]; omega) h)
          · exact absurd (hwide c (by simp [hl])) (UInt8.not_le.mpr hc)

/-! ### White space -/

/-- The non-ASCII characters `unicode.IsSpace` accepts, encoded. -/
def wideSpaces : List GoString :=
  [[0xC2, 0x85], [0xC2, 0xA0], [0xE1, 0x9A, 0x80], [0xE2, 0x80, 0xA8], [0xE2, 0x80, 0xA9],
    [0xE2, 0x80, 0xAF], [0xE2, 0x81, 0x9F], [0xE3, 0x80, 0x80]] ++
    [0x80, 0x81, 0x82, 0x83, 0x84, 0x85, 0x86, 0x87, 0x88, 0x89, 0x8A].map fun b => [0xE2, 0x80, b]

/-- `unicode.IsSpace` on one piece. -/
def Piece.isSpace : Piece → Bool
  | .ascii b => b == 0x20 || (0x09 ≤ b && b ≤ 0x0D)
  | .multi bs => wideSpaces.contains bs
  | .bad _ => false

/-- The pieces between the white space at both ends. -/
def trimPieces (l : List Piece) : List Piece := (l.dropWhile Piece.isSpace).rdropWhile Piece.isSpace

/-- `strings.TrimSpace`. -/
def trimSpace (s : GoString) : GoString := (trimPieces (pieces s)).flatMap Piece.bytes

/-- What is left of a string by trimming is cut out between two characters. -/
theorem pieces_trimSpace (s : GoString) : pieces (trimSpace s) = trimPieces (pieces s) := by
  have h₁ : pieces s = (pieces s).takeWhile Piece.isSpace ++ (pieces s).dropWhile Piece.isSpace :=
    List.takeWhile_append_dropWhile.symm
  have h₂ : pieces (((pieces s).dropWhile Piece.isSpace).flatMap Piece.bytes) =
      (pieces s).dropWhile Piece.isSpace :=
    pieces_right h₁
  obtain ⟨l, hl⟩ : trimPieces (pieces s) <+: (pieces s).dropWhile Piece.isSpace :=
    List.rdropWhile_prefix _ _
  exact pieces_left (h₂.trans hl.symm)

theorem trimPieces_idem (l : List Piece) : trimPieces (trimPieces l) = trimPieces l := by
  have hhead : (trimPieces l).dropWhile Piece.isSpace = trimPieces l := by
    cases h : trimPieces l with
    | nil => rfl
    | cons p t =>
      -- the first piece left is the one the first loop stopped at
      obtain ⟨r, hr⟩ : trimPieces l <+: l.dropWhile Piece.isSpace := List.rdropWhile_prefix _ _
      have hp : ¬ p.isSpace = true := by
        have hne : l.dropWhile Piece.isSpace ≠ [] := by rw [← hr, h]; simp
        have := List.head_dropWhile_not Piece.isSpace hne
        simpa [← hr, h] using this
      rw [List.dropWhile_cons_of_neg hp]
  rw [trimPieces, hhead, trimPieces, List.rdropWhile_idempotent]

theorem trimSpace_idem (s : GoString) : trimSpace (trimSpace s) = trimSpace s := by
  rw [trimSpace, pieces_trimSpace, trimPieces_idem, ← trimSpace]

/-! ### Words between blanks -/

/-- `isASCIISpace` of `net/textproto`: blank, tab and the two line ends. -/
def isBlank (b : UInt8) : Bool := b == 0x20 || b == 0x09 || b == 0x0A || b == 0x0D

/-- `textproto.TrimString`. -/
def trimString (s : GoString) : GoString := (s.dropWhile isBlank).rdropWhile isBlank

/-- The string is `t` with blanks before and after it. -/
def Padded (t s : GoString) : Prop :=
  ∃ u v : GoString, (∀ b ∈ u, isBlank b) ∧ (∀ b ∈ v, isBlank b) ∧ s = u ++ t ++ v

theorem padded_trimString (s : GoString) : Padded (trimString s) s := by
  refine ⟨s.takeWhile isBlank, (s.dropWhile isBlank).rtakeWhile isBlank, ?_, ?_, ?_⟩
  · exact fun b hb => List.mem_takeWhile_imp hb
  · exact fun b hb => List.mem_rtakeWhile_imp hb
  · rw [trimString, List.append_assoc, List.rdropWhile_append_rtakeWhile,
      List.takeWhile_append_dropWhile]

theorem le_of_isBlank (h : isBlank b) : b ≤ 0x20 := by
  simp only [isBlank, Bool.or_eq_true, beq_iff_eq] at h
  rcases h with ((rfl | rfl) | rfl) | rfl <;> decide

/-- Blanks around a string are around what it has before the separator, unless they are behind it.
-/
theorem padded_before {q p : GoString} (hsep : isBlank sep = false) (hp : Padded q p)
    (ht : Padded t (before q sep)) : Padded t (before p sep) := by
  obtain ⟨u, v, hu, hv, rfl⟩ := hp
  obtain ⟨u', v', hu', hv', hq⟩ := ht
  have hnot : ∀ w : GoString, (∀ b ∈ w, isBlank b) → sep ∉ w := fun w hw hm => by
    simp [hw sep hm] at hsep
  have hblank : ∀ w w' : GoString, (∀ b ∈ w, isBlank b) → (∀ b ∈ w', isBlank b) →
      ∀ b ∈ w ++ w', isBlank b := by
    intro w w' h h' b hb
    exact (List.mem_append.1 hb).elim (h b) (h' b)
  rw [List.append_assoc, before_append_of_not_mem (hnot u hu)]
  by_cases hm : sep ∈ q
  · refine ⟨u ++ u', v', hblank _ _ hu hu', hv', ?_⟩
    rw [before_append_of_mem hm, hq]
    simp
  · refine ⟨u ++ u', v' ++ v, hblank _ _ hu hu', hblank _ _ hv' hv, ?_⟩
    rw [before_of_not_mem hm] at hq
    rw [before_of_not_mem, hq]
    · simp
    · exact fun h => (List.mem_append.1 h).elim hm (hnot v hv)

/-- Taking blanks off the left leaves a word between blanks. -/
theorem padded_trimLeft (h : Padded t s) (hne : t ≠ []) (ht : ∀ b ∈ t, b ∉ cutset) :
    Padded t (trimLeft s cutset) := by
  obtain ⟨u, v, hu, hv, rfl⟩ := h
  have hstop : (t ++ v).dropWhile cutset.contains = t ++ v := by
    obtain ⟨b, t, rfl⟩ := List.exists_cons_of_ne_nil hne
    rw [List.cons_append, List.dropWhile_cons_of_neg]
    exact fun hb => ht b List.mem_cons_self (List.contains_iff_mem.1 hb)
  refine ⟨u.dropWhile cutset.contains, v, fun b hb => hu b ((List.dropWhile_sublist _).subset hb),
    hv, ?_⟩
  rw [trimLeft, List.append_assoc, List.append_assoc, List.dropWhile_append, hstop]
  split_ifs with he
  · rw [List.isEmpty_iff.1 he, List.nil_append]
  · rfl

/-- `textproto.TrimString` does not see whether blanks have been taken off the left. -/
theorem trimString_trimLeft (s : GoString) (h : ∀ b ∈ cutset, isBlank b) :
    trimString (trimLeft s cutset) = trimString s := by
  have hdrop : (trimLeft s cutset).dropWhile isBlank = s.dropWhile isBlank := by
    induction s with
    | nil => rfl
    | cons b s ih =>
      rw [trimLeft]
      by_cases hb : cutset.contains b
      · rw [List.dropWhile_cons_of_pos hb,
          List.dropWhile_cons_of_pos (h b (List.contains_iff_mem.1 hb))]
        exact ih
      · rw [List.dropWhile_cons_of_neg hb]
  rw [trimString, hdrop, trimString]

/-- Both loops of a trimming function stop at the ends of a word. -/
theorem trim_pad {α : Type} {p : α → Bool} {u t v : List α} (hu : ∀ x ∈ u, p x) (hv : ∀ x ∈ v, p x)
    (ht : ∀ x ∈ t, p x = false) : ((u ++ t ++ v).dropWhile p).rdropWhile p = t := by
  cases t with
  | nil =>
    rw [List.append_nil, List.dropWhile_append_of_pos hu, List.rdropWhile_eq_nil_iff]
    exact fun x hx => hv x ((List.dropWhile_sublist p).subset hx)
  | cons a t =>
    have hd : (u ++ (a :: t) ++ v).dropWhile p = a :: t ++ v := by
      rw [List.append_assoc, List.dropWhile_append_of_pos hu, List.cons_append,
        List.dropWhile_cons_of_neg (by simp [ht a])]
    rw [hd, List.rdropWhile, List.reverse_append, List.dropWhile_append_of_pos (by simpa using hv)]
    have hlast : (a :: t).reverse.dropWhile p = (a :: t).reverse := by
      rw [List.dropWhile_eq_self_iff]
      intro hl
      rw [ht _ (List.mem_reverse.1 (List.getElem_mem hl))]
      simp
    rw [hlast, List.reverse_reverse]

/-- `strings.TrimSpace` finds a word of visible ASCII between blanks, as `textproto.TrimString`
does. -/
theorem trimSpace_pad (h : Padded t s) (ht : ∀ b ∈ t, 0x20 < b ∧ b < 0x80) : trimSpace s = t := by
  obtain ⟨u, v, hu, hv, rfl⟩ := h
  have hblank : ∀ b : UInt8, isBlank b = true → b < 0x80 ∧ (Piece.ascii b).isSpace = true := by
    intro b hb
    simp only [isBlank, Bool.or_eq_true, beq_iff_eq] at hb
    rcases hb with ((rfl | rfl) | rfl) | rfl <;> decide
  have hword : ∀ b ∈ t, (Piece.ascii b).isSpace = false := by
    intro b hb
    obtain ⟨h₁, -⟩ := ht b hb
    simp only [Piece.isSpace, Bool.or_eq_false_iff, beq_eq_false_iff_ne, Bool.and_eq_false_iff,
      decide_eq_false_iff_not]
    refine ⟨ne_of_gt h₁, Or.inr ?_⟩
    simp only [UInt8.lt_iff_toNat_lt, UInt8.le_iff_toNat_le, UInt8.reduceToNat] at h₁ ⊢
    omega
  have hascii : ∀ b ∈ u ++ t ++ v, b < 0x80 := by
    intro b hb
    rcases List.mem_append.1 hb with hb | hb
    · rcases List.mem_append.1 hb with hb | hb
      · exact (hblank b (hu b hb)).1
      · exact (ht b hb).2
    · exact (hblank b (hv b hb)).1
  rw [trimSpace, pieces_of_ascii hascii, List.map_append, List.map_append, trimPieces, trim_pad]
  · exact flatMap_bytes_ascii t
  · intro p hp
    obtain ⟨b, hb, rfl⟩ := List.mem_map.1 hp
    exact (hblank b (hu b hb)).2
  · intro p hp
    obtain ⟨b, hb, rfl⟩ := List.mem_map.1 hp
    exact (hblank b (hv b hb)).2
  · intro p hp
    obtain ⟨b, hb, rfl⟩ := List.mem_map.1 hp
    exact hword b hb

end HttpCatch.Go
