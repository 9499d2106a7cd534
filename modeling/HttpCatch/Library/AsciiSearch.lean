import HttpCatch.Library.Json
import HttpCatch.Library.LowerCase

/-!
# Searching for ASCII text

An ASCII text occurs in a string within a run of its ASCII characters. Whatever is done to the
other characters, it is still there, and it is nowhere else as long as they do not turn into ASCII.

## Main results

* `infix_valid_iff`, `suffix_valid_iff`: replacing invalid UTF-8 does not change which ASCII texts
  occur before the first NUL, nor which end there.
* `infix_toLower`: what occurs up to the case of ASCII letters occurs in the lower-case string.
-/

namespace HttpCatch.Go

open HttpCatch.Json

/-- Bytes that are not ASCII, and some of them. -/
def Above (t : GoString) : Prop := t ≠ [] ∧ ∀ b ∈ t, 0x80 ≤ b

section

variable {f g : Piece → GoString} {ps : List Piece} {n : GoString}

/-- Pieces that `f` turns into something that is not ASCII, or that `f` and `g` turn into the same
byte. -/
def AsciiAlike (f g : Piece → GoString) (ps : List Piece) : Prop :=
  ∀ p ∈ ps, (∃ c, f p = [c] ∧ g p = [c]) ∨ Above (f p)

theorem prefix_of_asciiAlike (h : AsciiAlike f g ps) (hn : ∀ b ∈ n, b < 0x80)
    (hpre : n <+: ps.flatMap f) : n <+: ps.flatMap g := by
  induction ps generalizing n with
  | nil => exact hpre
  | cons p ps ih =>
    cases n with
    | nil => exact List.nil_prefix
    | cons c n =>
      rw [List.flatMap_cons] at hpre ⊢
      obtain ⟨hp, hps⟩ := List.forall_mem_cons.1 h
      rcases hp with ⟨d, hf, hg⟩ | ⟨hne, hge⟩
      · rw [hf, List.cons_append, List.cons_prefix_cons] at hpre
        rw [hg, List.cons_append, List.cons_prefix_cons]
        exact ⟨hpre.1, ih hps (fun b hb => hn b (List.mem_cons_of_mem c hb)) hpre.2⟩
      · -- the text cannot begin with a byte that is not ASCII
        obtain ⟨b, bs, hf⟩ := List.exists_cons_of_ne_nil hne
        rw [hf, List.cons_append, List.cons_prefix_cons] at hpre
        have hb := hge b (hf ▸ List.mem_cons_self)
        exact absurd (hn c List.mem_cons_self) (not_lt_of_ge (hpre.1 ▸ hb))

/-- ASCII text is not found where there is none. -/
theorem infix_of_infix_append {a s : GoString} (ha : ∀ b ∈ a, 0x80 ≤ b) (hn : ∀ b ∈ n, b < 0x80)
    (hne : n ≠ []) (h : n <:+: a ++ s) : n <:+: s := by
  induction a with
  | nil => exact h
  | cons b a ih =>
    obtain ⟨hb, ha⟩ := List.forall_mem_cons.1 ha
    rw [List.cons_append, List.infix_cons_iff] at h
    refine h.elim (fun hpre => ?_) (ih ha)
    obtain ⟨c, n, rfl⟩ := List.exists_cons_of_ne_nil hne
    have hbc := (List.cons_prefix_cons.1 hpre).1
    exact absurd (hn c List.mem_cons_self) (not_lt_of_ge (hbc ▸ hb))

theorem infix_of_asciiAlike (h : AsciiAlike f g ps) (hn : ∀ b ∈ n, b < 0x80)
    (hin : n <:+: ps.flatMap f) : n <:+: ps.flatMap g := by
  by_cases hne : n = []
  · exact hne ▸ List.nil_infix
  induction ps with
  | nil => exact hin
  | cons p ps ih =>
    have hpre : n <+: (p :: ps).flatMap f → n <+: (p :: ps).flatMap g := prefix_of_asciiAlike h hn
    rw [List.flatMap_cons] at hin hpre ⊢
    rw [List.flatMap_cons] at hpre
    obtain ⟨hp, hps⟩ := List.forall_mem_cons.1 h
    rcases hp with ⟨d, hf, hg⟩ | ⟨-, hge⟩
    · rw [hf, List.cons_append, List.nil_append, List.infix_cons_iff] at hin
      rcases hin with hin | hin
      · rw [hf] at hpre
        exact (hpre hin).isInfix
      · exact (ih hps hin).trans (List.suffix_append (g p) _).isInfix
    · exact (ih hps (infix_of_infix_append hge hn hne hin)).trans
        (List.suffix_append (g p) _).isInfix

theorem suffix_of_asciiAlike (h : AsciiAlike f g ps) (hn : ∀ b ∈ n, b < 0x80)
    (hsuf : n <:+ ps.flatMap f) : n <:+ ps.flatMap g := by
  -- read backwards, it is a prefix
  have hback : AsciiAlike (fun p => (f p).reverse) (fun p => (g p).reverse) ps.reverse := by
    intro p hp
    rcases h p (List.mem_reverse.1 hp) with ⟨c, hf, hg⟩ | ⟨hne, hge⟩
    · exact .inl ⟨c, by simp [hf], by simp [hg]⟩
    · exact .inr ⟨mt List.reverse_eq_nil_iff.1 hne, fun b hb => hge b (List.mem_reverse.1 hb)⟩
  rw [← List.reverse_prefix, List.reverse_flatMap] at hsuf ⊢
  exact prefix_of_asciiAlike hback (fun b hb => hn b (List.mem_reverse.1 hb)) hsuf

/-- A NUL is a piece by itself, and so is cut off with all the pieces behind it. -/
theorem before_flatMap (hzero : f (.ascii 0) = [0]) (h : ∀ p ∈ ps, p ≠ .ascii 0 → 0 ∉ f p) :
    before (ps.flatMap f) 0 = (ps.takeWhile (· ≠ .ascii 0)).flatMap f := by
  induction ps with
  | nil => rfl
  | cons p ps ih =>
    obtain ⟨hp, hps⟩ := List.forall_mem_cons.1 h
    by_cases hnul : p = .ascii 0
    · subst hnul
      rw [List.flatMap_cons, hzero, List.singleton_append, before_cons_self]
      rfl
    · rw [List.flatMap_cons, before_append_of_not_mem (hp hnul), ih hps,
        List.takeWhile_cons_of_pos (by simpa using hnul), List.flatMap_cons]

end

variable {n s : GoString}

theorem map_lowerByte_eq (s : GoString) :
    s.map lowerByte = (pieces s).flatMap fun p => p.bytes.map lowerByte := by
  conv_lhs => rw [← pieces_flatten s, List.map_flatMap]

/-- A piece is ASCII, or as it is and read back from JSON it has no ASCII bytes. -/
theorem ascii_or_above {p : Piece} (hp : p ∈ pieces s) :
    (∃ b, p = .ascii b) ∨
      Above (p.bytes.map lowerByte) ∧ Above ((validPiece p).map lowerByte) := by
  have habove : ∀ {t : GoString}, t ≠ [] → (∀ b ∈ t, 0x80 ≤ b) → Above (t.map lowerByte) := by
    intro t hne hge
    have hsame : t.map lowerByte = t :=
      (List.map_congr_left fun b hb => lowerByte_of_ge (hge b hb)).trans (List.map_id _)
    exact hsame.symm ▸ ⟨hne, hge⟩
  cases p with
  | ascii b => exact .inl ⟨b, rfl⟩
  | multi bs =>
    have h := habove (bytes_ne_nil hp) (multi_bytes_ge hp)
    exact .inr ⟨h, h⟩
  | bad b =>
    have hrune : ∀ c ∈ runeError, 0x80 ≤ c := by decide +kernel
    exact .inr ⟨habove (bytes_ne_nil hp) (by simpa [Piece.bytes] using bad_ge hp),
      habove (List.cons_ne_nil _ _) hrune⟩

/-- **What occurs up to the case of ASCII letters occurs in the lower-case string.** -/
theorem infix_toLower (U : Unicode) (hn : ∀ b ∈ n, b < 0x80) (h : n <:+: s.map lowerByte) :
    n <:+: toLower U s := by
  rw [map_lowerByte_eq] at h
  refine infix_of_asciiAlike (fun p hp => ?_) hn h
  rcases ascii_or_above hp with ⟨b, rfl⟩ | ⟨habove, -⟩
  · exact .inl ⟨lowerByte b, rfl, rfl⟩
  · exact .inr habove

/-- Read back from JSON or not, a piece is not ASCII or is the same byte. -/
theorem asciiAlike_valid {ps : List Piece} (h : ps ⊆ pieces s) :
    AsciiAlike (fun p => (validPiece p).map lowerByte) (fun p => p.bytes.map lowerByte) ps ∧
      AsciiAlike (fun p => p.bytes.map lowerByte) (fun p => (validPiece p).map lowerByte) ps := by
  constructor
  · intro p hp
    rcases ascii_or_above (h hp) with ⟨b, rfl⟩ | ⟨-, habove⟩
    · exact .inl ⟨lowerByte b, rfl, rfl⟩
    · exact .inr habove
  · intro p hp
    rcases ascii_or_above (h hp) with ⟨b, rfl⟩ | ⟨habove, -⟩
    · exact .inl ⟨lowerByte b, rfl, rfl⟩
    · exact .inr habove

/-- The text before the first NUL, and the same read back from JSON, by the pieces of the text. -/
theorem before_lower (s : GoString) :
    before (s.map lowerByte) 0 = ((pieces s).takeWhile (· ≠ .ascii 0)).flatMap
        (fun p => p.bytes.map lowerByte) ∧
      before ((toValidUTF8 s).map lowerByte) 0 = ((pieces s).takeWhile (· ≠ .ascii 0)).flatMap
        fun p => (validPiece p).map lowerByte := by
  have hzero : ∀ p ∈ pieces s, p ≠ .ascii 0 →
      0 ∉ p.bytes.map lowerByte ∧ 0 ∉ (validPiece p).map lowerByte := by
    intro p hp hne
    rcases ascii_or_above hp with ⟨b, rfl⟩ | ⟨h, h'⟩
    · have hb : 0 ∉ [lowerByte b] := fun hmem =>
        hne (congrArg Piece.ascii (eq_zero_of_lowerByte (List.mem_singleton.1 hmem).symm))
      exact ⟨hb, hb⟩
    · exact ⟨fun hmem => absurd (h.2 0 hmem) (by decide),
        fun hmem => absurd (h'.2 0 hmem) (by decide)⟩
  constructor
  · rw [map_lowerByte_eq, before_flatMap rfl fun p hp hne => (hzero p hp hne).1]
  · rw [toValidUTF8_eq, List.map_flatMap, before_flatMap rfl fun p hp hne => (hzero p hp hne).2]

/-- **Replacing invalid UTF-8 does not change which ASCII texts occur before a NUL.** -/
theorem infix_valid_iff (hn : ∀ b ∈ n, b < 0x80) :
    n <:+: before ((toValidUTF8 s).map lowerByte) 0 ↔ n <:+: before (s.map lowerByte) 0 := by
  have halike := asciiAlike_valid (List.takeWhile_subset (fun p => decide (p ≠ .ascii 0))
    (l := pieces s))
  rw [(before_lower s).1, (before_lower s).2]
  exact ⟨infix_of_asciiAlike halike.1 hn, infix_of_asciiAlike halike.2 hn⟩

/-- **Nor does it change which ASCII texts end there.** -/
theorem suffix_valid_iff (hn : ∀ b ∈ n, b < 0x80) :
    n <:+ before ((toValidUTF8 s).map lowerByte) 0 ↔ n <:+ before (s.map lowerByte) 0 := by
  have halike := asciiAlike_valid (List.takeWhile_subset (fun p => decide (p ≠ .ascii 0))
    (l := pieces s))
  rw [(before_lower s).1, (before_lower s).2]
  exact ⟨suffix_of_asciiAlike halike.1 hn, suffix_of_asciiAlike halike.2 hn⟩

/-- Only an ASCII text is read back from JSON as one. -/
theorem toValidUTF8_eq_iff (hn : ∀ b ∈ n, b < 0x80) : toValidUTF8 s = n ↔ s = n := by
  constructor
  · intro h
    rw [← h]
    refine (toValidUTF8_of_text fun b hb => ?_).symm
    have hmem : 0xEF ∈ toValidUTF8 s := by
      rw [toValidUTF8_eq]
      exact List.mem_flatMap.2 ⟨.bad b, hb, List.mem_cons_self⟩
    exact absurd (hn 0xEF (h ▸ hmem)) (by decide)
  · rintro rfl
    exact toValidUTF8_of_text fun b hb => by simp [pieces_of_ascii hn] at hb

end HttpCatch.Go
