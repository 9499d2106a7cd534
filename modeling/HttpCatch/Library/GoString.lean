import Mathlib

/-!
# Go strings

A Go `string` is a sequence of bytes, not of characters: comparison, search and
indexing are bytewise, and only `range`, `strings.ToLower` and their like decode
UTF-8 on the way. This module keeps that view. `GoString` is a list of bytes with
the bytewise order; `pieces` cuts a string as a decoding loop does, into ASCII
bytes, multi-byte characters and bytes that are not valid UTF-8; the functions of
the packages `strings`, `bytes` and `net/textproto` that the program calls are
defined on top.

The Unicode case tables are not part of the language, so `toLower` and `toUpper`
take them as a parameter `U : Unicode`, one map on the encoded multi-byte
characters for each; the ASCII half is fixed.
-/

namespace HttpCatch.Go

/-- A Go `string`, or the contents of a `[]byte`. -/
abbrev GoString := List UInt8

/-- Bytes are ordered as numbers, so lists of them are ordered as Go strings are. -/
instance uint8LinearOrder : LinearOrder UInt8 where
  le_refl := UInt8.le_refl
  le_trans := fun _ _ _ => UInt8.le_trans
  le_antisymm := fun _ _ => UInt8.le_antisymm
  le_total := UInt8.le_total
  lt_iff_le_not_ge := fun a b => by
    simp only [UInt8.le_iff_toNat_le, UInt8.lt_iff_toNat_lt]
    omega
  toDecidableLE := inferInstance

instance goStringLawful : LawfulBEq GoString := inferInstance

/-- The bytes of an ASCII literal of the source. -/
def str (s : String) : GoString := s.toList.map fun c => UInt8.ofNat c.toNat

/-! ### Search -/

/-- `strings.HasPrefix s p`. -/
def hasPrefix (s p : GoString) : Bool := decide (p <+: s)

/-- `strings.HasSuffix s p`. -/
def hasSuffix (s p : GoString) : Bool := decide (p <:+ s)

/-- `strings.Contains s p`, and `bytes.Contains`. -/
def contains (s p : GoString) : Bool := decide (p <:+: s)

/-- `strings.IndexByte s b`, with `none` for `-1`. -/
def indexByte (s : GoString) (b : UInt8) : Option ℕ := s.findIdx? (· == b)

@[simp] theorem hasPrefix_iff (s p : GoString) : hasPrefix s p = true ↔ p <+: s := by
  simp [hasPrefix]

@[simp] theorem hasSuffix_iff (s p : GoString) : hasSuffix s p = true ↔ p <:+ s := by
  simp [hasSuffix]

@[simp] theorem contains_iff (s p : GoString) : contains s p = true ↔ p <:+: s := by
  simp [contains]

/-! ### Decoding -/

/-- A continuation byte of UTF-8. -/
def isCont (b : UInt8) : Bool := 0x80 ≤ b && b ≤ 0xBF

/-- The two bytes encode a character. -/
def isPair (b₀ b₁ : UInt8) : Bool := 0xC2 ≤ b₀ && b₀ ≤ 0xDF && isCont b₁

/-- The three bytes encode a character: no overlong form, no surrogate. -/
def isTriple (b₀ b₁ b₂ : UInt8) : Bool :=
  (b₀ == 0xE0 && 0xA0 ≤ b₁ || 0xE1 ≤ b₀ && b₀ ≤ 0xEC || b₀ == 0xED && b₁ ≤ 0x9F ||
    0xEE ≤ b₀ && b₀ ≤ 0xEF) && isCont b₁ && isCont b₂

/-- The four bytes encode a character: no overlong form, nothing above `U+10FFFF`. -/
def isQuad (b₀ b₁ b₂ b₃ : UInt8) : Bool :=
  (b₀ == 0xF0 && 0x90 ≤ b₁ || 0xF1 ≤ b₀ && b₀ ≤ 0xF3 || b₀ == 0xF4 && b₁ ≤ 0x8F) &&
    isCont b₁ && isCont b₂ && isCont b₃

/-- What `utf8.DecodeRune` finds at the front of a string. -/
inductive Piece where
  /-- An ASCII byte. -/
  | ascii (b : UInt8)
  /-- A character of two to four bytes, as encoded. -/
  | multi (bs : GoString)
  /-- A byte that starts no valid encoding; it decodes to `U+FFFD`, one byte wide. -/
  | bad (b : UInt8)
  deriving DecidableEq

/-- The bytes a piece was read from. -/
def Piece.bytes : Piece → GoString
  | .ascii b => [b]
  | .multi bs => bs
  | .bad b => [b]

/-- The first piece of `b₀ :: s`. Reading `0` past the end is harmless: it is no
continuation byte. -/
def firstPiece (b₀ : UInt8) (s : GoString) : Piece :=
  if b₀ < 0x80 then .ascii b₀
  else if isPair b₀ (s.getD 0 0) then .multi [b₀, s.getD 0 0]
  else if isTriple b₀ (s.getD 0 0) (s.getD 1 0) then .multi [b₀, s.getD 0 0, s.getD 1 0]
  else if isQuad b₀ (s.getD 0 0) (s.getD 1 0) (s.getD 2 0) then
    .multi [b₀, s.getD 0 0, s.getD 1 0, s.getD 2 0]
  else .bad b₀

/-- The decoding loop, `k` bytes of the string already read as part of a piece. -/
def piecesFrom : ℕ → GoString → List Piece
  | _, [] => []
  | k + 1, _ :: s => piecesFrom k s
  | 0, b :: s => firstPiece b s :: piecesFrom ((firstPiece b s).bytes.length - 1) s

/-- The pieces of a string, in order: the loop `for _, r := range s`. -/
def pieces (s : GoString) : List Piece := piecesFrom 0 s

/-- A piece at the front of `b :: s` is read from its first bytes, and at least one. -/
theorem firstPiece_bytes (b : UInt8) (s : GoString) :
    ∃ t, (firstPiece b s).bytes = b :: t ∧ t <+: s := by
  have hcont : isCont 0 = false := by decide
  rcases s with _ | ⟨b₁, _ | ⟨b₂, _ | ⟨b₃, s⟩⟩⟩ <;>
    simp only [firstPiece, List.getD_eq_getElem?_getD] <;>
    split_ifs <;> simp_all [Piece.bytes, isPair, isTriple, isQuad]

theorem piecesFrom_drop (k : ℕ) (s : GoString) : piecesFrom k s = piecesFrom 0 (s.drop k) := by
  induction s generalizing k with
  | nil => cases k <;> rfl
  | cons b s ih =>
    cases k with
    | zero => rfl
    | succ k => rw [piecesFrom, ih, List.drop_succ_cons]

@[simp] theorem pieces_nil : pieces [] = [] := rfl

/-- One round of the decoding loop. -/
theorem pieces_cons (b : UInt8) (s : GoString) :
    pieces (b :: s) = firstPiece b s :: pieces (s.drop ((firstPiece b s).bytes.length - 1)) := by
  rw [pieces, piecesFrom, piecesFrom_drop, pieces]

/-- An ASCII byte is a piece by itself. -/
theorem pieces_ascii {b : UInt8} (hb : b < 0x80) (s : GoString) :
    pieces (b :: s) = .ascii b :: pieces s := by
  have h : firstPiece b s = .ascii b := by rw [firstPiece, if_pos hb]
  rw [pieces_cons, h]
  rfl

/-- Induction along the decoding loop. -/
theorem pieces_induction {P : GoString → Prop} (nil : P [])
    (cons : ∀ b s, P (s.drop ((firstPiece b s).bytes.length - 1)) → P (b :: s)) : ∀ s, P s
  | [] => nil
  | b :: s => cons b s (pieces_induction nil cons _)
termination_by s => s.length
decreasing_by simp only [List.length_drop, List.length_cons]; omega

/-- Cutting a string into pieces loses nothing. -/
theorem pieces_flatten (s : GoString) : (pieces s).flatMap Piece.bytes = s := by
  induction s using pieces_induction with
  | nil => rfl
  | cons b s ih =>
    obtain ⟨t, ht, r, rfl⟩ := firstPiece_bytes b s
    rw [pieces_cons, List.flatMap_cons, ih, ht]
    simp

/-- The bytes of a multi-byte character all have their top bit set. -/
theorem multi_bytes_ge {s bs : GoString} (h : .multi bs ∈ pieces s) : ∀ b ∈ bs, 0x80 ≤ b := by
  induction s using pieces_induction with
  | nil => simp at h
  | cons b s ih =>
    rw [pieces_cons, List.mem_cons] at h
    rcases h with h | h
    · simp only [firstPiece] at h
      split_ifs at h with h₀ h₂ h₃ h₄ <;> simp only [Piece.multi.injEq] at h <;> subst h <;>
        simp_all [isPair, isTriple, isQuad, isCont]
    · exact ih h

theorem ascii_lt {s : GoString} {b : UInt8} (h : .ascii b ∈ pieces s) : b < 0x80 := by
  induction s using pieces_induction with
  | nil => simp at h
  | cons c s ih =>
    rw [pieces_cons, List.mem_cons] at h
    rcases h with h | h
    · simp only [firstPiece] at h
      split_ifs at h with h₀
      simp only [Piece.ascii.injEq] at h
      exact h ▸ h₀
    · exact ih h

/-! ### Case -/

/-- ASCII lower case. -/
def lowerByte (b : UInt8) : UInt8 := if 0x41 ≤ b && b ≤ 0x5A then b + 0x20 else b

/-- ASCII upper case. -/
def upperByte (b : UInt8) : UInt8 := if 0x61 ≤ b && b ≤ 0x7A then b - 0x20 else b

theorem lowerByte_of_ge {b : UInt8} (h : 0x80 ≤ b) : lowerByte b = b := by
  rw [lowerByte, if_neg]
  simp only [Bool.and_eq_true, decide_eq_true_eq, UInt8.le_iff_toNat_le] at h ⊢
  simp only [UInt8.reduceToNat] at h ⊢
  omega

/-- The case tables: `unicode.ToLower` and `unicode.ToUpper` on the encoding of one
non-ASCII character. -/
structure Unicode where
  /-- The encoding of the lower-case character. -/
  lower : GoString → GoString
  /-- The encoding of the upper-case character. -/
  upper : GoString → GoString

/-- The tables in which only ASCII letters have case. -/
def Unicode.asciiOnly : Unicode := ⟨id, id⟩

/-- The encoding of `utf8.RuneError`, `U+FFFD`. -/
def runeError : GoString := [0xEF, 0xBF, 0xBD]

variable (U : Unicode)

/-- `unicode.ToLower` on one piece. -/
def Piece.lower : Piece → GoString
  | .ascii b => [lowerByte b]
  | .multi bs => U.lower bs
  | .bad _ => runeError

/-- `unicode.ToUpper` on one piece. -/
def Piece.upper : Piece → GoString
  | .ascii b => [upperByte b]
  | .multi bs => U.upper bs
  | .bad _ => runeError

/-- `strings.ToLower`, and `bytes.ToLower`. -/
def toLower (s : GoString) : GoString := (pieces s).flatMap (Piece.lower U)

/-- `strings.ToUpper`. -/
def toUpper (s : GoString) : GoString := (pieces s).flatMap (Piece.upper U)

/-- A string on which `toLower` does no more than ASCII lower case: it is valid UTF-8
and none of its other characters has a lower-case form. -/
def Caseless (s : GoString) : Prop :=
  ∀ p ∈ pieces s, match p with
    | .ascii _ => True
    | .multi bs => U.lower bs = bs
    | .bad _ => False

theorem Caseless.toLower_eq {U : Unicode} {s : GoString} (h : Caseless U s) :
    toLower U s = s.map lowerByte := by
  have hp : ∀ p ∈ pieces s, Piece.lower U p = p.bytes.map lowerByte := by
    intro p hp
    have := h p hp
    cases p with
    | ascii b => rfl
    | multi bs =>
      simp only at this
      rw [Piece.lower, this, Piece.bytes]
      calc bs = bs.map id := (List.map_id bs).symm
        _ = bs.map lowerByte :=
          List.map_congr_left fun b hb => (lowerByte_of_ge (multi_bytes_ge hp b hb)).symm
    | bad b => exact this.elim
  conv_rhs => rw [← pieces_flatten s, List.map_flatMap]
  rw [toLower]
  exact List.flatMap_congr hp

theorem caseless_of_ascii {s : GoString} (h : ∀ b ∈ s, b < 0x80) : Caseless U s := by
  induction s with
  | nil => simp [Caseless]
  | cons b s ih =>
    have hb := h b List.mem_cons_self
    intro p hp
    rw [pieces_ascii hb, List.mem_cons] at hp
    rcases hp with rfl | hp
    · trivial
    · exact ih (fun b hb => h b (List.mem_cons_of_mem _ hb)) p hp

/-! ### Lists of keys and values -/

theorem mem_of_lookup {α β : Type} [BEq α] [LawfulBEq α] {l : List (α × β)} {a : α} {b : β}
    (h : l.lookup a = some b) :
    (a, b) ∈ l := by
  induction l with
  | nil => cases h
  | cons kv l ih =>
    obtain ⟨k, v⟩ := kv
    rw [List.lookup_cons] at h
    split at h
    · rename_i hk
      obtain rfl := eq_of_beq hk
      obtain rfl := Option.some.inj h
      exact List.mem_cons_self
    · exact List.mem_cons_of_mem _ (ih h)

end HttpCatch.Go
