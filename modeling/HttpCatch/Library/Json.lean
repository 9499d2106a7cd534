import HttpCatch.Library.GoString

/-!
# JSON text of string maps

`encoding/json` writes a `map[string][]string` as an object whose keys are sorted
and whose members are arrays of strings; a nil map and a nil slice are `null`. The
default encoder is HTML-safe: besides quotes, backslashes and control characters it
escapes `<`, `>` and `&`, the separators `U+2028` and `U+2029`, and it replaces bytes
that are not valid UTF-8 by `U+FFFD`.

`marshal` is that encoder. On the reading side there are a lexer (`lex`, one state
per position inside a string literal) and `member`, which finds a key's array of
strings, as `json_each(json_extract(doc, '$."key"'))` does. The theorem that joins
them is `member_marshal`: looking a name up in the text of a map gives the values the
map has for it, with invalid UTF-8 replaced.
-/

namespace HttpCatch.Json

open HttpCatch.Go

/-! ### Writing -/

/-- A hexadecimal digit, lower case. -/
def hexDigit (n : ℕ) : UInt8 := if n < 10 then UInt8.ofNat (0x30 + n) else UInt8.ofNat (0x57 + n)

/-- How an ASCII byte stands inside a string literal. -/
def escapeAscii (b : UInt8) : GoString :=
  if b = 0x22 ∨ b = 0x5C then [0x5C, b]
  else if b = 0x08 then str "\\b"
  else if b = 0x0C then str "\\f"
  else if b = 0x0A then str "\\n"
  else if b = 0x0D then str "\\r"
  else if b = 0x09 then str "\\t"
  else if b < 0x20 ∨ b = 0x3C ∨ b = 0x3E ∨ b = 0x26 then
    str "\\u00" ++ [hexDigit (b.toNat / 16), hexDigit (b.toNat % 16)]
  else [b]

/-- How a piece of a string stands inside a string literal. -/
def escapePiece : Piece → GoString
  | .ascii b => escapeAscii b
  | .multi bs =>
    if bs = [0xE2, 0x80, 0xA8] then str "\\u2028"
    else if bs = [0xE2, 0x80, 0xA9] then str "\\u2029"
    else bs
  | .bad _ => str "\\ufffd"

/-- A string literal. -/
def marshalString (s : GoString) : GoString := 0x22 :: ((pieces s).flatMap escapePiece ++ [0x22])

/-- Texts separated by commas. -/
def commaJoin : List GoString → GoString
  | [] => []
  | x :: xs => x ++ xs.flatMap (0x2C :: ·)

/-- `json.Marshal` of a `[]string`; `none` is the nil slice. -/
def marshalSlice : Option (List GoString) → GoString
  | none => str "null"
  | some vs => 0x5B :: (commaJoin (vs.map marshalString) ++ [0x5D])

/-- One member of an object. -/
def marshalMember (kv : GoString × Option (List GoString)) : GoString :=
  marshalString kv.1 ++ 0x3A :: marshalSlice kv.2

/-- The members in the order they are written: by key. -/
def sortMembers (m : List (GoString × Option (List GoString))) :
    List (GoString × Option (List GoString)) :=
  m.insertionSort fun a b => a.1 ≤ b.1

/-- `json.Marshal` of a `map[string][]string`; `none` is the nil map. -/
def marshal : Option (List (GoString × Option (List GoString))) → GoString
  | none => str "null"
  | some m => 0x7B :: (commaJoin ((sortMembers m).map marshalMember) ++ [0x7D])

/-- What is left of a string when it is written and read back: invalid UTF-8 becomes `U+FFFD`. -/
def toValidUTF8 (s : GoString) : GoString :=
  (pieces s).flatMap fun
    | .ascii b => [b]
    | .multi bs => bs
    | .bad _ => runeError

/-! ### Reading -/

/-- The tokens of a JSON text. -/
inductive Tok where
  /-- A string literal, unescaped. -/
  | str (s : GoString)
  /-- A punctuation byte. -/
  | punct (b : UInt8)
  /-- `null`. -/
  | null
  deriving DecidableEq

/-- Where the lexer stands. -/
inductive LexState where
  /-- Between tokens. -/
  | outside
  /-- In the word `null`, with so many letters to go. -/
  | word (k : ℕ)
  /-- In a string literal; what was read of it. -/
  | inside (acc : GoString)
  /-- After a backslash. -/
  | escape (acc : GoString)
  /-- In a `\u` escape: digits to go after the next one, and the value so far. -/
  | hex (acc : GoString) (k n : ℕ)

/-- The value of a hexadecimal digit. -/
def hexVal (b : UInt8) : ℕ :=
  if b ≤ 0x39 then b.toNat - 0x30 else if b ≤ 0x46 then b.toNat - 0x37 else b.toNat - 0x57

/-- The encoding of a character of the basic plane. -/
def encodeRune (n : ℕ) : GoString :=
  if n < 0x80 then [UInt8.ofNat n]
  else if n < 0x800 then [UInt8.ofNat (0xC0 + n / 64), UInt8.ofNat (0x80 + n % 64)]
  else [UInt8.ofNat (0xE0 + n / 4096), UInt8.ofNat (0x80 + n / 64 % 64),
    UInt8.ofNat (0x80 + n % 64)]

/-- The byte a one-letter escape stands for. -/
def unescape (b : UInt8) : UInt8 :=
  if b = 0x62 then 0x08
  else if b = 0x66 then 0x0C
  else if b = 0x6E then 0x0A
  else if b = 0x72 then 0x0D
  else if b = 0x74 then 0x09
  else b

/-- The lexer. -/
def lex : LexState → GoString → List Tok
  | _, [] => []
  | .outside, b :: s =>
    if b = 0x22 then lex (.inside []) s
    else if b = 0x6E then .null :: lex (.word 3) s
    else .punct b :: lex .outside s
  | .word k, _ :: s => lex (if k ≤ 1 then .outside else .word (k - 1)) s
  | .inside acc, b :: s =>
    if b = 0x22 then .str acc :: lex .outside s
    else if b = 0x5C then lex (.escape acc) s
    else lex (.inside (acc ++ [b])) s
  | .escape acc, b :: s =>
    if b = 0x75 then lex (.hex acc 3 0) s else lex (.inside (acc ++ [unescape b])) s
  | .hex acc k n, b :: s =>
    if k = 0 then lex (.inside (acc ++ encodeRune (16 * n + hexVal b))) s
    else lex (.hex acc (k - 1) (16 * n + hexVal b)) s

/-- The string literals up to the end of an array. -/
def elements : List Tok → List GoString
  | .str s :: ts => s :: elements ts
  | .punct b :: ts => if b = 0x5D then [] else elements ts
  | _ => []

/-- The array of strings under a key of an object; nothing when the key is absent or its
value is `null`. -/
def member (key : GoString) : List Tok → List GoString
  | .str k :: .punct 0x3A :: .punct 0x5B :: ts => if k = key then elements ts else member key ts
  | .str k :: .punct 0x3A :: .null :: ts => if k = key then [] else member key ts
  | _ :: ts => member key ts
  | [] => []

/-! ### Reading what was written -/

theorem hexVal_hexDigit : ∀ n < 16, hexVal (hexDigit n) = n := by decide

/-- The text a piece reads back as. -/
def validPiece : Piece → GoString
  | .ascii b => [b]
  | .multi bs => bs
  | .bad _ => runeError

theorem toValidUTF8_eq (s : GoString) : toValidUTF8 s = (pieces s).flatMap validPiece := by
  rw [toValidUTF8]
  congr 1

/-- What is valid UTF-8 reads back as it is. -/
theorem toValidUTF8_of_text {s : GoString} (h : ∀ b, .bad b ∉ pieces s) : toValidUTF8 s = s := by
  have hpiece : ∀ p ∈ pieces s, validPiece p = p.bytes := by
    intro p hp
    cases p with
    | ascii b => rfl
    | multi bs => rfl
    | bad b => exact absurd hp (h b)
  rw [toValidUTF8_eq, List.flatMap_congr hpiece, pieces_flatten]

/-- Inside a literal, bytes other than the quote and the backslash stand for themselves. -/
theorem lex_inside_plain {bs : GoString} (h : ∀ b ∈ bs, b ≠ 0x22 ∧ b ≠ 0x5C) (acc rest : GoString) :
    lex (.inside acc) (bs ++ rest) = lex (.inside (acc ++ bs)) rest := by
  induction bs generalizing acc with
  | nil => simp
  | cons b bs ih =>
    obtain ⟨h₁, h₂⟩ := h b List.mem_cons_self
    rw [List.cons_append, lex, if_neg h₁, if_neg h₂, ih fun c hc => h c (List.mem_cons_of_mem _ hc)]
    simp

/-- A `\\u` escape stands for the character its four digits name. -/
theorem lex_unicode (acc : GoString) (a b c d : UInt8) (rest : GoString) :
    lex (.inside acc) (0x5C :: 0x75 :: a :: b :: c :: d :: rest) =
      lex (.inside (acc ++ encodeRune
        (16 * (16 * (16 * (16 * 0 + hexVal a) + hexVal b) + hexVal c) + hexVal d)))
        rest := rfl

theorem lex_escapeAscii {b : UInt8} (hb : b < 0x80) (acc rest : GoString) :
    lex (.inside acc) (escapeAscii b ++ rest) = lex (.inside (acc ++ [b])) rest := by
  unfold escapeAscii
  split_ifs with h₁ h₂ h₃ h₄ h₅ h₆ h₇
  · rcases h₁ with rfl | rfl <;> rfl
  · subst h₂; rfl
  · subst h₃; rfl
  · subst h₄; rfl
  · subst h₅; rfl
  · subst h₆; rfl
  · -- `\u00XY`: the two digits give the byte back
    have hlt : b.toNat < 128 := by simpa [UInt8.lt_iff_toNat_lt] using hb
    have hd := hexVal_hexDigit (b.toNat / 16) (by omega)
    have hm := hexVal_hexDigit (b.toNat % 16) (by omega)
    have hz : hexVal 0x30 = 0 := by decide
    refine (lex_unicode acc 0x30 0x30 _ _ rest).trans ?_
    rw [hz, hd, hm, show 16 * (16 * (16 * (16 * 0 + 0) + 0) + b.toNat / 16) + b.toNat % 16 =
      b.toNat by omega, encodeRune, if_pos hlt, UInt8.ofNat_toNat]
  · exact lex_inside_plain (by simpa using not_or.mp h₁) acc rest

theorem lex_escapePiece {s : GoString} {p : Piece} (hp : p ∈ pieces s) (acc rest : GoString) :
    lex (.inside acc) (escapePiece p ++ rest) = lex (.inside (acc ++ validPiece p)) rest := by
  cases p with
  | ascii b => exact lex_escapeAscii (ascii_lt hp) acc rest
  | multi bs =>
    rw [escapePiece, validPiece]
    split_ifs with h₁ h₂
    · subst h₁; rfl
    · subst h₂; rfl
    · refine lex_inside_plain (fun b hb => ?_) acc rest
      have := multi_bytes_ge hp b hb
      constructor <;> rintro rfl <;> exact absurd this (by decide)
  | bad b => rfl

/-- A written string reads back as one token. -/
theorem lex_marshalString (s rest : GoString) :
    lex .outside (marshalString s ++ rest) = .str (toValidUTF8 s) :: lex .outside rest := by
  have hloop : ∀ ps : List Piece, (∀ p ∈ ps, p ∈ pieces s) → ∀ acc,
      lex (.inside acc) (ps.flatMap escapePiece ++ 0x22 :: rest) =
        .str (acc ++ ps.flatMap validPiece) :: lex .outside rest := by
    intro ps
    induction ps with
    | nil => intro _ acc; simp [lex]
    | cons p ps ih =>
      intro h acc
      rw [List.flatMap_cons, List.append_assoc, lex_escapePiece (h p List.mem_cons_self),
        ih fun q hq => h q (List.mem_cons_of_mem _ hq)]
      simp
  rw [toValidUTF8_eq, marshalString]
  simpa [lex] using hloop (pieces s) (fun _ h => h) []

/-- The tokens of a written slice. -/
def sliceToks : Option (List GoString) → List Tok
  | none => [.null]
  | some [] => [.punct 0x5B, .punct 0x5D]
  | some (v :: vs) =>
    .punct 0x5B :: .str (toValidUTF8 v) ::
      (vs.flatMap fun w => [.punct 0x2C, .str (toValidUTF8 w)]) ++ [.punct 0x5D]

theorem lex_marshalSlice (vs : Option (List GoString)) (rest : GoString) :
    lex .outside (marshalSlice vs ++ rest) = sliceToks vs ++ lex .outside rest := by
  have hloop : ∀ ws : List GoString, ∀ r,
      lex .outside ((ws.map marshalString).flatMap (0x2C :: ·) ++ r) =
        (ws.flatMap fun w => [.punct 0x2C, .str (toValidUTF8 w)]) ++ lex .outside r := by
    intro ws
    induction ws with
    | nil => intro r; rfl
    | cons w ws ih =>
      intro r
      have hc : ∀ r', lex .outside (0x2C :: r') = .punct 0x2C :: lex .outside r' := fun _ => rfl
      simp only [List.map_cons, List.flatMap_cons, List.append_assoc, List.cons_append, hc,
        lex_marshalString, ih, List.nil_append]
  match vs with
  | none => rfl
  | some [] => rfl
  | some (v :: vs) =>
    have hb : ∀ r', lex .outside (0x5B :: r') = .punct 0x5B :: lex .outside r' := fun _ => rfl
    have he : ∀ r', lex .outside (0x5D :: r') = .punct 0x5D :: lex .outside r' := fun _ => rfl
    simp only [marshalSlice, commaJoin, List.map_cons, List.cons_append, List.append_assoc, hb,
      lex_marshalString, hloop, List.nil_append, he, sliceToks]

/-- The elements of a written slice are its strings. -/
theorem elements_slice (v : GoString) (vs : List GoString) (rest : List Tok) :
    elements (.str (toValidUTF8 v) :: (vs.flatMap fun w => [.punct 0x2C, .str (toValidUTF8 w)]) ++
      .punct 0x5D :: rest) = (v :: vs).map toValidUTF8 := by
  induction vs generalizing v with
  | nil => simp [elements]
  | cons w ws ih =>
    have := ih w
    simp only [List.flatMap_cons, List.cons_append, List.nil_append, List.map_cons] at this ⊢
    rw [elements, elements, if_neg (by decide), this]

/-- The tokens of a written member. -/
def memberToks (kv : GoString × Option (List GoString)) : List Tok :=
  .str (toValidUTF8 kv.1) :: .punct 0x3A :: sliceToks kv.2

theorem lex_marshalMember (kv : GoString × Option (List GoString)) (rest : GoString) :
    lex .outside (marshalMember kv ++ rest) = memberToks kv ++ lex .outside rest := by
  have hc : ∀ r', lex .outside (0x3A :: r') = .punct 0x3A :: lex .outside r' := fun _ => rfl
  rw [marshalMember, List.append_assoc, lex_marshalString, List.cons_append, hc, lex_marshalSlice]
  rfl

@[simp] theorem member_punct (key : GoString) (b : UInt8) (ts : List Tok) :
    member key (.punct b :: ts) = member key ts := by
  rw [member]
  all_goals simp

/-- A string that no colon follows is a value, and is passed over. -/
theorem member_value {b : UInt8} (hb : b ≠ 0x3A) (key v : GoString) (ts : List Tok) :
    member key (.str v :: .punct b :: ts) = member key ts := by
  rw [member]
  · exact member_punct key b ts
  all_goals simp [hb]

/-- The values of an array are passed over. -/
theorem member_values (key v : GoString) (vs : List GoString) (rest : List Tok) :
    member key (.str (toValidUTF8 v) :: (vs.flatMap fun w => [.punct 0x2C, .str (toValidUTF8 w)]) ++
      .punct 0x5D :: rest) = member key rest := by
  induction vs generalizing v with
  | nil => exact member_value (by decide) key _ rest
  | cons w ws ih =>
    have := ih w
    simp only [List.flatMap_cons, List.cons_append, List.nil_append] at this ⊢
    rw [member_value (by decide), this]

/-- A member is found by its key, and passed over otherwise. -/
theorem member_memberToks (key : GoString) (kv : GoString × Option (List GoString))
    (rest : List Tok) :
    member key (memberToks kv ++ rest) =
      if toValidUTF8 kv.1 = key then (kv.2.getD []).map toValidUTF8 else member key rest := by
  obtain ⟨k, vs⟩ := kv
  match vs with
  | none => simp [memberToks, sliceToks, member]
  | some [] => simp [memberToks, sliceToks, member, elements]
  | some (v :: vs) =>
    have he := elements_slice v vs rest
    have hm := member_values key v vs rest
    simp only [List.cons_append] at he hm
    simp only [memberToks, sliceToks, List.cons_append, List.append_assoc, List.nil_append,
      member, he, hm, Option.getD_some]

/-- **Reading what was written**: the strings under a key of the text of a map are the values
the map has for it. -/
theorem member_marshal (key : GoString) (m : Option (List (GoString × Option (List GoString)))) :
    member key (lex .outside (marshal m)) =
      match m.bind fun m => (sortMembers m).find? fun kv => toValidUTF8 kv.1 = key with
      | none => []
      | some kv => (kv.2.getD []).map toValidUTF8 := by
  have hloop : ∀ kvs : List (GoString × Option (List GoString)),
      member key (lex .outside ((kvs.map marshalMember).flatMap (0x2C :: ·) ++ [0x7D])) =
        match kvs.find? fun kv => toValidUTF8 kv.1 = key with
        | none => []
        | some kv => (kv.2.getD []).map toValidUTF8 := by
    intro kvs
    induction kvs with
    | nil => rfl
    | cons kv kvs ih =>
      have hc : ∀ r', lex .outside (0x2C :: r') = .punct 0x2C :: lex .outside r' := fun _ => rfl
      rw [List.map_cons, List.flatMap_cons, List.append_assoc, List.cons_append, hc, member_punct,
        lex_marshalMember, member_memberToks, ih, List.find?_cons]
      by_cases h : toValidUTF8 kv.1 = key <;> simp [h]
  cases m with
  | none => rfl
  | some m =>
    have ho : ∀ r', lex .outside (0x7B :: r') = .punct 0x7B :: lex .outside r' := fun _ => rfl
    rw [marshal, ho, member_punct, Option.bind_some]
    cases hm : sortMembers m with
    | nil => rfl
    | cons kv kvs =>
      rw [List.map_cons, commaJoin, List.append_assoc, lex_marshalMember, member_memberToks, hloop,
        List.find?_cons]
      by_cases h : toValidUTF8 kv.1 = key <;> simp [h]

end HttpCatch.Json
