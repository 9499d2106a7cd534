import HttpCatch.Library.Decimal
import HttpCatch.Library.Json

/-!
# JSON values

What `encoding/json` writes for a value of structs, slices, maps, strings, whole numbers and
booleans (`Datum.text`), and a reader of such texts (`readJSON`): without white space, and with
whole numbers only, which is all that is written here. The strings are those of `Library.Json`.

* `readJSON_text` — a value is read back from its text, with invalid UTF-8 replaced.
* `newline_notMem_text` — a text is one line.
-/

namespace HttpCatch.Json

open HttpCatch.Go

/-- A value; the members of an object are in the order in which they are written. -/
inductive Datum where
  | null
  | bool (b : Bool)
  | int (n : ℤ)
  | string (s : GoString)
  | array (elements : List Datum)
  | object (members : List (GoString × Datum))

/-! ### Writing -/

mutual

/-- The text of a value. -/
def Datum.text : Datum → GoString
  | .null => str "null"
  | .bool b => if b then str "true" else str "false"
  | .int n => sprintDecimal n
  | .string s => marshalString s
  | .array vs => 0x5B :: (elementsText vs ++ [0x5D])
  | .object ms => 0x7B :: (membersText ms ++ [0x7D])

/-- The texts of the elements, with commas between them. -/
def elementsText : List Datum → GoString
  | [] => []
  | [v] => v.text
  | v :: w :: vs => v.text ++ 0x2C :: elementsText (w :: vs)

/-- The texts of the members, with commas between them. -/
def membersText : List (GoString × Datum) → GoString
  | [] => []
  | [(k, v)] => marshalString k ++ 0x3A :: v.text
  | (k, v) :: m :: ms => marshalString k ++ 0x3A :: (v.text ++ 0x2C :: membersText (m :: ms))

end

mutual

/-- What is left of a value when it is written and read: invalid UTF-8 is replaced. -/
def Datum.valid : Datum → Datum
  | .string s => .string (toValidUTF8 s)
  | .array vs => .array (validElements vs)
  | .object ms => .object (validMembers ms)
  | v => v

def validElements : List Datum → List Datum
  | [] => []
  | v :: vs => v.valid :: validElements vs

def validMembers : List (GoString × Datum) → List (GoString × Datum)
  | [] => []
  | (k, v) :: ms => (toValidUTF8 k, v.valid) :: validMembers ms

end

theorem validElements_eq (vs : List Datum) : validElements vs = vs.map Datum.valid := by
  induction vs with
  | nil => rfl
  | cons v vs ih => rw [validElements, ih, List.map_cons]

theorem validMembers_eq (ms : List (GoString × Datum)) :
    validMembers ms = ms.map fun m => (toValidUTF8 m.1, m.2.valid) := by
  induction ms with
  | nil => rfl
  | cons m ms ih => rw [validMembers, ih, List.map_cons]

theorem elementsText_eq (vs : List Datum) : elementsText vs = commaJoin (vs.map Datum.text) := by
  induction vs with
  | nil => rfl
  | cons v vs ih =>
    cases vs with
    | nil => simp [elementsText, commaJoin]
    | cons w vs => rw [elementsText, ih]; rfl

theorem membersText_eq (ms : List (GoString × Datum)) :
    membersText ms = commaJoin (ms.map fun m => marshalString m.1 ++ 0x3A :: m.2.text) := by
  induction ms with
  | nil => rfl
  | cons m ms ih =>
    cases ms with
    | nil => simp [membersText, commaJoin]
    | cons m' ms =>
      rw [membersText, ih]
      simp [commaJoin]

/-- ASCII is valid. -/
theorem toValidUTF8_ascii {s : GoString} (h : s.all (· < 0x80) = true) : toValidUTF8 s = s := by
  have hpieces : pieces s = s.map .ascii := by
    induction s with
    | nil => rfl
    | cons b s ih =>
      rw [List.all_cons, Bool.and_eq_true] at h
      rw [pieces_ascii (of_decide_eq_true h.1), ih h.2, List.map_cons]
  rw [toValidUTF8, hpieces, List.flatMap_map]
  exact List.flatMap_singleton' s

/-! ### Reading -/

/-- A byte of a number or of a word. -/
def isWordByte (b : UInt8) : Bool :=
  (0x30 ≤ b && b ≤ 0x39) || (0x61 ≤ b && b ≤ 0x7A) || b = 0x2D

/-- The bytes of a number or a word at the start of some tokens, and the tokens after them. -/
def spanWord : List Tok → GoString × List Tok
  | .punct b :: ts =>
    if isWordByte b then (b :: (spanWord ts).1, (spanWord ts).2) else ([], .punct b :: ts)
  | ts => ([], ts)

/-- A number or a word. -/
def readWord (word : GoString) : Option Datum :=
  if word = str "true" then some (.bool true)
  else if word = str "false" then some (.bool false)
  else
    match word with
    | 0x2D :: digits => (decimal digits).map fun n : ℕ => .int (-n)
    | digits => (decimal digits).map fun n : ℕ => .int n

mutual

/-- A value at the start of some tokens, and the tokens after it. -/
def readValue : ℕ → List Tok → Option (Datum × List Tok)
  | 0, _ => none
  | _ + 1, [] => none
  | _ + 1, .null :: ts => some (.null, ts)
  | _ + 1, .str s :: ts => some (.string s, ts)
  | fuel + 1, .punct b :: ts =>
    if b = 0x5B then
      if ts.head? = some (.punct 0x5D) then some (.array [], ts.tail)
      else (readElements fuel ts).map fun p => (.array p.1, p.2)
    else if b = 0x7B then
      if ts.head? = some (.punct 0x7D) then some (.object [], ts.tail)
      else (readMembers fuel ts).map fun p => (.object p.1, p.2)
    else
      let (word, ts) := spanWord (.punct b :: ts)
      (readWord word).map fun v => (v, ts)

/-- The elements of an array up to its end. -/
def readElements : ℕ → List Tok → Option (List Datum × List Tok)
  | 0, _ => none
  | fuel + 1, ts =>
    match readValue fuel ts with
    | some (v, .punct b :: ts) =>
      if b = 0x2C then (readElements fuel ts).map fun p => (v :: p.1, p.2)
      else if b = 0x5D then some ([v], ts)
      else none
    | _ => none

/-- The members of an object up to its end. -/
def readMembers : ℕ → List Tok → Option (List (GoString × Datum) × List Tok)
  | 0, _ => none
  | fuel + 1, .str k :: .punct c :: ts =>
    if c = 0x3A then
      match readValue fuel ts with
      | some (v, .punct b :: ts) =>
        if b = 0x2C then (readMembers fuel ts).map fun p => ((k, v) :: p.1, p.2)
        else if b = 0x7D then some ([(k, v)], ts)
        else none
      | _ => none
    else none
  | _, _ => none

end

/-- Reads a whole text. -/
def readJSON (s : GoString) : Option Datum :=
  let ts := lex .outside s
  match readValue ts.length ts with
  | some (v, []) => some v
  | _ => none

/-! ### Reading what was written -/

mutual

/-- The tokens of a value. -/
def Datum.toks : Datum → List Tok
  | .null => [.null]
  | .bool b => (if b then str "true" else str "false").map .punct
  | .int n => (sprintDecimal n).map .punct
  | .string s => [.str (toValidUTF8 s)]
  | .array vs => .punct 0x5B :: (elementsToks vs ++ [.punct 0x5D])
  | .object ms => .punct 0x7B :: (membersToks ms ++ [.punct 0x7D])

def elementsToks : List Datum → List Tok
  | [] => []
  | [v] => v.toks
  | v :: w :: vs => v.toks ++ .punct 0x2C :: elementsToks (w :: vs)

def membersToks : List (GoString × Datum) → List Tok
  | [] => []
  | [(k, v)] => .str (toValidUTF8 k) :: .punct 0x3A :: v.toks
  | (k, v) :: m :: ms =>
    .str (toValidUTF8 k) :: .punct 0x3A :: (v.toks ++ .punct 0x2C :: membersToks (m :: ms))

end

/-- A byte outside a string literal that starts neither one nor `null`. -/
theorem lex_byte {b : UInt8} (h : b ≠ 0x22 ∧ b ≠ 0x6E) (s : GoString) :
    lex .outside (b :: s) = .punct b :: lex .outside s := by
  rw [lex, if_neg h.1, if_neg h.2]

theorem lex_bytes {bs : GoString} (h : ∀ b ∈ bs, b ≠ 0x22 ∧ b ≠ 0x6E) (s : GoString) :
    lex .outside (bs ++ s) = bs.map .punct ++ lex .outside s := by
  induction bs with
  | nil => rfl
  | cons b bs ih =>
    rw [List.cons_append, lex_byte (h b List.mem_cons_self),
      ih fun c hc => h c (List.mem_cons_of_mem _ hc)]
    rfl

theorem sprintDecimal_bytes (n : ℤ) : ∀ b ∈ sprintDecimal n, b = 0x2D ∨ 0x30 ≤ b ∧ b ≤ 0x39 := by
  intro b hb
  rw [sprintDecimal, List.mem_append] at hb
  rcases hb with hb | hb
  · split_ifs at hb
    · exact .inl (List.mem_singleton.1 hb)
    · cases hb
  · exact .inr (digitsOf_bytes _ b hb)

mutual

theorem lex_text : ∀ (v : Datum) (s : GoString),
    lex .outside (v.text ++ s) = v.toks ++ lex .outside s
  | .null, s => rfl
  | .bool true, s => rfl
  | .bool false, s => rfl
  | .int n, s => by
    rw [Datum.text, Datum.toks]
    apply lex_bytes
    intro b hb
    rcases sprintDecimal_bytes n b hb with rfl | hdigit
    · decide
    · constructor <;> rintro rfl <;> exact absurd hdigit (by decide)
  | .string t, s => by
    rw [Datum.text, Datum.toks]
    exact lex_marshalString t s
  | .array vs, s => by
    rw [Datum.text, Datum.toks, List.cons_append, lex_byte (by decide), List.append_assoc,
      lex_elementsText vs, List.singleton_append, lex_byte (by decide)]
    simp
  | .object ms, s => by
    rw [Datum.text, Datum.toks, List.cons_append, lex_byte (by decide), List.append_assoc,
      lex_membersText ms, List.singleton_append, lex_byte (by decide)]
    simp

theorem lex_elementsText : ∀ (vs : List Datum) (s : GoString),
    lex .outside (elementsText vs ++ s) = elementsToks vs ++ lex .outside s
  | [], s => rfl
  | [v], s => by rw [elementsText, elementsToks, lex_text v]
  | v :: w :: vs, s => by
    rw [elementsText, elementsToks, List.append_assoc, lex_text v, List.cons_append,
      lex_byte (by decide), lex_elementsText (w :: vs)]
    simp

theorem lex_membersText : ∀ (ms : List (GoString × Datum)) (s : GoString),
    lex .outside (membersText ms ++ s) = membersToks ms ++ lex .outside s
  | [], s => rfl
  | [(k, v)], s => by
    rw [membersText, membersToks, List.append_assoc, lex_marshalString, List.cons_append,
      lex_byte (by decide), lex_text v]
    rfl
  | (k, v) :: m :: ms, s => by
    rw [membersText, membersToks, List.append_assoc, lex_marshalString, List.cons_append,
      lex_byte (by decide), List.append_assoc, lex_text v, List.cons_append, lex_byte (by decide),
      lex_membersText (m :: ms)]
    simp

end

/-- No number and no word goes on here. -/
def Stops : List Tok → Prop
  | .punct b :: _ => isWordByte b = false
  | _ => True

theorem spanWord_word {word : GoString} (h : ∀ b ∈ word, isWordByte b = true) {ts : List Tok}
    (hts : Stops ts) : spanWord (word.map .punct ++ ts) = (word, ts) := by
  induction word with
  | nil =>
    cases ts with
    | nil => rfl
    | cons t ts =>
      cases t with
      | punct b => simp [spanWord, show isWordByte b = false from hts]
      | str | null => rfl
  | cons b word ih =>
    rw [List.map_cons, List.cons_append, spanWord, if_pos (h b List.mem_cons_self),
      ih fun c hc => h c (List.mem_cons_of_mem _ hc)]

theorem isWordByte_sprintDecimal (n : ℤ) : ∀ b ∈ sprintDecimal n, isWordByte b = true := by
  intro b hb
  rcases sprintDecimal_bytes n b hb with rfl | ⟨hlo, hhi⟩
  · rfl
  · simp [isWordByte, hlo, hhi]

theorem readWord_sprintDecimal (n : ℤ) : readWord (sprintDecimal n) = some (.int n) := by
  have hword : ∀ word, 0x65 ∈ word → sprintDecimal n ≠ word := by
    rintro word he rfl
    rcases sprintDecimal_bytes n _ he with h | h <;> exact absurd h (by decide)
  unfold readWord
  rw [if_neg (hword _ (by decide)), if_neg (hword _ (by decide)), sprintDecimal]
  split_ifs with hneg
  · have hn : -(n.natAbs : ℤ) = n := by omega
    rw [List.singleton_append]
    simp only [decimal_digitsOf, Option.map_some, hn]
  · have hn : (n.natAbs : ℤ) = n := by omega
    have hfirst : ∀ digits, digitsOf n.natAbs ≠ 0x2D :: digits := by
      intro digits h
      have hbyte := digitsOf_bytes n.natAbs 0x2D (by simp [h])
      exact absurd hbyte (by decide)
    rw [List.nil_append]
    split
    · exact absurd ‹_› (hfirst _)
    · rw [decimal_digitsOf, Option.map_some, hn]

/-- The first token of a value is not the end of an array. -/
theorem toks_cons (v : Datum) : ∃ t ts, v.toks = t :: ts ∧ t ≠ .punct 0x5D := by
  cases v with
  | null => exact ⟨_, _, rfl, by simp⟩
  | bool b => cases b <;> exact ⟨_, _, rfl, by decide⟩
  | int n =>
    have hne : sprintDecimal n ≠ [] := by simp [sprintDecimal, digitsOf_ne_nil]
    obtain ⟨b, bs, hbs⟩ := List.exists_cons_of_ne_nil hne
    refine ⟨.punct b, bs.map .punct, by rw [Datum.toks, hbs, List.map_cons], ?_⟩
    rintro ⟨⟩
    rcases sprintDecimal_bytes n 0x5D (by simp [hbs]) with h | h <;> exact absurd h (by decide)
  | string s => exact ⟨_, _, rfl, by simp⟩
  | array vs => exact ⟨_, _, rfl, by decide⟩
  | object ms => exact ⟨_, _, rfl, by decide⟩

theorem elementsToks_cons (v : Datum) (vs : List Datum) :
    ∃ t ts, elementsToks (v :: vs) = t :: ts ∧ t ≠ .punct 0x5D := by
  obtain ⟨t, ts, ht, hne⟩ := toks_cons v
  cases vs with
  | nil => exact ⟨t, ts, by rw [elementsToks, ht], hne⟩
  | cons w vs => exact ⟨t, _, by rw [elementsToks, ht, List.cons_append], hne⟩

theorem membersToks_cons (m : GoString × Datum) (ms : List (GoString × Datum)) :
    ∃ k ts, membersToks (m :: ms) = .str k :: ts := by
  obtain ⟨k, v⟩ := m
  cases ms with
  | nil => exact ⟨_, _, by rw [membersToks]⟩
  | cons m ms => exact ⟨_, _, by rw [membersToks]⟩

theorem readValue_word {word : GoString} (h : ∀ b ∈ word, isWordByte b = true) {v : Datum}
    (hread : readWord word = some v) (hne : word ≠ []) {fuel : ℕ} {ts : List Tok}
    (hts : Stops ts) : readValue (fuel + 1) (word.map .punct ++ ts) = some (v, ts) := by
  obtain ⟨b, bs, rfl⟩ := List.exists_cons_of_ne_nil hne
  have hspan := spanWord_word h hts
  have hb := h b List.mem_cons_self
  have h₁ : b ≠ 0x5B := by rintro rfl; exact absurd hb (by decide)
  have h₂ : b ≠ 0x7B := by rintro rfl; exact absurd hb (by decide)
  rw [List.map_cons, List.cons_append] at hspan ⊢
  rw [readValue, if_neg h₁, if_neg h₂, hspan]
  simp [hread]

mutual

theorem readValue_toks : ∀ (v : Datum) (fuel : ℕ) (ts : List Tok), v.toks.length ≤ fuel →
    Stops ts → readValue fuel (v.toks ++ ts) = some (v.valid, ts)
  | v, 0, ts, hfuel, _ => by
    obtain ⟨t, ts', ht, -⟩ := toks_cons v
    rw [ht] at hfuel
    cases hfuel
  | .null, fuel + 1, ts, _, _ => rfl
  | .bool true, fuel + 1, ts, _, hts =>
    @readValue_word (str "true") (List.all_eq_true.1 rfl) _ rfl (by decide) fuel ts hts
  | .bool false, fuel + 1, ts, _, hts =>
    @readValue_word (str "false") (List.all_eq_true.1 rfl) _ rfl (by decide) fuel ts hts
  | .int n, fuel + 1, ts, _, hts => by
    rw [Datum.toks, Datum.valid]
    exact readValue_word (isWordByte_sprintDecimal n) (readWord_sprintDecimal n)
      (by simp [sprintDecimal, digitsOf_ne_nil]) hts
    all_goals simp
  | .string s, fuel + 1, ts, _, _ => by
    rw [Datum.valid]
    rfl
  | .array [], fuel + 1, ts, _, _ => by
    rw [Datum.valid]
    rfl
  | .array (v :: vs), fuel + 1, ts, hfuel, _ => by
    obtain ⟨t, ts', ht, hne⟩ := elementsToks_cons v vs
    rw [Datum.toks, List.length_cons, List.length_append, List.length_singleton] at hfuel
    have hread := readElements_toks v vs fuel ts (by omega)
    rw [Datum.toks, Datum.valid, List.cons_append, List.append_assoc, List.singleton_append,
      readValue, if_pos rfl, hread, if_neg, Option.map_some]
    rw [ht, List.cons_append, List.head?_cons]
    exact fun h => hne (Option.some.inj h)
  | .object [], fuel + 1, ts, _, _ => by
    rw [Datum.valid]
    rfl
  | .object (m :: ms), fuel + 1, ts, hfuel, _ => by
    obtain ⟨k, ts', ht⟩ := membersToks_cons m ms
    rw [Datum.toks, List.length_cons, List.length_append, List.length_singleton] at hfuel
    have hread := readMembers_toks m ms fuel ts (by omega)
    rw [Datum.toks, Datum.valid, List.cons_append, List.append_assoc, List.singleton_append,
      readValue, if_neg (by decide), if_pos rfl, hread, if_neg, Option.map_some]
    rw [ht, List.cons_append, List.head?_cons]
    exact fun h => nomatch Option.some.inj h

theorem readElements_toks : ∀ (v : Datum) (vs : List Datum) (fuel : ℕ) (ts : List Tok),
    (elementsToks (v :: vs)).length < fuel →
    readElements fuel (elementsToks (v :: vs) ++ .punct 0x5D :: ts) =
      some (validElements (v :: vs), ts)
  | v, [], fuel + 1, ts, hfuel => by
    rw [elementsToks] at hfuel ⊢
    rw [readElements, readValue_toks v fuel (.punct 0x5D :: ts) (by omega) rfl]
    rfl
  | v, w :: vs, fuel + 1, ts, hfuel => by
    rw [elementsToks] at hfuel ⊢
    rw [List.length_append, List.length_cons] at hfuel
    rw [List.append_assoc, List.cons_append, readElements,
      readValue_toks v fuel (.punct 0x2C :: _) (by omega) rfl]
    dsimp only
    rw [if_pos rfl, readElements_toks w vs fuel ts (by omega)]
    rfl

theorem readMembers_toks : ∀ (m : GoString × Datum) (ms : List (GoString × Datum)) (fuel : ℕ)
    (ts : List Tok), (membersToks (m :: ms)).length < fuel →
    readMembers fuel (membersToks (m :: ms) ++ .punct 0x7D :: ts) =
      some (validMembers (m :: ms), ts)
  | (k, v), [], fuel + 1, ts, hfuel => by
    rw [membersToks] at hfuel ⊢
    rw [List.length_cons, List.length_cons] at hfuel
    rw [List.cons_append, List.cons_append, readMembers, if_pos rfl,
      readValue_toks v fuel (.punct 0x7D :: ts) (by omega) rfl]
    rfl
  | (k, v), m :: ms, fuel + 1, ts, hfuel => by
    rw [membersToks] at hfuel ⊢
    rw [List.length_cons, List.length_cons, List.length_append, List.length_cons] at hfuel
    rw [List.cons_append, List.cons_append, List.append_assoc, List.cons_append, readMembers,
      if_pos rfl, readValue_toks v fuel (.punct 0x2C :: _) (by omega) rfl]
    dsimp only
    rw [if_pos rfl, readMembers_toks m ms fuel ts (by omega)]
    rfl

end

/-- **A value is read back from its text.** -/
theorem readJSON_text (v : Datum) : readJSON v.text = some v.valid := by
  have hlex := lex_text v []
  rw [List.append_nil, show lex .outside [] = [] from rfl] at hlex
  rw [readJSON, hlex, readValue_toks v _ [] (by simp) trivial]

/-! ### Lines -/

theorem ge_of_all {s : GoString} (h : s.all (0x20 ≤ ·) = true) : ∀ b ∈ s, 0x20 ≤ b := by
  intro b hb
  exact of_decide_eq_true (List.all_eq_true.1 h b hb)

theorem hexDigit_ge : ∀ n < 16, 0x20 ≤ hexDigit n := by decide

theorem escapeAscii_ge (b : UInt8) : ∀ c ∈ escapeAscii b, 0x20 ≤ c := by
  intro c hc
  unfold escapeAscii at hc
  split_ifs at hc with h₁ h₂ h₃ h₄ h₅ h₆ h₇
  · rcases h₁ with rfl | rfl <;> exact ge_of_all rfl c hc
  iterate 5 exact ge_of_all rfl c hc
  · have hlt : b.toNat < 256 := b.toNat_lt
    rcases List.mem_append.1 hc with hc | hc
    · exact ge_of_all rfl c hc
    · rcases List.mem_pair.1 hc with rfl | rfl
      · exact hexDigit_ge _ (by omega)
      · exact hexDigit_ge _ (by omega)
  · rw [List.mem_singleton.1 hc]
    exact not_lt.1 fun h => h₇ (.inl h)

theorem marshalString_ge (s : GoString) : ∀ b ∈ marshalString s, 0x20 ≤ b := by
  intro b hb
  rw [marshalString, List.mem_cons, List.mem_append, List.mem_singleton] at hb
  rcases hb with rfl | hb | rfl
  · decide
  · obtain ⟨p, hp, hb⟩ := List.mem_flatMap.1 hb
    cases p with
    | ascii a => exact escapeAscii_ge a b hb
    | multi bs =>
      rw [escapePiece] at hb
      split_ifs at hb
      · exact ge_of_all rfl b hb
      · exact ge_of_all rfl b hb
      · exact le_trans (by decide) (multi_bytes_ge hp b hb)
    | bad a => exact ge_of_all rfl b hb
  · decide

mutual

theorem text_ge : ∀ (v : Datum), ∀ b ∈ v.text, 0x20 ≤ b
  | .null => ge_of_all rfl
  | .bool true => ge_of_all rfl
  | .bool false => ge_of_all rfl
  | .int n => by
    intro b hb
    rw [Datum.text] at hb
    rcases sprintDecimal_bytes n b hb with rfl | ⟨hlo, -⟩
    · decide
    · exact le_trans (by decide) hlo
  | .string s => by
    rw [Datum.text]
    exact marshalString_ge s
  | .array vs => by
    intro b hb
    rw [Datum.text, List.mem_cons, List.mem_append, List.mem_singleton] at hb
    rcases hb with rfl | hb | rfl
    · decide
    · exact elementsText_ge vs b hb
    · decide
  | .object ms => by
    intro b hb
    rw [Datum.text, List.mem_cons, List.mem_append, List.mem_singleton] at hb
    rcases hb with rfl | hb | rfl
    · decide
    · exact membersText_ge ms b hb
    · decide

theorem elementsText_ge : ∀ (vs : List Datum), ∀ b ∈ elementsText vs, 0x20 ≤ b
  | [] => by simp [elementsText]
  | [v] => by
    rw [elementsText]
    exact text_ge v
  | v :: w :: vs => by
    intro b hb
    rw [elementsText, List.mem_append, List.mem_cons] at hb
    rcases hb with hb | rfl | hb
    · exact text_ge v b hb
    · decide
    · exact elementsText_ge (w :: vs) b hb

theorem membersText_ge : ∀ (ms : List (GoString × Datum)), ∀ b ∈ membersText ms, 0x20 ≤ b
  | [] => by simp [membersText]
  | [(k, v)] => by
    intro b hb
    rw [membersText, List.mem_append, List.mem_cons] at hb
    rcases hb with hb | rfl | hb
    · exact marshalString_ge k b hb
    · decide
    · exact text_ge v b hb
  | (k, v) :: m :: ms => by
    intro b hb
    rw [membersText, List.mem_append, List.mem_cons, List.mem_append, List.mem_cons] at hb
    rcases hb with hb | rfl | hb | rfl | hb
    · exact marshalString_ge k b hb
    · decide
    · exact text_ge v b hb
    · decide
    · exact membersText_ge (m :: ms) b hb

end

/-- **A text is one line.** -/
theorem newline_notMem_text (v : Datum) : (0x0A : UInt8) ∉ v.text := by
  intro h
  exact absurd (text_ge v 0x0A h) (by decide)

end HttpCatch.Json
