import HttpCatch.Library.Text

/-!
# LIKE, as SQLite reads it

`LIKE` compares characters, not bytes. SQLite decodes both texts as it goes, stops at the first NUL
and takes whatever is not UTF-8 for some character all the same: a stray continuation byte stands
for itself, and what decodes to ASCII, to a surrogate or to one of the last two characters of the
first plane is read as `U+FFFD`. So two texts of different bytes may be the same to it, and a text
that is part of another by its bytes may not be so by its characters.

## Main results

* `like_starts`, `like_within`: the patterns `v%` and `%v%` ask for the characters of `v` at the
  start and within; a NUL in `v` ends the pattern, so that there is no `%` after it.
* `likeStarts_iff`, `likeWithin_iff`: what they find are bytes of the text that are read as the
  characters of `v`, at a place where no character of the text is cut.
-/

namespace HttpCatch.Sql

open HttpCatch.Go

/-! ### Characters -/

/-- `sqlite3Utf8Trans1`: the bits that a lead byte adds to its character. -/
def leadBits (b : UInt8) : ℕ :=
  if b < 0xE0 then b.toNat % 32
  else if b < 0xF0 then b.toNat % 16
  else if b < 0xF8 then b.toNat % 8
  else if b < 0xFC then b.toNat % 4
  else if b < 0xFE then b.toNat % 2
  else 0

/-- A continuation byte adds six bits, of 32. -/
def addCont (c : ℕ) (b : UInt8) : ℕ := (c * 64 + b.toNat % 64) % 2 ^ 32

/-- A character that may not be encoded in several bytes is read as `U+FFFD`. -/
def checkChar (c : ℕ) : ℕ :=
  if c < 0x80 ∨ 0xD800 ≤ c ∧ c < 0xE000 ∨ c = 0xFFFE ∨ c = 0xFFFF then 0xFFFD else c

/-- `sqlite3Utf8Read` until the text ends, which it does at a NUL. The first argument is the
character that the bytes before began, if they began one. -/
def charsFrom : Option ℕ → GoString → List ℕ
  | begun, [] => (begun.map checkChar).toList
  | begun, b :: s =>
    if isCont b && begun.isSome then charsFrom (begun.map (addCont · b)) s
    else (begun.map checkChar).toList ++
      if b = 0 then []
      else if b < 0xC0 then b.toNat :: charsFrom none s
      else charsFrom (some (leadBits b)) s

/-- The characters of a text. -/
def chars (s : GoString) : List ℕ := charsFrom none s

/-- The text does not go on with the character before it. -/
def Fresh (s : GoString) : Prop := ∀ b ∈ s.head?, isCont b = false

section Decoding

variable {b : UInt8} {c : ℕ} {s t : GoString}

@[simp] theorem chars_nil : chars [] = [] := rfl

theorem charsFrom_cont (hb : isCont b = true) :
    charsFrom (some c) (b :: s) = charsFrom (some (addCont c b)) s := by
  rw [charsFrom, hb]
  rfl

theorem chars_cons : chars (b :: s) =
    if b = 0 then []
    else if b < 0xC0 then b.toNat :: chars s
    else charsFrom (some (leadBits b)) s := by
  rw [chars, charsFrom, Option.isSome_none, Bool.and_false]
  rfl

/-- A character ends where the next one begins. -/
theorem charsFrom_fresh (begun : Option ℕ) (h : Fresh s) :
    charsFrom begun s = (begun.map checkChar).toList ++ chars s := by
  cases s with
  | nil => exact (List.append_nil _).symm
  | cons b s =>
    have hb : isCont b = false := h b rfl
    rw [charsFrom, hb, chars_cons]
    rfl

theorem chars_zero : chars (0 :: s) = [] := rfl

theorem chars_single (h₀ : b ≠ 0) (hb : b < 0xC0) : chars (b :: s) = b.toNat :: chars s := by
  rw [chars_cons, if_neg h₀, if_pos hb]

theorem chars_lead (hb : 0xC0 ≤ b) : chars (b :: s) = charsFrom (some (leadBits b)) s := by
  have h₀ : b ≠ 0 := by
    rintro rfl
    exact absurd hb (by decide)
  rw [chars_cons, if_neg h₀, if_neg (not_lt_of_ge hb)]

theorem isCont_of_lt (hb : b < 0x80) : isCont b = false := by
  simp only [isCont, Bool.and_eq_false_iff, decide_eq_false_iff_not, not_le]
  exact .inl hb

theorem fresh_cons (hb : b < 0x80) : Fresh (b :: s) := by
  intro d hd
  obtain rfl : b = d := by simpa using hd
  exact isCont_of_lt hb

theorem checkChar_ge (c : ℕ) : 0x80 ≤ checkChar c := by
  rw [checkChar]
  split_ifs <;> omega

/-- Nothing is read behind a NUL. -/
theorem charsFrom_zero (begun : Option ℕ) (h : 0 ∉ s) (t : GoString) :
    charsFrom begun (s ++ 0 :: t) = charsFrom begun s := by
  induction s generalizing begun with
  | nil =>
    rw [List.nil_append, charsFrom_fresh begun (fresh_cons (by decide)), chars_zero]
    exact List.append_nil _
  | cons b s ih =>
    rw [List.mem_cons, not_or] at h
    rw [List.cons_append, charsFrom, charsFrom, ih _ h.2, ih _ h.2, ih _ h.2]

theorem charsFrom_append (begun : Option ℕ) (h : 0 ∉ s) (ht : Fresh t) :
    charsFrom begun (s ++ t) = charsFrom begun s ++ chars t := by
  induction s generalizing begun with
  | nil => exact charsFrom_fresh begun ht
  | cons b s ih =>
    rw [List.mem_cons, not_or] at h
    have h₀ : b ≠ 0 := Ne.symm h.1
    rw [List.cons_append, charsFrom, charsFrom, ih _ h.2, ih _ h.2, ih _ h.2, if_neg h₀, if_neg h₀]
    split_ifs <;> simp

theorem chars_append (h : 0 ∉ s) (ht : Fresh t) : chars (s ++ t) = chars s ++ chars t :=
  charsFrom_append none h ht

theorem chars_before (s : GoString) : chars (before s 0) = chars s := by
  by_cases h : 0 ∈ s
  · obtain ⟨u, t, rfl, hu⟩ := List.eq_append_cons_of_mem h
    rw [before_append_of_not_mem hu, before_cons_self, List.append_nil]
    exact (charsFrom_zero none hu t).symm
  · rw [before_of_not_mem h]

theorem chars_append_of_zero (h : 0 ∈ s) (t : GoString) : chars (s ++ t) = chars s := by
  rw [← chars_before, before_append_of_mem h, chars_before]

end Decoding

/-! ### Patterns -/

/-- A pattern on the characters of a text: `%` stands for any characters, `_` for one, and what
follows a backslash for itself. -/
def likeChars : List ℕ → List ℕ → Bool
  | [], s => s == []
  | p :: ps, s =>
    if p = 0x25 then s.tails.any fun t => likeChars ps t
    else if p = 0x5F then s != [] && likeChars ps s.tail
    else if p = 0x5C then
      match ps with
      | [] => false
      | c :: ps => s.head? == some c && likeChars ps s.tail
    else s.head? == some p && likeChars ps s.tail

/-- `LIKE` with `ESCAPE '\'`, case-sensitive: does the pattern match the text? -/
def like (pat s : GoString) : Bool := likeChars (chars pat) (chars s)

/-- The three characters that mean something in a pattern, escaped. -/
def escape (b : UInt8) : GoString := if b = 0x5C ∨ b = 0x25 ∨ b = 0x5F then [0x5C, b] else [b]

/-- The same of characters. -/
def escapeChar (c : ℕ) : List ℕ := if c = 0x5C ∨ c = 0x25 ∨ c = 0x5F then [0x5C, c] else [c]

/-- What `LIKE 'v%'` says of a text. -/
def likeStarts (v s : GoString) : Bool :=
  if 0 ∈ v then decide (chars v = chars s) else decide (chars v <+: chars s)

/-- What `LIKE '%v%'` says of a text. -/
def likeWithin (v s : GoString) : Bool :=
  if 0 ∈ v then decide (chars v <:+ chars s) else decide (chars v <:+: chars s)

section Patterns

variable {ps s : List ℕ}

theorem likeChars_percent :
    likeChars (0x25 :: ps) s = true ↔ ∃ t, t <:+ s ∧ likeChars ps t = true := by
  cases ps <;> simp [likeChars]

theorem likeChars_percent_end : likeChars [0x25] s = true := by
  rw [likeChars_percent]
  exact ⟨[], List.nil_suffix, rfl⟩

theorem likeChars_end : likeChars [] s = true ↔ s = [] := by
  simp [likeChars]

/-- An escaped character matches itself. -/
theorem likeChars_escapeChar (c : ℕ) :
    likeChars (escapeChar c ++ ps) s = true ↔ ∃ t, s = c :: t ∧ likeChars ps t = true := by
  unfold escapeChar
  split_ifs with h
  · cases s with
    | nil => simp [likeChars]
    | cons d t => simp [likeChars]
  · obtain ⟨h₁, h₂, h₃⟩ : c ≠ 0x5C ∧ c ≠ 0x25 ∧ c ≠ 0x5F := by simpa [not_or] using h
    cases s <;> cases ps <;> simp [likeChars, h₁, h₂, h₃]

/-- Escaped characters match themselves, and nothing else. -/
theorem likeChars_flatMap (v : List ℕ) :
    likeChars (v.flatMap escapeChar ++ ps) s = true ↔ ∃ t, s = v ++ t ∧ likeChars ps t = true := by
  induction v generalizing s with
  | nil => simp
  | cons c v ih =>
    rw [List.flatMap_cons, List.append_assoc, likeChars_escapeChar]
    constructor
    · rintro ⟨t, rfl, h⟩
      obtain ⟨u, rfl, hu⟩ := ih.mp h
      exact ⟨u, rfl, hu⟩
    · rintro ⟨t, rfl, h⟩
      exact ⟨v ++ t, rfl, ih.mpr ⟨t, rfl, h⟩⟩

theorem escapeChar_of_ge {c : ℕ} (h : 0x80 ≤ c) : escapeChar c = [c] := by
  rw [escapeChar, if_neg (by omega)]

theorem escape_of_ge {b : UInt8} (h : 0x80 ≤ b) : escape b = [b] := by
  rw [escape, if_neg]
  rintro (rfl | rfl | rfl) <;> exact absurd h (by decide)

theorem escape_ascii {b : UInt8} (h : b < 0x80) :
    Fresh (escape b) ∧ ∀ w, chars (escape b ++ w) =
      if b = 0 then [] else escapeChar b.toNat ++ chars w := by
  have hsmall : b < 0xC0 := h.trans (by decide)
  by_cases hb : b = 0x5C ∨ b = 0x25 ∨ b = 0x5F
  · rw [escape, if_pos hb]
    refine ⟨fresh_cons (by decide), fun w => ?_⟩
    rcases hb with rfl | rfl | rfl <;> rfl
  · have hchar : ¬(b.toNat = 0x5C ∨ b.toNat = 0x25 ∨ b.toNat = 0x5F) := by
      simpa only [← UInt8.toNat_inj, UInt8.reduceToNat] using hb
    rw [escape, if_neg hb, escapeChar, if_neg hchar]
    refine ⟨fresh_cons h, fun w => ?_⟩
    rw [List.singleton_append, chars_cons, if_pos hsmall]
    rfl

/-- Escaping and decoding may be done in either order. -/
theorem charsFrom_escape (begun : Option ℕ) (v : GoString) :
    charsFrom begun (v.flatMap escape) = (charsFrom begun v).flatMap escapeChar := by
  have hbegun : ∀ begun : Option ℕ,
      (begun.map checkChar).toList.flatMap escapeChar = (begun.map checkChar).toList := by
    intro begun
    cases begun with
    | none => rfl
    | some c => simp [escapeChar_of_ge (checkChar_ge c)]
  induction v generalizing begun with
  | nil => exact (hbegun begun).symm
  | cons b v ih =>
    rw [List.flatMap_cons]
    by_cases hb : b < 0x80
    · obtain ⟨hfresh, hchars⟩ := escape_ascii hb
      have hhead : Fresh (escape b ++ v.flatMap escape) := by
        intro d hd
        refine hfresh d ?_
        rw [escape] at hd ⊢
        split_ifs at hd ⊢ <;> exact hd
      rw [charsFrom_fresh begun hhead, charsFrom_fresh begun (fresh_cons hb), hchars, chars_cons,
        if_pos (hb.trans (by decide : (0x80 : UInt8) < 0xC0)), List.flatMap_append, hbegun, chars,
        ih none, chars]
      split_ifs <;> rfl
    · have hge : 0x80 ≤ b := not_lt.1 hb
      have hchar : escapeChar b.toNat = [b.toNat] := escapeChar_of_ge hge
      rw [escape_of_ge hge, List.singleton_append, charsFrom, charsFrom, ih, ih, ih]
      split_ifs <;> simp [hbegun, hchar]

theorem chars_escape (v : GoString) : chars (v.flatMap escape) = (chars v).flatMap escapeChar :=
  charsFrom_escape none v

theorem zero_mem_escape {v : GoString} : 0 ∈ v.flatMap escape ↔ 0 ∈ v := by
  rw [List.mem_flatMap]
  constructor
  · rintro ⟨b, hb, h⟩
    rw [escape] at h
    split_ifs at h with hspecial
    · obtain rfl : 0 = b := by simpa using h
      exact hb
    · obtain rfl : 0 = b := by simpa using h
      exact hb
  · exact fun h => ⟨0, h, List.mem_singleton.2 rfl⟩

/-- The characters of a pattern that ends with `%`, unless a NUL ends it before. -/
theorem chars_pattern (v : GoString) :
    chars (v.flatMap escape ++ [0x25]) =
      (chars v).flatMap escapeChar ++ if 0 ∈ v then [] else [0x25] := by
  rw [← chars_escape]
  split_ifs with h
  · rw [chars_append_of_zero (zero_mem_escape.2 h), List.append_nil]
  · exact chars_append (mt zero_mem_escape.1 h) (fresh_cons (by decide))

theorem likeStarts_parts {v s : GoString} :
    likeStarts v s = true ↔ ∃ z, chars s = chars v ++ z ∧ (0 ∈ v → z = []) := by
  rw [likeStarts]
  split_ifs with h <;> rw [decide_eq_true_iff]
  · simp [h, eq_comm]
  · simp [h, List.IsPrefix, eq_comm]

theorem likeWithin_parts {v s : GoString} :
    likeWithin v s = true ↔ ∃ x z, chars s = x ++ chars v ++ z ∧ (0 ∈ v → z = []) := by
  rw [likeWithin]
  split_ifs with h <;> rw [decide_eq_true_iff]
  · simp [h, List.IsSuffix, eq_comm]
  · simp [h, List.IsInfix, eq_comm]

theorem likeChars_pattern {v : GoString} : likeChars (chars (v.flatMap escape ++ [0x25])) s = true ↔
    ∃ z, s = chars v ++ z ∧ (0 ∈ v → z = []) := by
  rw [chars_pattern, likeChars_flatMap]
  refine exists_congr fun z => and_congr_right fun _ => ?_
  split_ifs with h
  · simp [h, likeChars_end]
  · simp [h, likeChars_percent_end]

/-- **`LIKE 'v%'`** asks for the characters of `v` at the start of the text. -/
theorem like_starts (v s : GoString) : like (v.flatMap escape ++ [0x25]) s = likeStarts v s := by
  rw [Bool.eq_iff_iff, like, likeChars_pattern, likeStarts_parts]

/-- **`LIKE '%v%'`** asks for the characters of `v` somewhere in the text. -/
theorem like_within (v s : GoString) :
    like (0x25 :: (v.flatMap escape ++ [0x25])) s = likeWithin v s := by
  have hpercent : (0x25 : UInt8).toNat = 0x25 := rfl
  rw [Bool.eq_iff_iff, like, chars_single (by decide) (by decide), hpercent, likeChars_percent,
    likeWithin_parts]
  simp only [likeChars_pattern]
  constructor
  · rintro ⟨_, ⟨x, hx⟩, z, rfl, hz⟩
    exact ⟨x, z, by rw [← hx, List.append_assoc], hz⟩
  · rintro ⟨x, z, hs, hz⟩
    exact ⟨chars v ++ z, ⟨x, by rw [hs, List.append_assoc]⟩, z, rfl, hz⟩

end Patterns

/-! ### Places -/

/-- **A place in a text**, between `a` and `c`: no character runs across its ends, so that SQLite
reads the three parts one after the other. -/
structure Cut (s a u c : GoString) : Prop where
  text : s = a ++ u ++ c
  chars : chars s = chars a ++ chars u ++ chars c

/-- **The bytes that `LIKE '%v%'` takes for `v` in a text**: at some place they are read as the
characters of `v`. If a NUL cuts `v` short, nothing may be read behind them. -/
def TakenFor (v s u : GoString) : Prop :=
  chars u = chars v ∧ ∃ a c, Cut s a u c ∧ (0 ∈ v → chars c = [])

/-- The bytes that `LIKE 'v%'` takes for `v` at the start of a text. -/
def TakenFirst (v s u : GoString) : Prop :=
  chars u = chars v ∧ ∃ c, Cut s [] u c ∧ (0 ∈ v → chars c = [])

section Places

variable {s v : GoString}

theorem charsFrom_conts {t : GoString} (ht : ∀ b ∈ t, isCont b = true) (hs : Fresh s) (c : ℕ) :
    charsFrom (some c) (t ++ s) = checkChar (t.foldl addCont c) :: chars s := by
  induction t generalizing c with
  | nil => exact charsFrom_fresh (some c) hs
  | cons b t ih =>
    rw [List.forall_mem_cons] at ht
    rw [List.cons_append, charsFrom_cont ht.1, ih ht.2, List.foldl_cons]

/-- The bytes of the first character of a text. They are read alike before any part of the rest. -/
theorem chars_first {k : ℕ} {x : List ℕ} (h : chars s = k :: x) :
    ∃ w t, s = w ++ t ∧ chars t = x ∧ ∀ t', t' <+: t → chars (w ++ t') = k :: chars t' := by
  cases s with
  | nil => cases h
  | cons b s =>
    have h₀ : b ≠ 0 := by
      rintro rfl
      cases h
    by_cases hb : b < 0xC0
    · rw [chars_single h₀ hb] at h
      obtain ⟨rfl, rfl⟩ := List.cons.inj h
      exact ⟨[b], s, rfl, rfl, fun t' _ => chars_single h₀ hb⟩
    · -- the continuation bytes behind a lead byte belong to it
      have hconts : ∀ d ∈ s.takeWhile isCont, isCont d = true := fun d hd =>
        List.mem_takeWhile_imp hd
      have hread : ∀ t', Fresh t' → chars (b :: s.takeWhile isCont ++ t') =
          checkChar ((s.takeWhile isCont).foldl addCont (leadBits b)) :: chars t' := by
        intro t' ht'
        rw [List.cons_append, chars_lead (not_lt.1 hb), charsFrom_conts hconts ht']
      have hfresh : Fresh (s.dropWhile isCont) := by
        intro d hd
        have hne := List.head?_dropWhile_not isCont s
        rw [Option.mem_def.1 hd] at hne
        simpa using hne
      have hsplit : b :: s = b :: s.takeWhile isCont ++ s.dropWhile isCont := by
        rw [List.cons_append, List.takeWhile_append_dropWhile]
      rw [hsplit, hread _ hfresh] at h
      obtain ⟨rfl, rfl⟩ := List.cons.inj h
      refine ⟨_, _, hsplit, rfl, fun t' ht' => hread t' fun d hd => hfresh d ?_⟩
      obtain ⟨u, hu⟩ := ht'
      rw [← hu]
      cases t' with
      | nil => cases hd
      | cons e t' => exact hd

/-- A text may be cut wherever its characters may. -/
theorem chars_split {x y : List ℕ} (h : chars s = x ++ y) :
    ∃ a c, s = a ++ c ∧ chars a = x ∧ chars c = y := by
  induction x generalizing s with
  | nil => exact ⟨[], s, rfl, rfl, h⟩
  | cons k x ih =>
    obtain ⟨w, t, rfl, ht, hread⟩ := chars_first h
    obtain ⟨a, c, rfl, rfl, rfl⟩ := ih ht
    exact ⟨w ++ a, c, (List.append_assoc w a c).symm, hread a (List.prefix_append a c), rfl⟩

/-- Three parts of the characters are those of a place. -/
theorem exists_cut {x y z : List ℕ} (h : chars s = x ++ y ++ z) :
    ∃ a u c, Cut s a u c ∧ chars a = x ∧ chars u = y ∧ chars c = z := by
  obtain ⟨t, c, rfl, ht, hc⟩ := chars_split h
  obtain ⟨a, u, rfl, ha, hu⟩ := chars_split ht
  exact ⟨a, u, c, ⟨rfl, by rw [h, ha, hu, hc]⟩, ha, hu, hc⟩

/-- **What `LIKE '%v%'` finds**, it finds at some place. -/
theorem likeWithin_iff : likeWithin v s = true ↔ ∃ u, TakenFor v s u := by
  rw [likeWithin_parts]
  constructor
  · rintro ⟨x, z, hs, hz⟩
    obtain ⟨a, u, c, hcut, -, hu, rfl⟩ := exists_cut hs
    exact ⟨u, hu, a, c, hcut, hz⟩
  · rintro ⟨u, hu, a, c, hcut, hc⟩
    exact ⟨chars a, chars c, by rw [hcut.chars, hu], hc⟩

/-- **What `LIKE 'v%'` finds**, it finds at the start. -/
theorem likeStarts_iff : likeStarts v s = true ↔ ∃ u, TakenFirst v s u := by
  rw [likeStarts_parts]
  constructor
  · rintro ⟨z, hs, hz⟩
    obtain ⟨u, c, rfl, hu, rfl⟩ := chars_split hs
    exact ⟨u, hu, c, ⟨rfl, by rw [hs, hu]; rfl⟩, hz⟩
  · rintro ⟨u, hu, c, hcut, hc⟩
    exact ⟨chars c, by rw [hcut.chars, hu]; rfl, hc⟩

end Places

end HttpCatch.Sql
