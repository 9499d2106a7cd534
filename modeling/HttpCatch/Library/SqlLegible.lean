import HttpCatch.Library.LowerCase
import HttpCatch.Library.SqlLike
import HttpCatch.Library.UrlEncoded

/-!
# Where LIKE reads what the bytes say

Two kinds of text that `LIKE` and a search for bytes take alike.

## Main results

* `likeStarts_legible`, `likeWithin_legible`: in legible text, UTF-8 without NUL and without the two
  characters that SQLite takes for another, bytes and characters tell the same.
* `infix_toLower_iff`, `infix_lower_iff`: what stands in a text but for case, and which of it a
  search finds that knows the case of ASCII letters only.
* `likeStarts_ascii`, `likeWithin_ascii`: in ASCII text they do whatever is looked for, but for a
  NUL, and so they do in any text for ASCII.
-/

namespace HttpCatch.Sql

open HttpCatch.Go

/-! ### Legible text -/

/-- The bits of a character that is encoded in several bytes. -/
def charBits (bs : GoString) : ℕ := bs.tail.foldl addCont (leadBits (bs.headD 0))

/-- The last two characters of the first plane, `U+FFFE` and `U+FFFF`. -/
def noncharacters : List GoString := [[0xEF, 0xBF, 0xBE], [0xEF, 0xBF, 0xBF]]

/-- Text that SQLite reads as it is: UTF-8, without NUL and without the two characters for which
it reads another one. -/
structure Legible (s : GoString) : Prop where
  text : Url.IsText s
  noZero : 0 ∉ s
  noSubstitute : ∀ bs ∈ noncharacters, .multi bs ∉ pieces s

section Legible

variable {s t v bs bs' : GoString}

/-- The encodings of two, three and four bytes. -/
theorem isChar_cases (h : IsChar bs) :
    (∃ b₀ b₁, bs = [b₀, b₁] ∧ isPair b₀ b₁ = true) ∨
    (∃ b₀ b₁ b₂, bs = [b₀, b₁, b₂] ∧ isTriple b₀ b₁ b₂ = true) ∨
    ∃ b₀ b₁ b₂ b₃, bs = [b₀, b₁, b₂, b₃] ∧ isQuad b₀ b₁ b₂ b₃ = true := by
  cases bs with
  | nil => cases h
  | cons b s =>
    rw [IsChar, pieces_cons] at h
    have hfirst : firstPiece b s = .multi (b :: s) := (List.cons.inj h).1
    rw [firstPiece] at hfirst
    split_ifs at hfirst with h₀ h₂ h₃ h₄
    · exact .inl ⟨b, _, (Piece.multi.inj hfirst).symm, h₂⟩
    · exact .inr (.inl ⟨b, _, _, (Piece.multi.inj hfirst).symm, h₃⟩)
    · exact .inr (.inr ⟨b, _, _, _, (Piece.multi.inj hfirst).symm, h₄⟩)

/-- A character begins with a lead byte and goes on with continuation bytes. -/
theorem isChar_bytes (h : IsChar bs) :
    ∃ b t, bs = b :: t ∧ 0xC0 ≤ b ∧ ∀ c ∈ t, isCont c = true := by
  rcases isChar_cases h with ⟨b₀, b₁, rfl, h⟩ | ⟨b₀, b₁, b₂, rfl, h⟩ | ⟨b₀, b₁, b₂, b₃, rfl, h⟩
  · refine ⟨b₀, [b₁], rfl, ?_, ?_⟩ <;> grind [isPair]
  · refine ⟨b₀, [b₁, b₂], rfl, ?_, ?_⟩ <;> grind [isTriple]
  · refine ⟨b₀, [b₁, b₂, b₃], rfl, ?_, ?_⟩ <;> grind [isQuad]

theorem charBits_pair {b₀ b₁ : UInt8} (h : isPair b₀ b₁ = true) :
    charBits [b₀, b₁] + 0xC0 * 64 + 0x80 = b₀.toNat * 64 + b₁.toNat ∧
      0xC2 ≤ b₀.toNat ∧ b₀.toNat ≤ 0xDF ∧ 0x80 ≤ b₁.toNat ∧ b₁.toNat ≤ 0xBF := by
  simp only [isPair, isCont, Bool.and_eq_true, decide_eq_true_iff, UInt8.le_iff_toNat_le,
    UInt8.reduceToNat] at h
  have hlead : leadBits b₀ = b₀.toNat % 32 := by
    simp only [leadBits, UInt8.lt_iff_toNat_lt, UInt8.reduceToNat]
    rw [if_pos (by omega)]
  simp only [charBits, List.tail_cons, List.headD_cons, List.foldl_cons, List.foldl_nil, hlead,
    addCont]
  omega

theorem charBits_triple {b₀ b₁ b₂ : UInt8} (h : isTriple b₀ b₁ b₂ = true) :
    charBits [b₀, b₁, b₂] + 0xE0 * 64 ^ 2 + 0x80 * 64 + 0x80 =
        b₀.toNat * 64 ^ 2 + b₁.toNat * 64 + b₂.toNat ∧
      0xE0 ≤ b₀.toNat ∧ b₀.toNat ≤ 0xEF ∧ 0x80 ≤ b₁.toNat ∧ b₁.toNat ≤ 0xBF ∧
      0x80 ≤ b₂.toNat ∧ b₂.toNat ≤ 0xBF ∧ (b₀.toNat = 0xE0 → 0xA0 ≤ b₁.toNat) ∧
      (b₀.toNat = 0xED → b₁.toNat ≤ 0x9F) := by
  simp only [isTriple, isCont, Bool.and_eq_true, Bool.or_eq_true, beq_iff_eq, decide_eq_true_iff,
    UInt8.le_iff_toNat_le, UInt8.reduceToNat, ← UInt8.toNat_inj] at h
  have hlead : leadBits b₀ = b₀.toNat % 16 := by
    simp only [leadBits, UInt8.lt_iff_toNat_lt, UInt8.reduceToNat]
    rw [if_neg (by omega), if_pos (by omega)]
  simp only [charBits, List.tail_cons, List.headD_cons, List.foldl_cons, List.foldl_nil, hlead,
    addCont]
  omega

theorem charBits_quad {b₀ b₁ b₂ b₃ : UInt8} (h : isQuad b₀ b₁ b₂ b₃ = true) :
    charBits [b₀, b₁, b₂, b₃] + 0xF0 * 64 ^ 3 + 0x80 * 64 ^ 2 + 0x80 * 64 + 0x80 =
        b₀.toNat * 64 ^ 3 + b₁.toNat * 64 ^ 2 + b₂.toNat * 64 + b₃.toNat ∧
      0xF0 ≤ b₀.toNat ∧ 0x80 ≤ b₁.toNat ∧ b₁.toNat ≤ 0xBF ∧ 0x80 ≤ b₂.toNat ∧
      b₂.toNat ≤ 0xBF ∧ 0x80 ≤ b₃.toNat ∧ b₃.toNat ≤ 0xBF ∧
      (b₀.toNat = 0xF0 → 0x90 ≤ b₁.toNat) := by
  simp only [isQuad, isCont, Bool.and_eq_true, Bool.or_eq_true, beq_iff_eq, decide_eq_true_iff,
    UInt8.le_iff_toNat_le, UInt8.reduceToNat, ← UInt8.toNat_inj] at h
  have hlead : leadBits b₀ = b₀.toNat % 8 := by
    simp only [leadBits, UInt8.lt_iff_toNat_lt, UInt8.reduceToNat]
    rw [if_neg (by omega), if_neg (by omega), if_pos (by omega)]
  simp only [charBits, List.tail_cons, List.headD_cons, List.foldl_cons, List.foldl_nil, hlead,
    addCont]
  omega

/-- What is encoded in several bytes may be, so only the two characters are read as another. -/
theorem charBits_ge (h : IsChar bs) :
    0x80 ≤ charBits bs ∧ ¬(0xD800 ≤ charBits bs ∧ charBits bs < 0xE000) := by
  rcases isChar_cases h with ⟨b₀, b₁, rfl, hp⟩ | ⟨b₀, b₁, b₂, rfl, hp⟩ | ⟨b₀, b₁, b₂, b₃, rfl, hp⟩
  · have := charBits_pair hp
    omega
  · have := charBits_triple hp
    omega
  · have := charBits_quad hp
    omega

/-- Characters are told apart by their bits. -/
theorem charBits_inj (h : IsChar bs) (h' : IsChar bs') (heq : charBits bs = charBits bs') :
    bs = bs' := by
  -- encodings of different lengths have bits in different ranges
  rcases isChar_cases h with
      ⟨b₀, b₁, rfl, hp⟩ | ⟨b₀, b₁, b₂, rfl, hp⟩ | ⟨b₀, b₁, b₂, b₃, rfl, hp⟩ <;>
    rcases isChar_cases h' with
      ⟨c₀, c₁, rfl, hq⟩ | ⟨c₀, c₁, c₂, rfl, hq⟩ | ⟨c₀, c₁, c₂, c₃, rfl, hq⟩ <;>
    simp only [List.cons.injEq, reduceCtorEq, and_true, and_false, ← UInt8.toNat_inj] <;>
    first
    | have hb := charBits_pair hp
    | have hb := charBits_triple hp
    | have hb := charBits_quad hp
  all_goals
    first
    | have hc := charBits_pair hq
    | have hc := charBits_triple hq
    | have hc := charBits_quad hq
  all_goals omega

theorem checkChar_charBits (h : IsChar bs) (hno : bs ∉ noncharacters) :
    checkChar (charBits bs) = charBits bs := by
  have hrange := charBits_ge h
  have hchars : ∀ bs' ∈ noncharacters, IsChar bs' := by decide
  have hnon : ∀ bs' ∈ noncharacters, charBits bs ≠ charBits bs' := fun bs' hmem heq =>
    hno (charBits_inj h (hchars bs' hmem) heq ▸ hmem)
  have h₁ : charBits bs ≠ 0xFFFE := hnon [0xEF, 0xBF, 0xBE] (by decide)
  have h₂ : charBits bs ≠ 0xFFFF := hnon [0xEF, 0xBF, 0xBF] (by decide)
  rw [checkChar, if_neg]
  omega

/-- The character that SQLite reads for one. -/
def readAs : Piece → ℕ
  | .ascii b => b.toNat
  | .multi bs => checkChar (charBits bs)
  | .bad b => b.toNat

theorem chars_char (h : IsChar bs) (hs : Fresh s) :
    chars (bs ++ s) = checkChar (charBits bs) :: chars s := by
  obtain ⟨b, t, rfl, hb, ht⟩ := isChar_bytes h
  rw [List.cons_append, chars_lead hb, charsFrom_conts ht hs]
  rfl

/-- Text begins with a character. -/
theorem fresh_of_isText (h : Url.IsText s) : Fresh s := by
  cases s with
  | nil => exact fun b hb => absurd hb (by simp)
  | cons b s =>
    intro d hd
    obtain rfl : b = d := by simpa using hd
    by_contra hcont
    have hbad : firstPiece b s = .bad b := by
      simp only [isCont, Bool.not_eq_false, Bool.and_eq_true, decide_eq_true_iff,
        UInt8.le_iff_toNat_le, UInt8.reduceToNat] at hcont
      rw [firstPiece, if_neg, if_neg, if_neg, if_neg]
      all_goals
        simp only [isPair, isTriple, isQuad, Bool.and_eq_true, Bool.or_eq_true, beq_iff_eq,
          decide_eq_true_iff, UInt8.le_iff_toNat_le, UInt8.lt_iff_toNat_lt, UInt8.reduceToNat,
          ← UInt8.toNat_inj]
        omega
    exact h b (by rw [pieces_cons, hbad]; exact List.mem_cons_self)

/-- The characters of text are whole. -/
theorem whole_of_isText (h : Url.IsText s) : ∀ p ∈ pieces s, p.Whole := by
  intro p hp
  cases p with
  | ascii b => exact ascii_lt hp
  | multi bs => exact isChar_of_mem hp
  | bad b => exact h b hp

theorem bytes_of_whole {p : Piece} (h : p.Whole) :
    ∃ b t, p.bytes = b :: t ∧ ∀ c ∈ t, isCont c = true := by
  cases p with
  | ascii b => exact ⟨b, [], rfl, by simp⟩
  | multi bs =>
    obtain ⟨b, t, rfl, -, ht⟩ := isChar_bytes h
    exact ⟨b, t, rfl, ht⟩
  | bad b => exact h.elim

/-- The characters of UTF-8 are those that its encodings say. -/
theorem chars_of_isText (h : Url.IsText s) (h₀ : 0 ∉ s) : chars s = (pieces s).map readAs := by
  induction s using pieces_induction with
  | nil => rfl
  | cons b s ih =>
    obtain ⟨t, ht, u, rfl⟩ := firstPiece_bytes b s
    have hcons := pieces_cons b (t ++ u)
    rw [ht, List.length_cons, Nat.add_sub_cancel, List.drop_left] at hcons ih
    have hu : Url.IsText u := fun c hc => h c (by rw [hcons]; exact List.mem_cons_of_mem _ hc)
    have hu₀ : 0 ∉ u := fun hmem => h₀ (by simp [hmem])
    have hwhole : (firstPiece b (t ++ u)).Whole := whole_of_isText h _ (by simp [hcons])
    rw [hcons, List.map_cons, ← ih hu hu₀]
    cases hp : firstPiece b (t ++ u) with
    | ascii c =>
      rw [hp] at ht hwhole
      obtain ⟨rfl, rfl⟩ := List.cons.inj ht
      have hc : c < 0xC0 := lt_trans hwhole (by decide)
      exact chars_single (fun hz => h₀ (by simp [hz])) hc
    | multi bs =>
      rw [hp] at ht hwhole
      obtain rfl : bs = b :: t := ht
      exact chars_char hwhole (fresh_of_isText hu)
    | bad c =>
      rw [hp] at hwhole
      exact hwhole.elim

/-- In text, a part that begins with a character is cut off between two characters. -/
theorem pieces_append_of_fresh (h : Url.IsText (s ++ t)) (ht : Fresh t) :
    pieces (s ++ t) = pieces s ++ pieces t := by
  have hcut : ∀ (ps : List Piece) (s : GoString), (∀ p ∈ ps, p.Whole) →
      ps.flatMap Piece.bytes = s ++ t →
      ∃ l l', ps = l ++ l' ∧ l.flatMap Piece.bytes = s ∧ l'.flatMap Piece.bytes = t := by
    intro ps
    induction ps with
    | nil =>
      intro s _ heq
      obtain ⟨rfl, rfl⟩ := List.append_eq_nil_iff.1 heq.symm
      exact ⟨[], [], rfl, rfl, rfl⟩
    | cons p ps ih =>
      intro s hwhole heq
      rw [List.forall_mem_cons] at hwhole
      rw [List.flatMap_cons, List.append_eq_append_iff] at heq
      obtain ⟨s', rfl, hrest⟩ | ⟨c, hp, hrest⟩ := heq
      · obtain ⟨l, l', rfl, rfl, hl'⟩ := ih s' hwhole.2 hrest
        exact ⟨p :: l, l', rfl, rfl, hl'⟩
      · -- the part begins within the character `p`, so at its first byte or behind its last
        obtain ⟨b, u, hb, hu⟩ := bytes_of_whole hwhole.1
        cases s with
        | nil => exact ⟨[], p :: ps, rfl, rfl, by rw [List.flatMap_cons, hp, hrest]; rfl⟩
        | cons d s =>
          cases c with
          | nil =>
            refine ⟨[p], ps, rfl, ?_, ?_⟩
            · rw [List.flatMap_cons, hp]
              simp
            · rw [hrest, List.nil_append]
          | cons e c =>
            have he : isCont e = true := by
              rw [hb, List.cons_append, List.cons.injEq] at hp
              exact hu e (by simp [hp.2])
            exact absurd (ht e (by simp [hrest])) (by simp [he])
  obtain ⟨l, l', hl, rfl, rfl⟩ := hcut _ s (whole_of_isText h) (pieces_flatten _)
  rw [hl, pieces_left hl, pieces_right hl]

theorem map_inj_on {α β : Type} {f : α → β} {l m : List α}
    (hf : ∀ a ∈ l, ∀ b ∈ m, f a = f b → a = b) (h : l.map f = m.map f) : l = m := by
  induction l generalizing m with
  | nil => exact (List.map_eq_nil_iff.1 h.symm).symm
  | cons a l ih =>
    cases m with
    | nil => cases h
    | cons b m =>
      rw [List.map_cons, List.map_cons, List.cons.injEq] at h
      rw [hf a List.mem_cons_self b List.mem_cons_self h.1,
        ih (fun a ha b hb => hf a (List.mem_cons_of_mem _ ha) b (List.mem_cons_of_mem _ hb)) h.2]

/-- Characters of legible texts that read alike are the same. -/
theorem readAs_inj (hv : Legible v) (hs : Legible s) {p q : Piece} (hp : p ∈ pieces v)
    (hq : q ∈ pieces s) (h : readAs p = readAs q) : p = q := by
  have hmulti : ∀ {s bs}, Legible s → .multi bs ∈ pieces s →
      IsChar bs ∧ readAs (.multi bs) = charBits bs := fun hs hbs =>
    ⟨isChar_of_mem hbs, checkChar_charBits (isChar_of_mem hbs)
      fun hno => hs.noSubstitute _ hno hbs⟩
  have hascii : ∀ {s b}, .ascii b ∈ pieces s → readAs (.ascii b) < 0x80 := fun hb =>
    UInt8.lt_iff_toNat_lt.1 (ascii_lt hb)
  cases p with
  | bad b => exact absurd hp (hv.text b)
  | ascii b =>
    cases q with
    | bad c => exact absurd hq (hs.text c)
    | ascii c => rw [UInt8.toNat_inj.1 h]
    | multi cs =>
      have hge := (charBits_ge (hmulti hs hq).1).1
      have hlt := hascii hp
      rw [h, (hmulti hs hq).2] at hlt
      omega
  | multi bs =>
    cases q with
    | bad c => exact absurd hq (hs.text c)
    | ascii c =>
      have hge := (charBits_ge (hmulti hv hp).1).1
      have hlt := hascii hq
      rw [← h, (hmulti hv hp).2] at hlt
      omega
    | multi cs =>
      rw [(hmulti hv hp).2, (hmulti hs hq).2] at h
      rw [charBits_inj (hmulti hv hp).1 (hmulti hs hq).1 h]

/-- At the start of legible text, bytes and characters tell the same. -/
theorem chars_prefix_iff (hv : Legible v) (hs : Legible s) : chars v <+: chars s ↔ v <+: s := by
  rw [chars_of_isText hv.text hv.noZero, chars_of_isText hs.text hs.noZero]
  constructor
  · rintro ⟨t, ht⟩
    obtain ⟨l, l', hl, heq, -⟩ := List.map_eq_append_iff.1 ht.symm
    have hsame : pieces v = l := map_inj_on
      (fun p hp q hq => readAs_inj hv hs hp (hl ▸ List.mem_append_left l' hq)) heq.symm
    refine ⟨l'.flatMap Piece.bytes, ?_⟩
    rw [← pieces_flatten v, hsame, ← List.flatMap_append, ← hl, pieces_flatten]
  · rintro ⟨t, rfl⟩
    rw [hv.text.pieces_append, List.map_append]
    exact List.prefix_append _ _

/-- What stands in a text by its bytes stands there by its characters. -/
theorem isRun_of_within (hv : Url.IsText v) (hs : Url.IsText s) (h : v <:+: s) : IsRun v s := by
  obtain ⟨a, t, rfl⟩ := h
  cases v with
  | nil => exact List.nil_infix
  | cons b v =>
    have hfresh : Fresh (b :: v ++ t) := fun d hd => fresh_of_isText hv d hd
    rw [List.append_assoc] at hs ⊢
    rw [IsRun, pieces_append_of_fresh hs hfresh, hv.pieces_append]
    exact ⟨_, _, List.append_assoc _ _ _⟩

/-- Within legible text, bytes and characters tell the same. -/
theorem chars_infix_iff (hv : Legible v) (hs : Legible s) : chars v <:+: chars s ↔ v <:+: s := by
  rw [chars_of_isText hv.text hv.noZero, chars_of_isText hs.text hs.noZero]
  constructor
  · rintro ⟨a, t, ht⟩
    obtain ⟨l, l', hl, heq, -⟩ := List.map_eq_append_iff.1 ht.symm
    obtain ⟨m, m', rfl, -, hm⟩ := List.map_eq_append_iff.1 heq
    have hsame : pieces v = m' := map_inj_on
      (fun p hp q hq => readAs_inj hv hs hp (by rw [hl]; simp [hq])) hm.symm
    refine ⟨m.flatMap Piece.bytes, l'.flatMap Piece.bytes, ?_⟩
    conv_lhs => rw [← pieces_flatten v, hsame]
    rw [← List.flatMap_append, ← List.flatMap_append, ← hl, pieces_flatten]
  · exact fun h => (isRun_of_within hv.text hs.text h).map readAs

theorem legible_of_ascii (h : s.all (fun b => b != 0 && b < 0x80) = true) : Legible s := by
  simp only [List.all_eq_true, Bool.and_eq_true, bne_iff_ne, decide_eq_true_iff] at h
  have hascii : ∀ b ∈ s, b < 0x80 := fun b hb => (h b hb).2
  refine ⟨Url.isText_of_ascii (by simpa using hascii), fun hmem => (h 0 hmem).1 rfl, ?_⟩
  intro bs _ hbs
  simp [pieces_of_ascii hascii] at hbs

/-- Folding ASCII letters folds the characters one by one. -/
theorem pieces_map_lowerByte (h : Url.IsText s) :
    pieces (s.map lowerByte) = (pieces s).map (Piece.lowered .asciiOnly) := by
  have hcaseless : Caseless .asciiOnly s := by
    intro p hp
    cases p with
    | ascii b => trivial
    | multi bs => rfl
    | bad b => exact h b hp
  rw [← hcaseless.toLower_eq, pieces_toLower simpleCase_asciiOnly]

theorem lowered_asciiOnly (h : IsChar bs) : Piece.lowered .asciiOnly (.multi bs) = .multi bs := by
  obtain ⟨b, -, hle, hb, -⟩ | ⟨-, -, hsame⟩ := lowered_multi simpleCase_asciiOnly h
  · obtain ⟨c, t, rfl, hge, -⟩ := isChar_bytes h
    obtain ⟨rfl, -⟩ := List.cons.inj hb
    exact absurd (hge.trans hle) (by decide)
  · exact hsame

/-- Folding ASCII letters leaves text legible. -/
theorem Legible.lower (h : Legible s) : Legible (s.map lowerByte) := by
  have hkeep : ∀ p ∈ pieces (s.map lowerByte), (∃ b, p = .ascii b) ∨ p ∈ pieces s := by
    intro p hp
    rw [pieces_map_lowerByte h.text] at hp
    obtain ⟨q, hq, rfl⟩ := List.mem_map.1 hp
    cases q with
    | ascii c => exact .inl ⟨_, rfl⟩
    | multi bs => exact .inr (by rwa [lowered_asciiOnly (isChar_of_mem hq)])
    | bad c => exact absurd hq (h.text c)
  refine ⟨fun b hb => ?_, ?_, fun bs hno hbs => ?_⟩
  · exact h.text b ((hkeep _ hb).resolve_left (by simp))
  · intro hmem
    obtain ⟨b, hb, hzero⟩ := List.mem_map.1 hmem
    exact h.noZero (eq_zero_of_lowerByte hzero ▸ hb)
  · exact h.noSubstitute bs hno ((hkeep _ hbs).resolve_left (by simp))

/-- **In legible text `LIKE 'v%'` is the test of Go**, of bytes at the start. -/
theorem likeStarts_legible (hv : Legible v) (hs : Legible s) :
    likeStarts v s = true ↔ v <+: s := by
  rw [likeStarts, if_neg hv.noZero, decide_eq_true_iff, chars_prefix_iff hv hs]

/-- **In legible text `LIKE '%v%'` is the test of Go**, of bytes within. -/
theorem likeWithin_legible (hv : Legible v) (hs : Legible s) :
    likeWithin v s = true ↔ v <:+: s := by
  rw [likeWithin, if_neg hv.noZero, decide_eq_true_iff, chars_infix_iff hv hs]

end Legible

/-! ### Letters of either case -/

section Letters

variable {U : Unicode} {s v m : GoString}

theorem isText_toLower (hU : U.SimpleCase) (s : GoString) : Url.IsText (toLower U s) := by
  intro b hb
  rw [pieces_toLower hU] at hb
  obtain ⟨p, hp, hlow⟩ := List.mem_map.1 hb
  have hwhole := lowered_whole hU hp
  rw [hlow] at hwhole
  exact hwhole

/-- Characters of a text one after the other, after each of them has been mapped. -/
theorem exists_run {f : Piece → Piece} {x : GoString} (h : pieces x <:+: (pieces s).map f) :
    ∃ m, IsRun m s ∧ (pieces m).map f = pieces x := by
  obtain ⟨y, z, hyz⟩ := h
  obtain ⟨l, l', hl, hm, -⟩ := List.map_eq_append_iff.1 hyz.symm
  obtain ⟨l₀, m, rfl, -, hm⟩ := List.map_eq_append_iff.1 hm
  have hpieces := pieces_middle hl
  exact ⟨m.flatMap Piece.bytes, ⟨l₀, l', by rw [hpieces, hl]⟩, by rw [hpieces, hm]⟩

/-- **What stands in a text but for case**: some of its characters, one after the other, that have
the same lower case. -/
theorem infix_toLower_iff (hU : U.SimpleCase) :
    toLower U v <:+: toLower U s ↔ ∃ m, IsRun m s ∧ toLower U m = toLower U v := by
  constructor
  · intro h
    have hrun := isRun_of_within (isText_toLower hU v) (isText_toLower hU s) h
    rw [IsRun, pieces_toLower hU s] at hrun
    obtain ⟨m, hrun, hm⟩ := exists_run hrun
    refine ⟨m, hrun, ?_⟩
    rw [← pieces_flatten (toLower U m), pieces_toLower hU, hm, pieces_flatten]
  · rintro ⟨m, ⟨l, l', hl⟩, hm⟩
    refine ⟨l.flatMap (Piece.lower U), l'.flatMap (Piece.lower U), ?_⟩
    rw [← hm, toLower, toLower, ← hl, List.flatMap_append, List.flatMap_append]

/-- **In legible text the search for ASCII letters of either case finds what has no others.** -/
theorem infix_lower_iff (hU : U.SimpleCase) (hv : Legible (toLower U v)) (hs : Legible s) :
    toLower U v <:+: s.map lowerByte ↔
      ∃ m, IsRun m s ∧ toLower U m = toLower U v ∧ Caseless U m := by
  constructor
  · intro h
    have hrun := isRun_of_within hv.text hs.lower.text h
    rw [IsRun, pieces_map_lowerByte hs.text] at hrun
    obtain ⟨m, hrun, hm⟩ := exists_run hrun
    have hcaseless : Caseless U m := by
      intro p hp
      have hmem : p ∈ pieces s := hrun.subset hp
      cases p with
      | ascii b => trivial
      | bad b => exact hs.text b hmem
      | multi bs =>
        -- the letter is one of the needle, which is in lower case
        have hneedle : .multi bs ∈ pieces (toLower U v) := by
          rw [← hm, ← lowered_asciiOnly (isChar_of_mem hmem)]
          exact List.mem_map_of_mem hp
        rw [pieces_toLower hU] at hneedle
        obtain ⟨q, hq, hlow⟩ := List.mem_map.1 hneedle
        have hidem := lowered_lowered hU hq
        rw [hlow, ← lowered_bytes q, hlow] at hidem
        exact hidem
    refine ⟨m, hrun, ?_, hcaseless⟩
    have htext : Url.IsText m := fun b hb => hcaseless _ hb
    rw [hcaseless.toLower_eq, ← pieces_flatten (m.map lowerByte), pieces_map_lowerByte htext, hm,
      pieces_flatten]
  · rintro ⟨m, hrun, hm, hcaseless⟩
    rw [← hm, hcaseless.toLower_eq]
    exact hrun.isInfix.map lowerByte

end Letters

/-! ### ASCII -/

/-- What `LIKE 'n%'` comes to if the needle or the text is ASCII: the needle is at the start of the
text. A NUL cuts either, and with the rest of the needle the `%` behind it. -/
def SeenFirst (n s : GoString) : Prop :=
  if 0 ∈ n then before n 0 = before s 0 else n <+: before s 0

/-- What `LIKE '%n%'` comes to if the needle or the text is ASCII. -/
def Seen (n s : GoString) : Prop :=
  if 0 ∈ n then before n 0 <:+ before s 0 else n <:+: before s 0

instance (n s : GoString) : Decidable (Seen n s) := inferInstanceAs (Decidable (ite _ _ _))

section Ascii

variable {s t v n a c : GoString}

/-- A character that was begun is not ASCII. -/
theorem charsFrom_some (k : ℕ) (s : GoString) :
    ∃ d l, charsFrom (some k) s = d :: l ∧ 0x80 ≤ d := by
  induction s generalizing k with
  | nil => exact ⟨checkChar k, [], rfl, checkChar_ge k⟩
  | cons b s ih =>
    rw [charsFrom]
    split_ifs
    · exact ih (addCont k b)
    all_goals exact ⟨checkChar k, _, rfl, checkChar_ge k⟩

theorem chars_ascii_append (hv : ∀ b ∈ v, b < 0x80) (h₀ : 0 ∉ v) (t : GoString) :
    chars (v ++ t) = v.map UInt8.toNat ++ chars t := by
  induction v with
  | nil => rfl
  | cons b v ih =>
    rw [List.forall_mem_cons] at hv
    rw [List.mem_cons, not_or] at h₀
    rw [List.cons_append, chars_single (Ne.symm h₀.1) (hv.1.trans (by decide)), ih hv.2 h₀.2,
      List.map_cons, List.cons_append]

theorem chars_ascii (hv : ∀ b ∈ v, b < 0x80) (h₀ : 0 ∉ v) : chars v = v.map UInt8.toNat := by
  simpa using chars_ascii_append hv h₀ []

theorem eq_nil_of_chars (h₀ : 0 ∉ t) (h : chars t = []) : t = [] := by
  cases t with
  | nil => rfl
  | cons b t =>
    rw [List.mem_cons, not_or] at h₀
    rw [chars_cons, if_neg (Ne.symm h₀.1)] at h
    split_ifs at h
    obtain ⟨d, l, hd, -⟩ := charsFrom_some (leadBits b) t
    rw [hd] at h
    cases h

/-- Text that is read as ASCII is ASCII. -/
theorem ascii_of_chars (h₀ : 0 ∉ t) (h : ∀ k ∈ chars t, k < 0x80) : ∀ b ∈ t, b < 0x80 := by
  induction t with
  | nil => simp
  | cons b t ih =>
    rw [List.mem_cons, not_or] at h₀
    rw [chars_cons, if_neg (Ne.symm h₀.1)] at h
    split_ifs at h with hlt
    · rw [List.forall_mem_cons] at h ⊢
      exact ⟨UInt8.lt_iff_toNat_lt.2 h.1, ih h₀.2 h.2⟩
    · obtain ⟨d, l, hd, hge⟩ := charsFrom_some (leadBits b) t
      have := h d (by rw [hd]; exact List.mem_cons_self)
      omega

/-- What is read as ASCII text is that text. -/
theorem eq_of_chars (ht : 0 ∉ t) (hv : 0 ∉ v) (hascii : ∀ b ∈ v, b < 0x80)
    (h : chars t = chars v) : t = v := by
  rw [chars_ascii hascii hv] at h
  have htascii : ∀ b ∈ t, b < 0x80 := by
    refine ascii_of_chars ht fun k hk => ?_
    rw [h] at hk
    obtain ⟨b, hb, rfl⟩ := List.mem_map.1 hk
    exact UInt8.lt_iff_toNat_lt.1 (hascii b hb)
  rw [chars_ascii htascii ht] at h
  exact List.map_injective_iff.2 (fun b c => UInt8.toNat_inj.1) h

/-- ASCII text that is read at a place stands there, and so does what is read in ASCII text. -/
theorem exists_of_chars (hs : 0 ∉ s) (hv : 0 ∉ v)
    (hascii : (∀ b ∈ v, b < 0x80) ∨ ∀ b ∈ s, b < 0x80) {x z : List ℕ}
    (h : chars s = x ++ chars v ++ z) :
    ∃ a c, s = a ++ v ++ c ∧ (x = [] → a = []) ∧ (z = [] → c = []) := by
  obtain ⟨a, u, c, hcut, rfl, hu, rfl⟩ := exists_cut h
  obtain rfl := hcut.text
  simp only [List.mem_append, not_or] at hs
  obtain rfl : u = v := by
    rcases hascii with hascii | hascii
    · exact eq_of_chars hs.1.2 hv hascii hu
    · exact (eq_of_chars hv hs.1.2 (fun b hb => hascii b (by simp [hb])) hu.symm).symm
  exact ⟨a, c, rfl, eq_nil_of_chars hs.1.1, eq_nil_of_chars hs.2⟩

/-- ASCII text that stands at a place is read there. -/
theorem chars_place (hv : 0 ∉ v) (ha : 0 ∉ a) (hascii : ∀ b ∈ v, b < 0x80) (hne : v ≠ []) :
    chars (a ++ v ++ c) = chars a ++ chars v ++ chars c := by
  obtain ⟨b, v, rfl⟩ := List.exists_cons_of_ne_nil hne
  have hfresh : Fresh (b :: v ++ c) := fresh_cons (hascii b List.mem_cons_self)
  rw [List.append_assoc, chars_append ha hfresh, chars_ascii_append hascii hv,
    chars_ascii hascii hv, List.append_assoc]

section Whole

variable (hs : 0 ∉ s) (hv : 0 ∉ v) (hascii : (∀ b ∈ v, b < 0x80) ∨ ∀ b ∈ s, b < 0x80)

include hs hv hascii

theorem ascii_infix_iff : chars v <:+: chars s ↔ v <:+: s := by
  by_cases hne : v = []
  · simp [hne]
  constructor
  · rintro ⟨x, z, h⟩
    obtain ⟨a, c, rfl, -, -⟩ := exists_of_chars hs hv hascii h.symm
    exact ⟨a, c, rfl⟩
  · rintro ⟨a, c, rfl⟩
    have hlow : ∀ b ∈ v, b < 0x80 := hascii.elim id fun h b hb => h b (by simp [hb])
    rw [chars_place hv (fun h => hs (by simp [h])) hlow hne]
    exact ⟨_, _, rfl⟩

theorem ascii_suffix_iff : chars v <:+ chars s ↔ v <:+ s := by
  by_cases hne : v = []
  · simp [hne]
  constructor
  · rintro ⟨x, h⟩
    obtain ⟨a, c, rfl, -, hc⟩ :=
      exists_of_chars hs hv hascii (h.symm.trans (List.append_nil _).symm)
    rw [hc rfl, List.append_nil]
    exact List.suffix_append a v
  · rintro ⟨a, rfl⟩
    have hlow : ∀ b ∈ v, b < 0x80 := hascii.elim id fun h b hb => h b (by simp [hb])
    have hplace := @chars_place v a [] hv (fun h => hs (by simp [h])) hlow hne
    rw [List.append_nil, chars_nil, List.append_nil] at hplace
    exact ⟨_, hplace.symm⟩

theorem ascii_prefix_iff : chars v <+: chars s ↔ v <+: s := by
  constructor
  · rintro ⟨z, h⟩
    obtain ⟨a, c, rfl, ha, -⟩ := exists_of_chars hs hv hascii (x := []) h.symm
    rw [ha rfl]
    exact List.prefix_append v c
  · rintro ⟨c, rfl⟩
    have hlow : ∀ b ∈ v, b < 0x80 := hascii.elim id fun h b hb => h b (by simp [hb])
    rw [chars_ascii_append hlow hv, chars_ascii hlow hv]
    exact List.prefix_append _ _

theorem ascii_eq_iff : chars v = chars s ↔ v = s := by
  refine ⟨fun h => ?_, fun h => h ▸ rfl⟩
  rcases hascii with hascii | hascii
  · exact (eq_of_chars hs hv hascii h.symm).symm
  · exact eq_of_chars hv hs hascii h

end Whole

theorem ascii_before (h : (∀ b ∈ n, b < 0x80) ∨ ∀ b ∈ s, b < 0x80) :
    (∀ b ∈ before n 0, b < 0x80) ∨ ∀ b ∈ before s 0, b < 0x80 :=
  h.imp (fun h b hb => h b ((List.takeWhile_prefix _).subset hb))
    fun h b hb => h b ((List.takeWhile_prefix _).subset hb)

/-- **Where the needle or the text is ASCII**, `LIKE 'n%'` is the test of Go but for NULs. -/
theorem likeStarts_ascii (h : (∀ b ∈ n, b < 0x80) ∨ ∀ b ∈ s, b < 0x80) :
    likeStarts n s = true ↔ SeenFirst n s := by
  have hs := not_mem_before s 0
  have hn := not_mem_before n 0
  rw [likeStarts, SeenFirst, ← chars_before n, ← chars_before s]
  split_ifs with h₀
  · rw [decide_eq_true_iff, ascii_eq_iff hs hn (ascii_before h)]
  · rw [decide_eq_true_iff, ascii_prefix_iff hs hn (ascii_before h), before_of_not_mem h₀]

/-- **Where the needle or the text is ASCII**, `LIKE '%n%'` is the test of Go but for NULs. -/
theorem likeWithin_ascii (h : (∀ b ∈ n, b < 0x80) ∨ ∀ b ∈ s, b < 0x80) :
    likeWithin n s = true ↔ Seen n s := by
  have hs := not_mem_before s 0
  have hn := not_mem_before n 0
  rw [likeWithin, Seen, ← chars_before n, ← chars_before s]
  split_ifs with h₀
  · rw [decide_eq_true_iff, ascii_suffix_iff hs hn (ascii_before h)]
  · rw [decide_eq_true_iff, ascii_infix_iff hs hn (ascii_before h), before_of_not_mem h₀]

end Ascii

end HttpCatch.Sql
