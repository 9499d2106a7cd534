import HttpCatch.SearchQL.Tokens

/-!
# Chips

`chipsFromQuery` of `internal/admin/ui_views.go` shows the terms of a query as chips. The
token of a chip is text of the search language; the page puts the tokens, joined by
spaces, back into the search box.

* `chipToken_spec` — the token of a chip is one token, and parses to the term it shows.
* `chipsFromQuery_roundTrip` — the tokens of all chips parse to the query they show.
-/

namespace HttpCatch.Admin

open HttpCatch.Go HttpCatch.SearchQL

/-! ### The code -/

/-- `strings.ReplaceAll(s, "\"", "\\\"")`. -/
def escapeQuotes : GoString → GoString
  | [] => []
  | c :: s => if c == 0x22 then 0x5C :: 0x22 :: escapeQuotes s else c :: escapeQuotes s

/-- The value of a term without a status filter, as text. -/
def renderValue (value : GoString) (wildcard : Wildcard) (quotedLiteral : Bool) : GoString :=
  if quotedLiteral then 0x22 :: (escapeQuotes value ++ [0x22])
  else
    match wildcard with
    | .wildcardPrefix => value ++ [0x2A]
    | .wildcardSubstring => [0x2A] ++ value ++ [0x2A]
    | .wildcardNone => value

/-- `chipDisplayValue`. -/
def chipDisplayValue (t : Term) : GoString :=
  match t.statusFilter with
  | some sf => if sf.exact ≠ 0 then sprintDecimal sf.exact else sf.cls
  | none => renderValue t.value t.wildcard t.quotedLiteral

/-- `string(t.Field)`. -/
def fieldName : Field → GoString
  | .freeform => []
  | .host => str "host"
  | .path => str "path"
  | .service => str "service"
  | .body => str "body"
  | .headers => str "headers"
  | .header => str "header"
  | .method => str "method"
  | .status => str "status"
  | .sourceIP => str "source_ip"
  | .correlationID => str "correlation_id"
  | .hasEvents => str "has_events"

/-- `chipView`. -/
structure ChipView where
  token : GoString
  key : GoString
  value : GoString
  negated : Bool
  isHeader : Bool
  isFreeform : Bool
  deriving DecidableEq

/-- The key of a chip. -/
def chipKey (t : Term) : GoString :=
  if t.field = .header then str "header." ++ t.headerName else fieldName t.field

/-- The token of a chip without its minus. -/
def chipBody (t : Term) : GoString :=
  if t.field = .freeform then chipDisplayValue t else chipKey t ++ 0x3A :: chipDisplayValue t

/-- The chip of a term: the body of the loop of `chipsFromQuery`. -/
def chipFromTerm (t : Term) : ChipView where
  token := if t.negated then 0x2D :: chipBody t else chipBody t
  key := chipKey t
  value := chipDisplayValue t
  negated := t.negated
  isHeader := t.field = .headers || t.field = .header
  isFreeform := t.field = .freeform

/-- `chipsFromQuery`. -/
def chipsFromQuery (q : Query) : List ChipView := q.terms.map chipFromTerm

/-! ### Quoted values -/

theorem head?_escapeQuotes (v : GoString) : (escapeQuotes v).head? ≠ some 0x22 := by
  cases v with
  | nil => simp [escapeQuotes]
  | cons c v =>
    rw [escapeQuotes]
    split_ifs with hc
    · simp
    · simpa using hc

/-- Taking the backslashes away again gives the value. -/
theorem unescapeQuotes_escapeQuotes (v : GoString) : unescapeQuotes (escapeQuotes v) = v := by
  induction v with
  | nil => rfl
  | cons c v ih =>
    rw [escapeQuotes]
    split_ifs with hc
    · obtain rfl := beq_iff_eq.mp hc
      simp [unescapeQuotes, ih]
    · rw [unescapeQuotes, if_neg, ih]
      simp [head?_escapeQuotes]

theorem getLast?_unescapeQuotes (s : GoString) : (unescapeQuotes s).getLast? = s.getLast? := by
  induction s with
  | nil => rfl
  | cons c s ih =>
    rw [unescapeQuotes, List.getLast?_cons]
    split_ifs with hc
    · -- the backslash that goes is before a quote, so it is not last
      rw [ih]
      cases s with
      | nil => simp at hc
      | cons d s => simp [List.getLast?_cons]
    · rw [List.getLast?_cons, ih]

variable {st : QuoteState} {s : GoString} {b c : UInt8} {f : Field}

/-- Inside quotes the reader passes over a value with escaped quotes; it has seen a backslash
last when the value ends in one. -/
theorem read_escapeQuotes (v : GoString) (hst : st ≠ .outside) :
    st.read (escapeQuotes v) =
      some (v.getLast?.elim st fun c => if c = 0x5C then .escape else .inside) := by
  induction v generalizing st with
  | nil => rfl
  | cons c v ih =>
    rw [escapeQuotes, List.getLast?_cons]
    split_ifs with hc
    · obtain rfl := beq_iff_eq.mp hc
      have hstep : st.step 0x5C = some .escape := by cases st <;> first | exact absurd rfl hst | rfl
      rw [QuoteState.read, hstep, Option.bind_some, QuoteState.read,
        show QuoteState.escape.step 0x22 = some .inside from rfl, Option.bind_some, ih (by decide)]
      cases v.getLast? <;> rfl
    · have hq : c ≠ 0x22 := by simpa using hc
      by_cases hb : c = 0x5C
      · subst hb
        have hstep : st.step 0x5C = some .escape := by
          cases st <;> first | exact absurd rfl hst | rfl
        rw [QuoteState.read, hstep, Option.bind_some, ih (by decide)]
        cases v.getLast? <;> rfl
      · have hstep : st.step c = some .inside := by
          cases st <;> first | exact absurd rfl hst | simp [QuoteState.step, hq, hb]
        rw [QuoteState.read, hstep, Option.bind_some, ih (by decide)]
        cases v.getLast? <;> simp [hb]

/-- A text that leaves the reader inside, not after a backslash, does not end in one. -/
theorem getLast?_of_read_inside (h : st.read s = some .inside) : s.getLast? ≠ some 0x5C := by
  intro hlast
  obtain ⟨t, rfl⟩ := List.getLast?_eq_some_iff.mp hlast
  rw [QuoteState.read_append] at h
  obtain ⟨st', -, hst'⟩ := Option.bind_eq_some_iff.mp h
  cases st' <;> simp [QuoteState.read, QuoteState.step, isASCIISpace] at hst'

theorem read_inside_escaped {inner : GoString} (h : st.read inner = some .inside) :
    QuoteState.inside.read (escapeQuotes (unescapeQuotes inner)) = some .inside := by
  rw [read_escapeQuotes _ (by decide), getLast?_unescapeQuotes]
  have hlast := getLast?_of_read_inside h
  cases hl : inner.getLast? with
  | none => rfl
  | some c =>
    have hc : c ≠ 0x5C := fun hc => hlast (hl.trans (congrArg some hc))
    simp [hc]

/-- Quoting again keeps what a quoted text does to the reader, also when its first quote closes
one that the key has opened. -/
theorem read_requoted {inner : GoString} (hst : st ≠ .escape) (h : st.read inner = some .inside) :
    st.read (escapeQuotes (unescapeQuotes inner)) = some .inside := by
  cases st with
  | escape => exact absurd rfl hst
  | inside => exact read_inside_escaped h
  | outside =>
    induction inner with
    | nil => cases h
    | cons c s ih =>
      by_cases hq : c = 0x22
      · subst hq
        have hs : QuoteState.inside.read s = some .inside := h
        have : escapeQuotes (unescapeQuotes (0x22 :: s)) =
            0x5C :: 0x22 :: escapeQuotes (unescapeQuotes s) := rfl
        rw [this]
        exact read_inside_escaped hs
      · have hstep : QuoteState.outside.step c = some .outside := by
          cases hsp : isASCIISpace c with
          | false => exact QuoteState.step_outside hsp hq
          | true => simp [QuoteState.read, QuoteState.step, hq, hsp] at h
        have hs : QuoteState.outside.read s = some .inside := by
          simpa [QuoteState.read, hstep] using h
        rw [unescapeQuotes]
        split_ifs with hb
        · exact ih hs
        · rw [escapeQuotes, if_neg (by simpa using hq), QuoteState.read, hstep]
          exact ih hs

/-! ### Values -/

/-- Stars at the ends of a text do nothing to the reader. -/
theorem read_starred (hst : st ≠ .escape) (leading trailing : Bool) (v : GoString) :
    st.read (starred leading trailing v) = some .outside ↔ st.read v = some .outside := by
  have hlead : st.read (if leading then [0x2A] else []) = some st := by
    cases leading <;> cases st <;> first | rfl | exact absurd rfl hst
  have htrail : ∀ st' : QuoteState, st'.read (if trailing then [0x2A] else []) = some .outside ↔
      st' = .outside := by
    intro st'
    cases trailing <;> cases st' <;> decide
  rw [starred, QuoteState.read_append, QuoteState.read_append, hlead, Option.bind_some]
  cases st.read v with
  | none => simp
  | some st' => simpa using htrail st'

theorem renderValue_starred (leading trailing : Bool) (v : GoString) :
    renderValue v (starredWildcard leading trailing) false =
      starred leading (leading || trailing) v := by
  cases leading <;> cases trailing <;> simp [renderValue, starredWildcard, starred]

/-- **The text of a value parses to it**, and does to the reader what the text it was parsed
from did. -/
theorem renderValue_spec {raw v : GoString} {w : Wildcard} {quoted : Bool}
    (h : parseValue raw = .ok (v, w, quoted)) :
    parseValue (renderValue v w quoted) = .ok (v, w, quoted) ∧
      ∀ st : QuoteState, st ≠ .escape → st.read raw = some .outside →
        st.read (renderValue v w quoted) = some .outside := by
  rcases parseValue_cases h with ⟨inner, rfl, hv⟩ | ⟨leading, trailing, text, rfl, hbare, hv⟩
  · obtain ⟨rfl, rfl, rfl⟩ : v = unescapeQuotes inner ∧ w = .wildcardNone ∧ quoted = true := by
      simpa using hv
    have hrender : renderValue (unescapeQuotes inner) .wildcardNone true =
        0x22 :: (escapeQuotes (unescapeQuotes inner) ++ [0x22]) := rfl
    rw [hrender, parseValue_quoted, unescapeQuotes_escapeQuotes]
    refine ⟨rfl, fun st hst hread => ?_⟩
    rw [QuoteState.read] at hread ⊢
    obtain ⟨st', hst', hread⟩ := Option.bind_eq_some_iff.mp hread
    rw [hst', Option.bind_some, QuoteState.read_append]
    rw [QuoteState.read_append] at hread
    obtain ⟨st'', hinner, hlast⟩ := Option.bind_eq_some_iff.mp hread
    -- the last quote closes, so the reader is inside before it
    obtain rfl : st'' = .inside := by cases st'' <;> first | rfl | (revert hlast; decide)
    have hne : st' ≠ .escape := by
      rintro rfl
      cases st <;> simp [QuoteState.step] at hst' hst
    rw [read_requoted hne hinner]
    rfl
  · obtain ⟨rfl, rfl, rfl⟩ : v = text ∧ w = starredWildcard leading trailing ∧ quoted = false := by
      simpa using hv
    rw [renderValue_starred, parseValue_starred hbare]
    refine ⟨by cases leading <;> cases trailing <;> rfl, fun st hst hread => ?_⟩
    rw [read_starred hst] at hread ⊢
    exact hread

/-! ### Keys -/

/-- A byte of a name in canonical form that is no letter is a byte of the name. -/
theorem mem_of_mem_canonicalFrom {up : Bool} (hb : b ∈ canonicalFrom up s)
    (hup : ¬ (0x41 ≤ b ∧ b ≤ 0x5A)) (hlow : ¬ (0x61 ≤ b ∧ b ≤ 0x7A)) : b ∈ s := by
  induction s generalizing up with
  | nil => simp [canonicalFrom] at hb
  | cons c s ih =>
    rw [canonicalFrom, List.mem_cons] at hb
    rcases hb with hb | hb
    · have hbc : b = c := by
        rw [hb] at hup hlow
        cases up with
        | true =>
          simp only [if_true] at hb hup
          rw [hb, upperByte]
          rw [upperByte] at hup
          split_ifs at hup ⊢ with hc
          · simp only [Bool.and_eq_true, decide_eq_true_eq, UInt8.le_iff_toNat_le, UInt8.toNat_sub,
              UInt8.reduceToNat] at hc hup
            omega
          · rfl
        | false =>
          simp only [Bool.false_eq_true, if_false] at hb hlow
          rw [hb, lowerByte]
          rw [lowerByte] at hlow
          split_ifs at hlow ⊢ with hc
          · simp only [Bool.and_eq_true, decide_eq_true_eq, UInt8.le_iff_toNat_le, UInt8.toNat_add,
              UInt8.reduceToNat] at hc hlow
            omega
          · rfl
      exact List.mem_cons.mpr (.inl hbc)
    · exact List.mem_cons_of_mem _ (ih hb)

theorem upperByte_dash (c : UInt8) : (upperByte c == 0x2D) = (c == 0x2D) := by
  rw [Bool.eq_iff_iff, beq_iff_eq, beq_iff_eq, upperByte]
  split_ifs with h
  · simp only [Bool.and_eq_true, decide_eq_true_eq, UInt8.le_iff_toNat_le, UInt8.reduceToNat] at h
    simp only [← UInt8.toNat_inj, UInt8.toNat_sub, UInt8.reduceToNat]
    omega
  · rfl

theorem lowerByte_dash (c : UInt8) : (lowerByte c == 0x2D) = (c == 0x2D) := by
  rw [Bool.eq_iff_iff, beq_iff_eq, beq_iff_eq, lowerByte]
  split_ifs with h
  · simp only [Bool.and_eq_true, decide_eq_true_eq, UInt8.le_iff_toNat_le, UInt8.reduceToNat] at h
    simp only [← UInt8.toNat_inj, UInt8.toNat_add, UInt8.reduceToNat]
    omega
  · rfl

theorem canonicalFrom_idem (up : Bool) (s : GoString) :
    canonicalFrom up (canonicalFrom up s) = canonicalFrom up s := by
  induction s generalizing up with
  | nil => rfl
  | cons c s ih =>
    cases up
    · simp only [canonicalFrom, Bool.false_eq_true, if_false, lowerByte_dash, lowerByte_idem, ih]
    · simp only [canonicalFrom, if_true, upperByte_dash, upperByte_idem, ih]

theorem valid_upperByte (h : validHeaderFieldByte c = true) :
    validHeaderFieldByte (upperByte c) = true := by
  rw [upperByte]
  split_ifs with hc
  · simp only [Bool.and_eq_true, decide_eq_true_eq, UInt8.le_iff_toNat_le, UInt8.reduceToNat] at hc
    simp only [validHeaderFieldByte, Bool.or_eq_true, Bool.and_eq_true, decide_eq_true_eq,
      UInt8.le_iff_toNat_le, UInt8.toNat_sub, UInt8.reduceToNat]
    exact .inl (.inl (.inr ⟨by omega, by omega⟩))
  · exact h

theorem valid_lowerByte (h : validHeaderFieldByte c = true) :
    validHeaderFieldByte (lowerByte c) = true := by
  rw [lowerByte]
  split_ifs with hc
  · simp only [Bool.and_eq_true, decide_eq_true_eq, UInt8.le_iff_toNat_le, UInt8.reduceToNat] at hc
    simp only [validHeaderFieldByte, Bool.or_eq_true, Bool.and_eq_true, decide_eq_true_eq,
      UInt8.le_iff_toNat_le, UInt8.toNat_add, UInt8.reduceToNat]
    exact .inl (.inr ⟨by omega, by omega⟩)
  · exact h

theorem valid_canonicalFrom (h : s.all validHeaderFieldByte = true) (up : Bool) :
    (canonicalFrom up s).all validHeaderFieldByte = true := by
  induction s generalizing up with
  | nil => rfl
  | cons c s ih =>
    obtain ⟨hc, hs⟩ := Bool.and_eq_true_iff.mp ((List.all_cons ..).symm.trans h)
    rw [canonicalFrom, List.all_cons, ih hs, Bool.and_true]
    cases up
    · exact valid_lowerByte hc
    · exact valid_upperByte hc

/-- `CanonicalMIMEHeaderKey` is idempotent. -/
theorem canonicalMIMEHeaderKey_idem (s : GoString) :
    canonicalMIMEHeaderKey (canonicalMIMEHeaderKey s) = canonicalMIMEHeaderKey s := by
  by_cases h : s.all validHeaderFieldByte = true
  · have hs : canonicalMIMEHeaderKey s = canonicalFrom true s := if_pos h
    rw [hs, canonicalMIMEHeaderKey, if_pos (valid_canonicalFrom h true), canonicalFrom_idem]
  · have hs : canonicalMIMEHeaderKey s = s := if_neg h
    rw [hs, hs]

/-- A byte that is no letter is in the canonical form only if it is in the name. -/
theorem mem_of_mem_canonical (hb : b ∈ canonicalMIMEHeaderKey s) (hup : ¬ (0x41 ≤ b ∧ b ≤ 0x5A))
    (hlow : ¬ (0x61 ≤ b ∧ b ≤ 0x7A)) : b ∈ s := by
  rw [canonicalMIMEHeaderKey] at hb
  split_ifs at hb
  · exact mem_of_mem_canonicalFrom hb hup hlow
  · exact hb

theorem canonicalMIMEHeaderKey_ne_nil (h : s ≠ []) : canonicalMIMEHeaderKey s ≠ [] := by
  rw [canonicalMIMEHeaderKey]
  split_ifs
  · obtain ⟨c, s, rfl⟩ := List.exists_cons_of_ne_nil h
    simp [canonicalFrom]
  · exact h

theorem plain_of_valid (h : validHeaderFieldByte c = true) : isASCIISpace c = false ∧ c ≠ 0x22 := by
  constructor
  · rw [Bool.eq_false_iff]
    intro hs
    simp only [isASCIISpace, Bool.or_eq_true, beq_iff_eq] at hs
    rcases hs with ((((rfl | rfl) | rfl) | rfl) | rfl) | rfl <;> revert h <;> decide
  · rintro rfl
    revert h
    decide

/-- The canonical form does to the reader what the name does. -/
theorem read_canonical (s : GoString) :
    QuoteState.outside.read (canonicalMIMEHeaderKey s) = QuoteState.outside.read s := by
  by_cases h : s.all validHeaderFieldByte = true
  · have hs : canonicalMIMEHeaderKey s = canonicalFrom true s := if_pos h
    rw [hs, QuoteState.read_outside fun c hc => plain_of_valid
      (List.all_eq_true.mp (valid_canonicalFrom h true) c hc),
      QuoteState.read_outside fun c hc => plain_of_valid (List.all_eq_true.mp h c hc)]
  · rw [canonicalMIMEHeaderKey, if_neg h]

theorem toLower_ascii_append {U : Unicode} (hs : ∀ b ∈ s, b < 0x80) (t : GoString) :
    toLower U (s ++ t) = s.map lowerByte ++ toLower U t := by
  induction s with
  | nil => rfl
  | cons b s ih =>
    obtain ⟨hb, hs⟩ := List.forall_mem_cons.mp hs
    have : toLower U (b :: (s ++ t)) = lowerByte b :: toLower U (s ++ t) := by
      rw [toLower, pieces_ascii hb]
      rfl
    rw [List.cons_append, this, ih hs]
    rfl

/-- A key that is known is the name of its field. -/
theorem lookup_knownFields {k : GoString} (h : knownFields.lookup k = some f) :
    k = fieldName f ∧ f ≠ .freeform ∧ f ≠ .header := by
  have hmem := mem_of_lookup h
  simp only [knownFields, List.mem_cons, Prod.mk.injEq, List.not_mem_nil, or_false] at hmem
  rcases hmem with ⟨rfl, rfl⟩ | ⟨rfl, rfl⟩ | ⟨rfl, rfl⟩ | ⟨rfl, rfl⟩ | ⟨rfl, rfl⟩ | ⟨rfl, rfl⟩ |
    ⟨rfl, rfl⟩ | ⟨rfl, rfl⟩ |
    ⟨rfl, rfl⟩ | ⟨rfl, rfl⟩ <;> exact ⟨rfl, by decide, by decide⟩

theorem lookup_fieldName (U : Unicode) (hf : f ≠ .freeform) (hh : f ≠ .header) :
    knownFields.lookup (toLower U (fieldName f)) = some f := by
  cases f <;> first | exact absurd rfl hf | exact absurd rfl hh | rfl

/-- The names of fields are lower-case letters and underscores. -/
theorem fieldName_bytes (f : Field) : ∀ c ∈ fieldName f, 0x61 ≤ c ∧ c ≤ 0x7A ∨ c = 0x5F := by
  have hall : (fieldName f).all (fun c => decide (0x61 ≤ c ∧ c ≤ 0x7A ∨ c = 0x5F)) = true := by
    cases f <;> rfl
  intro c hc
  exact of_decide_eq_true (List.all_eq_true.mp hall c hc)

/-- Punctuation below the underscore is in no name of a field. -/
theorem not_mem_fieldName (f : Field) (hb : b < 0x5F) : b ∉ fieldName f := by
  intro h
  rcases fieldName_bytes f b h with ⟨hlow, -⟩ | rfl
  · exact absurd (lt_of_lt_of_le hb (le_trans (by decide) hlow)) (lt_irrefl b)
  · exact absurd hb (lt_irrefl _)

theorem head_fieldName_ne (f : Field) (hb : b < 0x5F) : (fieldName f).head? ≠ some b :=
  fun h => not_mem_fieldName f hb (List.mem_of_mem_head? h)

theorem isASCIISpace_of_gt (h : 0x20 < c) : isASCIISpace c = false := by
  rw [Bool.eq_false_iff]
  intro hs
  simp only [isASCIISpace, Bool.or_eq_true, beq_iff_eq] at hs
  rcases hs with ((((rfl | rfl) | rfl) | rfl) | rfl) | rfl <;> revert h <;> decide

theorem read_fieldName (f : Field) : QuoteState.outside.read (fieldName f) = some .outside := by
  refine QuoteState.read_outside fun c hc => ?_
  rcases fieldName_bytes f c hc with ⟨h, -⟩ | rfl
  · exact ⟨isASCIISpace_of_gt (lt_of_lt_of_le (by decide) h), by rintro rfl; revert h; decide⟩
  · decide

theorem fieldName_ne_nil (h : f ≠ .freeform) : fieldName f ≠ [] := by
  cases f <;> first | exact absurd rfl h | exact List.cons_ne_nil _ _

/-! ### Terms -/

/-- The same term; the spelling of a status is not compared, its filter is. -/
structure SameTerm (t t' : Term) : Prop where
  field : t.field = t'.field
  headerName : t.headerName = t'.headerName
  wildcard : t.wildcard = t'.wildcard
  negated : t.negated = t'.negated
  statusFilter : t.statusFilter = t'.statusFilter
  hasEvents : t.hasEvents = t'.hasEvents
  value : t.field ≠ .status → t.value = t'.value
  quotedLiteral : t.field ≠ .status → t.quotedLiteral = t'.quotedLiteral

theorem SameTerm.refl (t : Term) : SameTerm t t :=
  ⟨rfl, rfl, rfl, rfl, rfl, rfl, fun _ => rfl, fun _ => rfl⟩

/-- A text of visible bytes, without quotes and stars, is a value and a part of a token. -/
theorem plainValue_spec (hne : s ≠ []) (h : ∀ c ∈ s, 0x20 < c ∧ c ≠ 0x22 ∧ c ≠ 0x2A) :
    parseValue s = .ok (s, .wildcardNone, false) ∧ QuoteState.outside.read s = some .outside := by
  constructor
  · have hbare : Bare false s := by
      refine ⟨hne, fun hs => (h _ hs).2.2 rfl, fun _ hq => ?_⟩
      exact (h _ (List.mem_of_mem_head? hq)).2.1 rfl
    simpa [starred, starredWildcard] using @parseValue_starred _ false _ hbare
  · exact QuoteState.read_outside fun c hc => ⟨isASCIISpace_of_gt (h c hc).1, (h c hc).2.1⟩

theorem toUpper_method (U : Unicode) {m : GoString} (hm : m ∈ canonicalHTTPMethods) :
    toUpper U m = m := by
  simp only [canonicalHTTPMethods, List.mem_cons, List.not_mem_nil, or_false] at hm
  rcases hm with rfl | rfl | rfl | rfl | rfl | rfl | rfl | rfl | rfl <;> rfl

/-- The text of a method, quoted or not, is a value and a part of a token. -/
theorem method_spec {m : GoString} (hm : m ∈ canonicalHTTPMethods) (quoted : Bool) :
    parseValue (renderValue m .wildcardNone quoted) = .ok (m, .wildcardNone, quoted) ∧
      QuoteState.outside.read (renderValue m .wildcardNone quoted) = some .outside := by
  simp only [canonicalHTTPMethods, List.mem_cons, List.not_mem_nil, or_false] at hm
  rcases hm with rfl | rfl | rfl | rfl | rfl | rfl | rfl | rfl | rfl <;> cases quoted <;>
    exact ⟨rfl, rfl⟩

/-- A status code as text. -/
theorem sprintDecimal_status {n : ℤ} (hlo : 100 ≤ n) (hhi : n ≤ 599) :
    sprintDecimal n ≠ [] ∧ (∀ c ∈ sprintDecimal n, 0x30 ≤ c ∧ c ≤ 0x39) ∧
      atoi (sprintDecimal n) = some n := by
  have htext : sprintDecimal n = digitsOf n.natAbs := by
    rw [sprintDecimal, if_neg (by omega), List.nil_append]
  refine ⟨htext ▸ digitsOf_ne_nil _, htext ▸ digitsOf_bytes _, ?_⟩
  exact atoi_sprintDecimal (by omega) (by omega)

/-- The text of a status filter is a value, a part of a token, and gives the filter. -/
theorem statusText_spec {sf : StatusFilter} (h : parseStatusValue s = .ok sf) :
    let text := if sf.exact ≠ 0 then sprintDecimal sf.exact else sf.cls
    text ≠ [] ∧ parseValue text = .ok (text, .wildcardNone, false) ∧
      QuoteState.outside.read text = some .outside ∧
      parseStatusValue text = .ok sf := by
  obtain ⟨exact_, cls⟩ := sf
  rcases parseStatusValue_ok h with ⟨hlo, hhi, hcls⟩ | ⟨hex, d, hlo, hhi, hcls⟩
  · simp only at hlo hhi hcls ⊢
    subst hcls
    rw [if_pos (by omega)]
    obtain ⟨hne, hdigits, hatoi⟩ := sprintDecimal_status hlo hhi
    obtain ⟨hval, hread⟩ := plainValue_spec hne fun c hc => by
      obtain ⟨h₁, -⟩ := hdigits c hc
      refine ⟨lt_of_lt_of_le (by decide) h₁, ?_, ?_⟩ <;> rintro rfl <;> revert h₁ <;> decide
    refine ⟨hne, hval, hread, ?_⟩
    rw [parseStatusValue, if_neg, hatoi]
    · simp only
      rw [if_neg (by omega)]
    · -- a class has an `x`, which is no digit
      rintro ⟨hlen, hx, -⟩
      have hmem : (0x78 : UInt8) ∈ sprintDecimal exact_ := by
        rw [← hx, List.getD_eq_getElem _ _ (by omega)]
        exact List.getElem_mem _
      exact absurd (hdigits _ hmem).2 (by decide)
  · simp only at hex hcls ⊢
    subst hex hcls
    rw [if_neg (by simp)]
    obtain ⟨hval, hread⟩ := @plainValue_spec [d, 0x78, 0x78] (List.cons_ne_nil _ _) fun c hc => by
      simp only [List.mem_cons, List.not_mem_nil, or_false] at hc
      rcases hc with rfl | rfl | rfl
      · refine ⟨lt_of_lt_of_le (by decide) hlo, ?_, ?_⟩ <;> rintro rfl <;> revert hlo <;> decide
      · decide
      · decide
    exact ⟨List.cons_ne_nil _ _, hval, hread, by simp [parseStatusValue, hlo, hhi]⟩

section Body

variable {U : Unicode} {raw tok : GoString} {neg : Bool} {t : Term}

/-- The text of a term without its minus is a token and parses to the term. -/
structure Renders (U : Unicode) (tok : GoString) (neg : Bool) (t : Term) : Prop where
  ne_nil : chipBody t ≠ []
  read : QuoteState.outside.read (chipBody t) = some .outside
  minus : (chipBody t).head? = some 0x2D → tok.head? = some 0x2D
  parses : ∀ raw', ∃ t', parseBody U raw' (chipBody t) neg = .ok t' ∧ SameTerm t t'

variable {v : GoString × Wildcard × Bool}

theorem ne_nil_of_parseValue {s : GoString} (h : parseValue s = .ok v) : s ≠ [] := by
  rintro rfl
  cases h

/-- A term without a key. -/
theorem renders_freeform (htok : tok.head? = some 0x22 ∨ 0x3A ∉ tok)
    (hread : QuoteState.outside.read tok = some .outside) (hv : parseValue tok = .ok v) :
    Renders U tok neg (Term.make .freeform v neg) := by
  obtain ⟨v, w, quoted⟩ := v
  obtain ⟨hparse, hkeep⟩ := renderValue_spec hv
  have hbody : chipBody (Term.make .freeform (v, w, quoted) neg) = renderValue v w quoted := rfl
  obtain ⟨hbare, hminus⟩ :
      ((renderValue v w quoted).head? = some 0x22 ∨ 0x3A ∉ renderValue v w quoted) ∧
        ((renderValue v w quoted).head? = some 0x2D → tok.head? = some 0x2D) := by
    rcases parseValue_cases hv with ⟨inner, -, h⟩ | ⟨leading, trailing, text, rfl, hb, h⟩
    · obtain ⟨rfl, rfl, rfl⟩ : v = unescapeQuotes inner ∧ w = .wildcardNone ∧ quoted = true := by
        simpa using h
      exact ⟨.inl rfl, by simp [renderValue]⟩
    · obtain ⟨rfl, rfl, rfl⟩ : v = text ∧ w = starredWildcard leading trailing ∧
          quoted = false := by simpa using h
      obtain ⟨c, v', rfl⟩ := List.exists_cons_of_ne_nil hb.ne_nil
      -- an unquoted text does not start with a quote, so it has no colon
      have hcolon : 0x3A ∉ c :: v' := by
        rcases htok with hq | hc
        · cases leading with
          | true => simp [starred] at hq
          | false => exact absurd (by simpa [starred] using hq) (hb.quote rfl)
        · exact fun h => hc (by simpa [starred] using h)
      rw [renderValue_starred]
      refine ⟨.inr ?_, by cases leading <;> simp [starred]⟩
      simp only [starred, List.mem_append, not_or]
      refine ⟨⟨?_, hcolon⟩, ?_⟩
      · cases leading <;> simp
      · cases leading <;> cases trailing <;> simp
  refine ⟨hbody ▸ ne_nil_of_parseValue hparse, hbody ▸ hkeep .outside (by decide) hread,
    hbody ▸ hminus, fun raw' => ⟨_, ?_, SameTerm.refl _⟩⟩
  rw [hbody, parseBody_bare hbare, hparse]

/-- A value for a known field. -/
theorem parseBody_keyed {f : Field} (hf : f ≠ .freeform) (hh : f ≠ .header) {text : GoString}
    (hv : parseValue text = .ok v) (hw : f.structured = true → v.2.1 = .wildcardNone) :
    parseBody U raw (fieldName f ++ 0x3A :: text) neg = finishTerm U raw (Term.make f v neg) := by
  rw [parseBody_colon (head_fieldName_ne f (by decide)) (not_mem_fieldName f (by decide)),
    if_neg (fieldName_ne_nil hf), if_neg (ne_nil_of_parseValue hv), lookup_fieldName U hf hh, hv]
  simp only
  rw [if_neg]
  simp only [Bool.and_eq_true, decide_eq_true_eq, not_and, not_not]
  exact hw

/-- What the text of a term with a known field has to satisfy. -/
theorem renders_keyed {f : Field} (hf : f ≠ .freeform) (hh : f ≠ .header) (ht : t.field = f)
    (hread : QuoteState.outside.read (chipDisplayValue t) = some .outside)
    (hv : parseValue (chipDisplayValue t) = .ok v)
    (hw : f.structured = true → v.2.1 = .wildcardNone)
    (hfin : ∀ raw', ∃ t', finishTerm U raw' (Term.make f v neg) = .ok t' ∧ SameTerm t t') :
    Renders U tok neg t := by
  subst ht
  have hbody : chipBody t = fieldName t.field ++ 0x3A :: chipDisplayValue t := by
    rw [chipBody, if_neg hf, chipKey, if_neg hh]
  have hne := fieldName_ne_nil hf
  refine ⟨by simp [hbody], ?_, ?_, fun raw' => ?_⟩
  · rw [hbody, QuoteState.read_append, read_fieldName]
    exact hread
  · rw [hbody, List.head?_append_of_ne_nil _ hne]
    exact fun h => absurd h (head_fieldName_ne t.field (by decide))
  · obtain ⟨t', ht', hsame⟩ := hfin raw'
    exact ⟨t', by rw [hbody, parseBody_keyed hf hh hv hw, ht'], hsame⟩

/-- A term with a known field. -/
theorem renders_known {f : Field} (hf : f ≠ .freeform) (hh : f ≠ .header) {valueRaw : GoString}
    (hv : parseValue valueRaw = .ok v) (hw : f.structured = true → v.2.1 = .wildcardNone)
    (hread : QuoteState.outside.read valueRaw = some .outside)
    (hfin : finishTerm U raw (Term.make f v neg) = .ok t) : Renders U tok neg t := by
  obtain ⟨v, w, quoted⟩ := v
  obtain ⟨hparse, hkeep⟩ := renderValue_spec hv
  have hvalue := hkeep .outside (by decide) hread
  by_cases hm : f = .method
  · -- the value is a method in upper case
    subst hm
    obtain rfl : w = .wildcardNone := hw rfl
    change (if canonicalHTTPMethods.contains (toUpper U v) then Except.ok _ else _) = _ at hfin
    split_ifs at hfin with hmem
    cases hfin
    have hmem' : toUpper U v ∈ canonicalHTTPMethods := List.contains_iff_mem.mp hmem
    obtain ⟨hp, hr⟩ := method_spec hmem' quoted
    refine renders_keyed hf hh rfl hr hp (fun _ => rfl) fun raw' => ⟨_, ?_, SameTerm.refl _⟩
    simp only [finishTerm, Term.make, toUpper_method U hmem', if_pos hmem]
  · by_cases hs : f = .status
    · -- the text is made of the filter
      subst hs
      simp only [finishTerm, Term.make] at hfin
      split at hfin
      · cases hfin
      · rename_i sf hsf
        obtain rfl := Except.ok.inj hfin
        obtain ⟨-, hp, hr, hst⟩ := statusText_spec hsf
        refine renders_keyed hf hh rfl hr hp (fun _ => rfl) fun raw' => ⟨_, by
          simp only [finishTerm, Term.make, hst]
          rfl, ?_⟩
        exact ⟨rfl, rfl, hw rfl, rfl, rfl, rfl, fun h => absurd rfl h, fun h => absurd rfl h⟩
    · -- the value is kept
      have hkept : t.field = f ∧ t.value = v ∧ t.wildcard = w ∧ t.quotedLiteral = quoted ∧
          t.statusFilter = none := by
        cases f <;> first | exact absurd rfl hm | exact absurd rfl hs | skip
        case hasEvents =>
          change (if toLower U v = str "true" then Except.ok _
            else if toLower U v = str "false" then _ else _) = _ at hfin
          split_ifs at hfin <;> cases hfin <;> exact ⟨rfl, rfl, rfl, rfl, rfl⟩
        all_goals
          obtain rfl := Except.ok.inj hfin
          exact ⟨rfl, rfl, rfl, rfl, rfl⟩
      obtain ⟨htf, htv, htw, htq, hts⟩ := hkept
      have hdisplay : chipDisplayValue t = renderValue v w quoted := by
        rw [chipDisplayValue, hts, htv, htw, htq]
      refine renders_keyed hf hh htf (hdisplay ▸ hvalue) (hdisplay ▸ hparse) hw
        fun raw' => ⟨_, ?_, SameTerm.refl t⟩
      have hneg := @finishTerm_negated _ _ _ neg raw' _ hfin
      have htn : t.negated = neg := (finishTerm_accepted hfin hw (parseValue_ok hv)).2
      rw [← htn] at hneg ⊢
      exact hneg

theorem step_colon (st : QuoteState) : ∃ st', st.step 0x3A = some st' ∧ st' ≠ .escape := by
  cases st
  · exact ⟨.outside, rfl, by decide⟩
  · exact ⟨.inside, rfl, by decide⟩
  · exact ⟨.inside, rfl, by decide⟩

theorem header_bytes : ∀ b ∈ str "header.", b < 0x80 ∧ b ≠ 0x22 ∧ b ≠ 0x3A := by
  have hall : (str "header.").all (fun b => decide (b < 0x80 ∧ b ≠ 0x22 ∧ b ≠ 0x3A)) = true := rfl
  exact fun b hb => of_decide_eq_true (List.all_eq_true.mp hall b hb)

theorem lookup_header (U : Unicode) (name : GoString) :
    toLower U (str "header." ++ name) = str "header." ++ toLower U name ∧
      knownFields.lookup (str "header." ++ toLower U name) = none := by
  refine ⟨toLower_ascii_append (fun b hb => (header_bytes b hb).1) name, ?_⟩
  cases h : knownFields.lookup (str "header." ++ toLower U name) with
  | none => rfl
  | some f =>
    -- the name of a field has no dot
    have hdot : (0x2E : UInt8) ∈ str "header." ++ toLower U name :=
      List.mem_append_left _ (by decide)
    rw [(lookup_knownFields h).1] at hdot
    exact absurd hdot (not_mem_fieldName f (by decide))

/-- A value for one header. -/
theorem parseBody_header {name text : GoString} (hne : name ≠ []) (hcolon : 0x3A ∉ name)
    (hstar : 0x2A ∉ name) (hv : parseValue text = .ok v) :
    parseBody U raw (str "header." ++ name ++ 0x3A :: text) neg =
      .ok { Term.make .header v neg with headerName := canonicalMIMEHeaderKey name } := by
  obtain ⟨hlow, hnone⟩ := lookup_header U name
  have hcolon' : 0x3A ∉ str "header." ++ name := by
    rw [List.mem_append, not_or]
    exact ⟨fun h => (header_bytes _ h).2.2 rfl, hcolon⟩
  have hstar' : name.contains 0x2A = false := by
    rwa [Bool.eq_false_iff, Ne, List.contains_iff_mem]
  have hhead : (str "header." ++ name).head? ≠ some 0x22 :=
    fun h => absurd (Option.some.inj h) (by decide)
  have hkne : str "header." ++ name ≠ [] := List.cons_ne_nil _ _
  have hpre : hasPrefix (str "header." ++ toLower U name) (str "header.") = true :=
    (hasPrefix_iff _ _).mpr (List.prefix_append _ _)
  have hdrop : (str "header." ++ name).drop (str "header.").length = name := List.drop_left
  rw [parseBody_colon hhead hcolon', if_neg hkne, if_neg (ne_nil_of_parseValue hv), hlow, hnone]
  simp only [hpre, if_true, parseHeaderTerm, hdrop, if_neg hne, hstar', Bool.false_eq_true,
    if_false, hv]

/-- A term for one header. -/
theorem renders_header (hU : U.Runewise) {key valueRaw : GoString}
    (hbegins : hasPrefix (toLower U key) (str "header.") = true) (hcolon : 0x3A ∉ key)
    (hname : key.drop 7 ≠ []) (hstar : 0x2A ∉ key.drop 7) (hv : parseValue valueRaw = .ok v)
    (hread : QuoteState.outside.read (key ++ 0x3A :: valueRaw) = some .outside) :
    Renders U tok neg
      { Term.make .header v neg with headerName := canonicalMIMEHeaderKey (key.drop 7) } := by
  obtain ⟨v, w, quoted⟩ := v
  obtain ⟨hparse, hkeep⟩ := renderValue_spec hv
  -- the first bytes of the key have no quote, so the name alone decides where the reader stands
  have hquote : 0x22 ∉ key.take 7 :=
    not_mem_take_of_toLower hU ((hasPrefix_iff _ _).mp hbegins) (fun b hb => (header_bytes b hb).1)
      (by decide)
      fun h => (header_bytes _ h).2.1 rfl
  obtain ⟨st, hst, hrest⟩ :=
    Option.bind_eq_some_iff.mp ((QuoteState.read_append _ _ _).symm.trans hread)
  have hkey : QuoteState.outside.read (str "header." ++ canonicalMIMEHeaderKey (key.drop 7)) =
      some st := by
    rw [← List.take_append_drop 7 key, QuoteState.read_append] at hst
    obtain ⟨st₀, hst₀, hst⟩ := Option.bind_eq_some_iff.mp hst
    obtain rfl := QuoteState.read_noQuote hst₀ hquote
    rw [QuoteState.read_append, show QuoteState.outside.read (str "header.") =
      some .outside from rfl, Option.bind_some, read_canonical]
    exact hst
  obtain ⟨st', hcol, hne⟩ := step_colon st
  rw [QuoteState.read, hcol, Option.bind_some] at hrest
  refine ⟨List.cons_ne_nil _ _, ?_, fun h => ?_, fun raw' => ⟨_, ?_, SameTerm.refl _⟩⟩
  · change QuoteState.outside.read ((str "header." ++ canonicalMIMEHeaderKey (key.drop 7)) ++
      0x3A :: renderValue v w quoted) = _
    rw [QuoteState.read_append, hkey, Option.bind_some, QuoteState.read, hcol]
    exact hkeep st' hne hrest
  · exact absurd (Option.some.inj h) (by decide)
  · refine (parseBody_header (canonicalMIMEHeaderKey_ne_nil hname)
      (fun h => hcolon (List.mem_of_mem_drop (mem_of_mem_canonical h (by decide) (by decide))))
      (fun h => hstar (mem_of_mem_canonical h (by decide) (by decide))) hparse).trans ?_
    rw [canonicalMIMEHeaderKey_idem]

/-- **The text of a term without its minus is a token and parses to the term.** -/
theorem parseBody_renders (hU : U.Runewise) (hread : QuoteState.outside.read tok = some .outside)
    (h : parseBody U raw tok neg = .ok t) : Renders U tok neg t := by
  rcases token_cases tok with hbare | ⟨key, valueRaw, rfl, hcolon, hquote⟩
  · rw [parseBody_bare hbare] at h
    split at h
    · cases h
    · rename_i v hv
      obtain rfl := Except.ok.inj h
      exact renders_freeform hbare hread hv
  · rw [parseBody_colon hquote hcolon] at h
    by_cases hk : key = []
    · rw [if_pos hk] at h
      cases h
    by_cases hval : valueRaw = []
    · rw [if_neg hk, if_pos hval] at h
      cases h
    rw [if_neg hk, if_neg hval] at h
    split at h
    · -- the key is none of the fields: it names a header
      split_ifs at h with hbegins
      rw [parseHeaderTerm] at h
      simp only at h
      split_ifs at h with hname hstar
      split at h
      · cases h
      · rename_i v hv
        obtain rfl := Except.ok.inj h
        exact renders_header hU hbegins hcolon hname
          (fun hs => hstar (List.contains_iff_mem.mpr hs)) hv hread
    · rename_i f hf
      split at h
      · cases h
      · rename_i v hv
        split_ifs at h with hw
        obtain ⟨hkey, hff, hfh⟩ := lookup_knownFields hf
        -- a quote in the key would be in its lower case
        have hkq : 0x22 ∉ key := fun hq => by
          have := mem_toLower (U := U) hq (by decide)
          rw [hkey] at this
          exact not_mem_fieldName f (by decide) this
        obtain ⟨st, hst, hrest⟩ :=
          Option.bind_eq_some_iff.mp ((QuoteState.read_append _ _ _).symm.trans hread)
        obtain rfl := QuoteState.read_noQuote hst hkq
        refine renders_known hff hfh hv (fun hs => ?_) hrest h
        simpa [hs] using hw

end Body

/-! ### Queries -/

section Query

variable {U : Unicode}

/-- **The token of a chip is one token, and parses to the term it shows.** -/
theorem chipToken_spec (hU : U.Runewise) {tok : GoString} {t : Term} (htok : IsToken tok)
    (h : parseToken U tok = .ok t) :
    IsToken (chipFromTerm t).token ∧ ∃ t', parseToken U (chipFromTerm t).token = .ok t' ∧
      SameTerm t t' := by
  obtain ⟨hne, hread⟩ := htok
  rw [parseToken] at h
  split_ifs at h with hminus hbare
  · -- a negated term
    obtain ⟨body, rfl⟩ := (hasPrefix_iff _ _).mp hminus
    have hbody : QuoteState.outside.read body = some .outside := hread
    have hr := parseBody_renders hU hbody h
    have hneg : t.negated = true := (parseBody_ok h).1.2
    have htoken : (chipFromTerm t).token = 0x2D :: chipBody t := by
      rw [chipFromTerm, hneg, if_pos rfl]
    rw [htoken]
    refine ⟨⟨List.cons_ne_nil _ _, hr.read⟩, ?_⟩
    obtain ⟨t', ht', hsame⟩ := hr.parses (0x2D :: chipBody t)
    refine ⟨t', ?_, hsame⟩
    have hpre : hasPrefix (0x2D :: chipBody t) (str "-") = true := (hasPrefix_iff _ _).mpr ⟨_, rfl⟩
    rw [parseToken, if_pos hpre]
    exact (if_neg hr.ne_nil).trans ht'
  · have hr := parseBody_renders hU hread h
    have hneg : t.negated = false := (parseBody_ok h).1.2
    have htoken : (chipFromTerm t).token = chipBody t := by
      rw [chipFromTerm, hneg, if_neg Bool.false_ne_true]
    rw [htoken]
    refine ⟨⟨hr.ne_nil, hr.read⟩, ?_⟩
    obtain ⟨t', ht', hsame⟩ := hr.parses (chipBody t)
    refine ⟨t', ?_, hsame⟩
    rw [parseToken, if_neg, ht']
    exact fun hp => hminus ((hasPrefix_byte _ _).mpr (hr.minus ((hasPrefix_byte _ _).mp hp)))

theorem mapM_of_forall₂ {ε α β : Type} {f : α → Except ε β} {xs : List α} {ys : List β}
    (h : List.Forall₂ (fun x y => f x = .ok y) xs ys) : xs.mapM f = .ok ys := by
  induction h with
  | nil => rfl
  | cons hx _ ih =>
    rw [List.mapM_cons, hx, ih]
    rfl

/-- **The tokens of the chips of a query, joined by spaces, parse to the query.** -/
theorem chipsFromQuery_roundTrip (U : Unicode) (hU : U.Runewise) (s : GoString) (q : Query)
    (h : parse U s = .ok q) :
    ∃ q', parse U (join ((chipsFromQuery q).map ChipView.token) 0x20) = .ok q' ∧
      List.Forall₂ SameTerm q.terms q'.terms := by
  obtain ⟨tokens, htokens, hterms⟩ := parse_ok h
  have hwhole := tokenize_isToken htokens
  obtain ⟨terms⟩ := q
  simp only at hterms
  -- term by term: the token of the chip, and what it parses to
  obtain ⟨terms', htoks, hparse, hsame⟩ : ∃ terms',
      (∀ tok ∈ terms.map fun t => (chipFromTerm t).token, IsToken tok) ∧
      List.Forall₂ (fun tok t' => parseToken U tok = .ok t')
        (terms.map fun t => (chipFromTerm t).token) terms' ∧
        List.Forall₂ SameTerm terms terms' := by
    clear h htokens
    induction hterms with
    | nil => exact ⟨[], by simp, .nil, .nil⟩
    | cons htok _ ih =>
      obtain ⟨hwhole₁, hwhole⟩ := List.forall_mem_cons.mp hwhole
      obtain ⟨terms', htoks, hparse, hsame⟩ := ih hwhole
      obtain ⟨hchip, t', ht', hsame'⟩ := chipToken_spec hU hwhole₁ htok
      exact ⟨t' :: terms', List.forall_mem_cons.mpr ⟨hchip, htoks⟩, .cons ht' hparse,
        .cons hsame' hsame⟩
  refine ⟨⟨terms'⟩, ?_, hsame⟩
  have htexts : (chipsFromQuery ⟨terms⟩).map ChipView.token =
      terms.map fun t => (chipFromTerm t).token := by
    simp [chipsFromQuery]
  rw [htexts, parse, tokenize_join htoks]
  simp only [mapM_of_forall₂ hparse]
  rfl

/-- A negated term with a leading star, and a status that is spelled with a sign. -/
theorem chipsFromQuery_roundTrip_star :
    ∃ q', parse .asciiOnly (str "-host:*a* status:200") = .ok q' ∧
      List.Forall₂ SameTerm [⟨.host, str "a", .wildcardSubstring, false, true, [], none, none⟩,
        ⟨.status, str "+200", .wildcardNone, true, false, [], some ⟨200, []⟩, none⟩] q'.terms :=
  chipsFromQuery_roundTrip .asciiOnly runewise_asciiOnly (str "  -host:*a status:\"+200\"")
    ⟨[⟨.host, str "a", .wildcardSubstring, false, true, [], none, none⟩,
      ⟨.status, str "+200", .wildcardNone, true, false, [], some ⟨200, []⟩, none⟩]⟩ rfl

end Query

end HttpCatch.Admin
