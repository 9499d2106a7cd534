import HttpCatch.Admin.Chips

/-!
# Searching for a value by quoting it

A value is quoted as the chips do it: a backslash before each double quote in it, and double quotes
around it. `tokenize` takes a backslash before a double quote for an escape wherever the backslash
comes from, so one at the end of the value escapes the closing quote.

## Main results

* `parse_quoted_iff`: which values a quoted term is read back as, in every form of such a term.
-/

namespace HttpCatch.Admin

open HttpCatch.Go HttpCatch.SearchQL

/-- The value between double quotes. -/
def quoted (v : GoString) : GoString := 0x22 :: (escapeQuotes v ++ [0x22])

theorem quoted_ne_nil (v : GoString) : quoted v ≠ [] := List.cons_ne_nil _ _

/-- A name that can stand in `header.<name>:`. -/
structure SearchName where
  /-- The name. -/
  name : GoString
  /-- There is one. -/
  ne_nil : name ≠ []
  /-- It ends before the value, and is no pattern. -/
  bytes : ∀ c ∈ name, (isASCIISpace c = false ∧ c ≠ 0x22) ∧ c ≠ 0x2A ∧ c ≠ 0x3A

/-- What a quoted value can be asked for in. -/
inductive QuotedForm where
  /-- Anything: a value without a key. -/
  | freeform
  /-- An unstructured field. -/
  | field (f : Field) (h : f ∈ [Field.host, .path, .service, .body, .headers])
  /-- The header of a name. -/
  | header (n : SearchName)

/-- What stands before the value. -/
def QuotedForm.key : QuotedForm → GoString
  | .freeform => []
  | .field f _ => fieldName f ++ [0x3A]
  | .header n => str "header." ++ n.name ++ [0x3A]

/-- The term that is to be read. -/
def QuotedForm.term (v : GoString) : QuotedForm → Term
  | .freeform => Term.make .freeform (v, .wildcardNone, true) false
  | .field f _ => Term.make f (v, .wildcardNone, true) false
  | .header n =>
    { Term.make .header (v, .wildcardNone, true) false with
      headerName := canonicalMIMEHeaderKey n.name }

/-! ### Tokens -/

/-- A text that ends inside quotes is no token. -/
theorem tokenizeFrom_unclosed {st st' : QuoteState} {inQuote escaped : Bool} {u : GoString}
    (hm : Matches st inQuote escaped u) (hread : st.read u = some st') (hst : st' ≠ .outside)
    (start acc : GoString) :
    tokenizeFrom (.token start acc inQuote escaped) u = .error ⟨start, .unclosedQuote⟩ := by
  induction u generalizing st inQuote escaped acc with
  | nil =>
    obtain rfl : st = st' := Option.some.inj hread
    cases inQuote with
    | true => rfl
    | false => exact absurd hm hst
  | cons c u ih =>
    rcases tokenizeFrom_step hm with ⟨hstep, -, -⟩ | ⟨st₁, inQuote', escaped', hstep, hm', heq⟩
    · rw [QuoteState.read, hstep] at hread
      cases hread
    · rw [QuoteState.read, hstep, Option.bind_some] at hread
      rw [heq start acc]
      exact ih hm' hread _

theorem tokenize_unclosed {s : GoString} {st : QuoteState} (hne : s ≠ [])
    (hread : QuoteState.outside.read s = some st) (hst : st ≠ .outside) :
    tokenize s = .error ⟨s, .unclosedQuote⟩ := by
  obtain ⟨c, u, rfl⟩ := List.exists_cons_of_ne_nil hne
  obtain ⟨st₀, inQuote, hstep, hm, heq⟩ := @tokenizeFrom_start c u (not_space_of_read hread)
  rw [QuoteState.read, hstep, Option.bind_some] at hread
  rw [tokenize, heq]
  exact tokenizeFrom_unclosed hm hread hst _ _

/-- Where the reader stands after a quoted value. -/
theorem read_quoted (v : GoString) :
    QuoteState.outside.read (quoted v) =
      some (if v.getLast? = some 0x5C then .inside else .outside) := by
  have hopen : QuoteState.outside.read (quoted v) =
      QuoteState.inside.read (escapeQuotes v ++ [0x22]) := rfl
  rw [hopen, QuoteState.read_append, read_escapeQuotes v (by decide), Option.bind_some]
  cases hlast : v.getLast? with
  | none => rfl
  | some c =>
    by_cases hc : c = 0x5C
    · subst hc
      rfl
    · rw [Option.elim_some, if_neg hc, if_neg fun h => hc (Option.some.inj h)]
      rfl

theorem QuotedForm.read_key (form : QuotedForm) :
    QuoteState.outside.read form.key = some .outside := by
  cases form with
  | freeform => rfl
  | field f h =>
    rw [QuotedForm.key, QuoteState.read_append, read_fieldName]
    rfl
  | header n =>
    have hname := QuoteState.read_outside fun c hc => (n.bytes c hc).1
    rw [QuotedForm.key, QuoteState.read_append, QuoteState.read_append,
      show QuoteState.outside.read (str "header.") = some .outside from rfl, Option.bind_some,
      hname]
    rfl

/-- Where the reader stands after the whole term. -/
theorem read_term (form : QuotedForm) (v : GoString) :
    QuoteState.outside.read (form.key ++ quoted v) =
      some (if v.getLast? = some 0x5C then .inside else .outside) := by
  rw [QuoteState.read_append, form.read_key, Option.bind_some, read_quoted]

/-! ### Terms -/

theorem parseValue_quoted_value (v : GoString) :
    parseValue (quoted v) = .ok (v, .wildcardNone, true) := by
  rw [quoted, parseValue_quoted, unescapeQuotes_escapeQuotes]

/-- A token that has no sign. -/
theorem parseToken_unsigned {U : Unicode} {raw : GoString} (h : raw.head? ≠ some 0x2D) :
    parseToken U raw = parseBody U raw raw false := by
  rw [parseToken, if_neg]
  exact fun hp => h ((hasPrefix_byte _ _).mp hp)

/-- A quoted value of an unstructured field. -/
theorem parseBody_field (U : Unicode) {f : Field}
    (h : f ∈ [Field.host, .path, .service, .body, .headers]) (raw v : GoString) :
    parseBody U raw (fieldName f ++ 0x3A :: quoted v) false =
      .ok (Term.make f (v, .wildcardNone, true) false) := by
  have hkind : f ≠ .freeform ∧ f ≠ .header ∧ f.structured = false := by
    revert f
    decide
  obtain ⟨hf, hh, hstruct⟩ := hkind
  rw [parseBody_keyed hf hh (parseValue_quoted_value v) fun _ => rfl]
  -- nothing is left to be done for these fields
  cases f <;> first | rfl | cases hstruct

/-- The token of a form is parsed to its term. -/
theorem parseToken_quoted (U : Unicode) (form : QuotedForm) (v : GoString) :
    parseToken U (form.key ++ quoted v) = .ok (form.term v) := by
  cases form with
  | freeform =>
    have hhead : (quoted v).head? = some 0x22 := rfl
    rw [QuotedForm.key, List.nil_append, parseToken_unsigned (by rw [hhead]; decide),
      parseBody_bare (Or.inl hhead), parseValue_quoted_value]
    rfl
  | field f h =>
    have htext : (QuotedForm.field f h).key ++ quoted v = fieldName f ++ 0x3A :: quoted v :=
      List.append_assoc _ _ _
    have hf : f ≠ .freeform := by
      rintro rfl
      exact absurd h (by decide)
    have hminus : (fieldName f ++ 0x3A :: quoted v).head? ≠ some 0x2D := by
      rw [List.head?_append_of_ne_nil _ (fieldName_ne_nil hf)]
      exact head_fieldName_ne f (by decide)
    rw [htext, parseToken_unsigned hminus, parseBody_field U h]
    rfl
  | header n =>
    have htext : (QuotedForm.header n).key ++ quoted v =
        str "header." ++ n.name ++ 0x3A :: quoted v := List.append_assoc _ _ _
    have hminus : (str "header." ++ n.name ++ 0x3A :: quoted v).head? ≠ some 0x2D := by
      intro h
      exact absurd (Option.some.inj h) (by decide)
    rw [htext, parseToken_unsigned hminus]
    exact parseBody_header n.ne_nil (fun h => (n.bytes _ h).2.2 rfl)
      (fun h => (n.bytes _ h).2.1 rfl) (parseValue_quoted_value v)

/-- **Which values a quoted term is read back as**: those that do not end in a backslash. -/
theorem parse_quoted_iff (U : Unicode) (form : QuotedForm) (v : GoString) :
    parse U (form.key ++ quoted v) = .ok ⟨[form.term v]⟩ ↔ v.getLast? ≠ some 0x5C := by
  have hread := read_term form v
  have hne : form.key ++ quoted v ≠ [] :=
    List.append_ne_nil_of_right_ne_nil _ (quoted_ne_nil v)
  constructor
  · intro hparse hlast
    -- the closing quote is escaped, so the text ends inside quotes
    rw [if_pos hlast] at hread
    rw [parse, tokenize_unclosed hne hread (by decide)] at hparse
    cases hparse
  · intro hlast
    rw [if_neg hlast] at hread
    have htoken : ∀ t ∈ [form.key ++ quoted v], IsToken t := by
      intro t ht
      obtain rfl := List.mem_singleton.1 ht
      exact ⟨hne, hread⟩
    have hone : join [form.key ++ quoted v] 0x20 = form.key ++ quoted v := by simp [join]
    have htokens := tokenize_join htoken
    rw [hone] at htokens
    rw [parse, htokens]
    simp only [List.mapM_cons, List.mapM_nil, parseToken_quoted]
    rfl

/-- A backslash cannot be searched for. -/
theorem parse_quoted_backslash :
    parse .asciiOnly (QuotedForm.freeform.key ++ quoted (str "\\")) =
      .error ⟨str "\"\\\"", .unclosedQuote⟩ :=
  rfl

end HttpCatch.Admin
