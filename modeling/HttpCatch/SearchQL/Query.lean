import HttpCatch.Library.Decimal

/-!
# The search language

`internal/searchql/searchql.go`: a query is a list of terms, all of which must hold. The
text of a query is cut into tokens at white space outside double quotes (`tokenize`); a
token is a value, or a key, a colon and a value, and a leading `-` negates it
(`parseToken`); a value is quoted, or may have `*` at either end (`parseValue`).

Everything is bytewise, as in the source. Errors carry the offending token and the
message; the messages are an inductive type with one constructor for each text.

What the rest of the development needs of the parser is `parse_accepted`: the terms of a
query that `parse` accepts are well formed (`Accepted`).
-/

namespace HttpCatch.SearchQL

open HttpCatch.Go

/-- `Field`; the empty field of the source is `freeform`. -/
inductive Field where
  | freeform | host | path | service | body | headers | header | method | status | sourceIP
  | correlationID | hasEvents
  deriving DecidableEq

/-- `Wildcard`: where the value had a `*`. -/
inductive Wildcard where
  | wildcardNone | wildcardPrefix | wildcardSubstring
  deriving DecidableEq

/-- `StatusFilter`: an exact code, or (when `exact` is `0`) a class such as `5xx`. -/
structure StatusFilter where
  exact : ℤ
  cls : GoString
  deriving DecidableEq

/-- `ClassRange`: the least and the greatest code of the class. -/
def StatusFilter.classRange (sf : StatusFilter) : ℤ × ℤ :=
  ((sf.cls.headD 0 - 0x30).toNat * 100, (sf.cls.headD 0 - 0x30).toNat * 100 + 99)

/-- `Term`: one of the conditions of a query. -/
structure Term where
  field : Field
  value : GoString
  wildcard : Wildcard
  quotedLiteral : Bool
  negated : Bool
  headerName : GoString
  statusFilter : Option StatusFilter
  hasEvents : Option Bool
  deriving DecidableEq

/-- `Query`: the terms, AND'd together. -/
structure Query where
  terms : List Term
  deriving DecidableEq

/-- `indexedFields`. -/
def Field.indexed : Field → Bool
  | .host | .path | .service => true
  | _ => false

/-- `structuredFields`. -/
def Field.structured : Field → Bool
  | .method | .status | .sourceIP | .correlationID | .hasEvents => true
  | _ => false

/-- `knownFields`; the form `header.<name>` is not among them. -/
def knownFields : List (GoString × Field) :=
  [(str "host", .host), (str "path", .path), (str "service", .service), (str "body", .body),
    (str "headers", .headers), (str "method", .method), (str "status", .status),
    (str "source_ip", .sourceIP), (str "correlation_id", .correlationID),
    (str "has_events", .hasEvents)]

/-- `canonicalHTTPMethods`. -/
def canonicalHTTPMethods : List GoString :=
  [str "GET", str "HEAD", str "POST", str "PUT", str "DELETE", str "CONNECT", str "OPTIONS",
    str "TRACE", str "PATCH"]

/-- `IsUnindexedScan`: some term turns an indexed field into a scan for a substring. -/
def Query.isUnindexedScan (q : Query) : Bool :=
  q.terms.any fun t => t.wildcard = .wildcardSubstring && (t.field = .freeform || t.field.indexed)

/-- `HasRequestOnlyTerm`: some term is about a field that events do not have. -/
def Query.hasRequestOnlyTerm (q : Query) : Bool :=
  q.terms.any fun t => match t.field with
    | .host | .path | .method | .sourceIP | .body | .hasEvents => true
    | _ => false

/-- `HasNonTemporalTerm`. -/
def Query.hasNonTemporalTerm (q : Query) : Bool := decide (0 < q.terms.length)

/-! ### Errors -/

/-- The messages of the parser. -/
inductive Message where
  /-- `unclosed quote`. -/
  | unclosedQuote
  /-- `bare '-' is not a valid token`. -/
  | bareMinus
  /-- `token must start with a key before ':'`. -/
  | noKey
  /-- `empty value after ':'`. -/
  | emptyValue
  /-- `unknown key %q`. -/
  | unknownKey (key : GoString)
  /-- `wildcards are not supported on field %q`. -/
  | wildcardOnField (key : GoString)
  /-- `unknown HTTP method %q`. -/
  | unknownMethod (value : GoString)
  /-- `must be an integer status code (e.g. 200) or class form (e.g. 2xx, 5xx)`. -/
  | badStatus
  /-- `has_events must be true or false, got %q`. -/
  | badHasEvents (value : GoString)
  /-- `empty header name after 'header.'`. -/
  | emptyHeaderName
  /-- `wildcards are not supported in header name; use 'headers:' for fuzzy header search`. -/
  | wildcardInHeaderName
  /-- `value must contain a literal between wildcards`. -/
  | noLiteral
  /-- `wildcards '*' are only allowed at the start or end of a value`. -/
  | interiorWildcard
  deriving DecidableEq

/-- `ParseError`. -/
structure ParseError where
  token : GoString
  message : Message
  deriving DecidableEq

/-! ### Tokens -/

/-- `isASCIISpace`. -/
def isASCIISpace (c : UInt8) : Bool :=
  c == 0x20 || c == 0x09 || c == 0x0A || c == 0x0D || c == 0x0B || c == 0x0C

/-- Where the loop of `tokenize` stands. -/
inductive TokenState where
  /-- Skipping white space. -/
  | between
  /-- In a token: the input from its start, what was read of it, whether a quote is open, and
  whether the next byte is a quote that a backslash precedes. -/
  | token (start acc : GoString) (inQuote escaped : Bool)

/-- The loop of `tokenize`. -/
def tokenizeFrom : TokenState → GoString → Except ParseError (List GoString)
  | .between, [] => .ok []
  | .token start acc inQuote _, [] => if inQuote then .error ⟨start, .unclosedQuote⟩ else .ok [acc]
  | .between, c :: s =>
    if isASCIISpace c then tokenizeFrom .between s
      else tokenizeFrom (.token (c :: s) [c] (c == 0x22) false) s
  | .token start acc true true, c :: s => tokenizeFrom (.token start (acc ++ [c]) true false) s
  | .token start acc true false, c :: s =>
    if c == 0x5C && s.head? == some 0x22 then tokenizeFrom (.token start (acc ++ [c]) true true) s
    else tokenizeFrom (.token start (acc ++ [c]) (c != 0x22) false) s
  | .token start acc false _, c :: s =>
    if c == 0x22 then tokenizeFrom (.token start (acc ++ [c]) true false) s
    else if isASCIISpace c then (tokenizeFrom .between s).map (acc :: ·)
    else tokenizeFrom (.token start (acc ++ [c]) false false) s

/-- `tokenize`. -/
def tokenize (s : GoString) : Except ParseError (List GoString) := tokenizeFrom .between s

/-! ### Values -/

/-- `strings.ReplaceAll(s, "\\\"", "\"")`. -/
def unescapeQuotes : GoString → GoString
  | [] => []
  | c :: s => if c == 0x5C && s.head? == some 0x22 then unescapeQuotes s else c :: unescapeQuotes s

/-- `parseValue`: the value, its wildcard, and whether it was quoted. -/
def parseValue (valueRaw : GoString) : Except Message (GoString × Wildcard × Bool) :=
  if hasPrefix valueRaw (str "\"") then
    if valueRaw.length < 2 || !hasSuffix valueRaw (str "\"") then .error .unclosedQuote
    else .ok (unescapeQuotes (valueRaw.drop 1).dropLast, .wildcardNone, true)
  else
    let leading := hasPrefix valueRaw (str "*")
    let v := if leading then valueRaw.drop 1 else valueRaw
    let trailing := hasSuffix v (str "*") && 0 < v.length
    let v := if trailing then v.dropLast else v
    if v = [] then .error .noLiteral
    else if contains v (str "*") then .error .interiorWildcard
    else if leading then .ok (v, .wildcardSubstring, false)
    else if trailing then .ok (v, .wildcardPrefix, false)
    else .ok (v, .wildcardNone, false)

/-- `parseStatusValue`. -/
def parseStatusValue (s : GoString) : Except Message StatusFilter :=
  if s.length = 3 ∧ s.getD 1 0 = 0x78 ∧ s.getD 2 0 = 0x78 ∧
      0x31 ≤ s.getD 0 0 ∧ s.getD 0 0 ≤ 0x35 then
    .ok ⟨0, s⟩
  else
    match atoi s with
    | none => .error .badStatus
    | some v => if v < 100 ∨ v > 599 then .error .badStatus else .ok ⟨v, []⟩

/-! ### Terms -/

/-- `validHeaderFieldByte` of `net/textproto`. -/
def validHeaderFieldByte (b : UInt8) : Bool :=
  (0x30 ≤ b && b ≤ 0x39) || (0x41 ≤ b && b ≤ 0x5A) || (0x61 ≤ b && b ≤ 0x7A) ||
    b ∈ str "!#$%&'*+-.^_`|~"

/-- Upper case at the start and after each dash, lower case elsewhere. -/
def canonicalFrom : Bool → GoString → GoString
  | _, [] => []
  | upper, c :: s => (if upper then upperByte c else lowerByte c) :: canonicalFrom (c == 0x2D) s

/-- `textproto.CanonicalMIMEHeaderKey`: names with other bytes are left alone. -/
def canonicalMIMEHeaderKey (s : GoString) : GoString :=
  if s.all validHeaderFieldByte then canonicalFrom true s else s

/-- A term as `parseToken` first makes it. -/
def Term.make (field : Field) (v : GoString × Wildcard × Bool) (negated : Bool) : Term :=
  ⟨field, v.1, v.2.1, v.2.2, negated, [], none, none⟩

/-- `parseHeaderTerm`. -/
def parseHeaderTerm (raw key valueRaw : GoString) (negated : Bool) : Except ParseError Term :=
  let name := key.drop (str "header.").length
  if name = [] then .error ⟨raw, .emptyHeaderName⟩
  else if name.contains 0x2A then .error ⟨raw, .wildcardInHeaderName⟩
  else
    match parseValue valueRaw with
    | .error m => .error ⟨raw, m⟩
    | .ok v => .ok { Term.make .header v negated with headerName := canonicalMIMEHeaderKey name }

variable (U : Unicode)

/-- The last part of `parseToken`: what the structured fields make of the value. -/
def finishTerm (raw : GoString) (term : Term) : Except ParseError Term :=
  match term.field with
  | .method =>
    if canonicalHTTPMethods.contains (toUpper U term.value) then
      .ok { term with value := toUpper U term.value }
    else .error ⟨raw, .unknownMethod term.value⟩
  | .status =>
    match parseStatusValue term.value with
    | .error m => .error ⟨raw, m⟩
    | .ok sf => .ok { term with statusFilter := some sf }
  | .hasEvents =>
    if toLower U term.value = str "true" then .ok { term with hasEvents := some true }
    else if toLower U term.value = str "false" then .ok { term with hasEvents := some false }
    else .error ⟨raw, .badHasEvents term.value⟩
  | _ => .ok term

/-- `parseToken` after the leading `-` is taken off. -/
def parseBody (raw tok : GoString) (negated : Bool) : Except ParseError Term :=
  match if hasPrefix tok (str "\"") then none else indexByte tok 0x3A with
  | none =>
    match parseValue tok with
    | .error m => .error ⟨raw, m⟩
    | .ok v => .ok (Term.make .freeform v negated)
  | some idx =>
    let key := tok.take idx
    let valueRaw := tok.drop (idx + 1)
    if idx = 0 then .error ⟨raw, .noKey⟩
    else if valueRaw = [] then .error ⟨raw, .emptyValue⟩
    else
      match knownFields.lookup (toLower U key) with
      | none =>
        if hasPrefix (toLower U key) (str "header.") then parseHeaderTerm raw key valueRaw negated
        else .error ⟨raw, .unknownKey key⟩
      | some field =>
        match parseValue valueRaw with
        | .error m => .error ⟨raw, m⟩
        | .ok v =>
          if field.structured && v.2.1 ≠ .wildcardNone then .error ⟨raw, .wildcardOnField key⟩
          else finishTerm U raw (Term.make field v negated)

/-- `parseToken`. -/
def parseToken (raw : GoString) : Except ParseError Term :=
  if hasPrefix raw (str "-") then
    if raw.drop 1 = [] then .error ⟨raw, .bareMinus⟩ else parseBody U raw (raw.drop 1) true
  else parseBody U raw raw false

/-- `Parse`. -/
def parse (s : GoString) : Except ParseError Query :=
  match tokenize s with
  | .error e => .error e
  | .ok tokens => (tokens.mapM (parseToken U)).map Query.mk

/-! ### What is accepted -/

/-- What both compilers rely on in a term that `parse` made. -/
structure Accepted (t : Term) : Prop where
  /-- Structured fields have no wildcard. -/
  structured : t.field.structured → t.wildcard = .wildcardNone
  /-- A status term has its filter: a code, or a class of digits `1` to `5`. -/
  status : t.field = .status → ∃ sf, t.statusFilter = some sf ∧
    ((100 ≤ sf.exact ∧ sf.exact ≤ 599 ∧ sf.cls = []) ∨
      sf.exact = 0 ∧ ∃ d : UInt8, 0x31 ≤ d ∧ d ≤ 0x35 ∧ sf.cls = [d, 0x78, 0x78])
  /-- A `has_events` term has its flag. -/
  hasEvents : t.field = .hasEvents → ∃ b, t.hasEvents = some b
  /-- Only a quoted value is empty. -/
  value : t.value = [] → t.quotedLiteral

variable {U}

variable {s raw : GoString} {t : Term} {neg : Bool} {q : Query}

theorem parseStatusValue_ok {sf : StatusFilter} (h : parseStatusValue s = .ok sf) :
    (100 ≤ sf.exact ∧ sf.exact ≤ 599 ∧ sf.cls = []) ∨
      sf.exact = 0 ∧ ∃ d : UInt8, 0x31 ≤ d ∧ d ≤ 0x35 ∧ sf.cls = [d, 0x78, 0x78] := by
  unfold parseStatusValue at h
  split_ifs at h with hc
  · obtain ⟨hl, h₁, h₂, h₃, h₄⟩ := hc
    obtain ⟨a, b, c, rfl⟩ := List.length_eq_three.mp hl
    simp only [List.getD_cons_zero, List.getD_cons_succ] at h₁ h₂ h₃ h₄
    subst h₁ h₂
    cases h
    exact .inr ⟨rfl, a, h₃, h₄, rfl⟩
  · split at h
    · cases h
    · split_ifs at h with hv
      cases h
      exact .inl ⟨by simp only; omega, by simp only; omega, rfl⟩

/-- Only a quoted value is empty. -/
theorem parseValue_ok {v : GoString × Wildcard × Bool} (h : parseValue s = .ok v) :
    v.1 = [] → v.2.2 = true := by
  unfold parseValue at h
  simp only at h
  split_ifs at h <;> cases h <;> intro hv <;>
    first | rfl | exact absurd hv (by assumption)

theorem toUpper_ne_nil_of_canonical (h : canonicalHTTPMethods.contains (toUpper U s)) :
    toUpper U s ≠ [] := by
  intro h0
  rw [h0] at h
  revert h
  decide

theorem finishTerm_accepted {t' : Term} (h : finishTerm U raw t = .ok t')
    (hs : t.field.structured → t.wildcard = .wildcardNone) (hv : t.value = [] → t.quotedLiteral) :
    Accepted t' ∧ t'.negated = t.negated := by
  unfold finishTerm at h
  split at h
  case h_1 hf =>
    split_ifs at h with hm
    cases h
    exact ⟨⟨hs, by simp [hf], by simp [hf], fun h => absurd h (toUpper_ne_nil_of_canonical hm)⟩,
      rfl⟩
  case h_2 hf =>
    split at h
    · cases h
    · rename_i sf hsf
      cases h
      exact ⟨⟨hs, fun _ => ⟨sf, rfl, parseStatusValue_ok hsf⟩, by simp [hf], hv⟩, rfl⟩
  case h_3 hf =>
    split_ifs at h
    all_goals
      cases h
      exact ⟨⟨hs, by simp [hf], fun _ => ⟨_, rfl⟩, hv⟩, rfl⟩
  case h_4 h₁ h₂ h₃ =>
    cases h
    exact ⟨⟨hs, fun hf => absurd hf h₂, fun hf => absurd hf h₃, hv⟩, rfl⟩

/-- A term of one of the fields that take any value. -/
theorem accepted_of_plain (hs : t.field.structured = false) (hv : t.value = [] → t.quotedLiteral) :
    Accepted t where
  structured h := by simp [hs] at h
  status h := by simp [h, Field.structured] at hs
  hasEvents h := by simp [h, Field.structured] at hs
  value := hv

theorem parseHeaderTerm_ok {key valueRaw : GoString}
    (h : parseHeaderTerm raw key valueRaw neg = .ok t) :
    (Accepted t ∧ t.negated = neg) ∧
      ∀ raw' neg', parseHeaderTerm raw' key valueRaw neg' = .ok { t with negated := neg' } := by
  unfold parseHeaderTerm at h ⊢
  simp only at h ⊢
  split_ifs at h ⊢
  split at h
  · cases h
  · rename_i v hv
    cases h
    exact ⟨⟨accepted_of_plain rfl (parseValue_ok hv), rfl⟩, fun _ _ => rfl⟩

/-- The sign of a token is independent of the rest of it. -/
theorem finishTerm_negated {raw' : GoString} {t' : Term} (h : finishTerm U raw t = .ok t') :
    finishTerm U raw' { t with negated := neg } = .ok { t' with negated := neg } := by
  obtain ⟨field, value, wildcard, quoted, negated, name, sf, he⟩ := t
  cases field
  case method =>
    simp only [finishTerm] at h ⊢
    split_ifs at h ⊢
    cases h
    rfl
  case status =>
    simp only [finishTerm] at h ⊢
    split at h <;> cases h
    rfl
  case hasEvents =>
    simp only [finishTerm] at h ⊢
    split_ifs at h ⊢ <;> cases h <;> rfl
  all_goals
    cases h
    rfl

theorem parseBody_ok {tok : GoString} (h : parseBody U raw tok neg = .ok t) :
    (Accepted t ∧ t.negated = neg) ∧
      ∀ raw' neg', parseBody U raw' tok neg' = .ok { t with negated := neg' } := by
  unfold parseBody at h ⊢
  simp only at h ⊢
  split at h
  · -- no key: a freeform term
    split at h
    · cases h
    · rename_i v hv
      cases h
      exact ⟨⟨accepted_of_plain rfl (parseValue_ok hv), rfl⟩, fun _ _ => rfl⟩
  · split at h
    · cases h
    · rename_i hidx
      split at h
      · cases h
      · rename_i hval
        simp only [if_neg hidx, if_neg hval]
        split at h
        · -- a key that is not known: `header.<name>` or nothing
          split at h
          · rename_i hh
            simp only [if_pos hh]
            exact parseHeaderTerm_ok h
          · cases h
        · split at h
          · cases h
          · rename_i field _ _ v hv
            split at h
            · cases h
            · rename_i hw
              simp only [if_neg hw]
              refine ⟨finishTerm_accepted h (fun hs => ?_) (parseValue_ok hv),
                fun raw' neg' => finishTerm_negated h⟩
              simpa [Term.make, show field.structured = true from hs] using hw

theorem parseToken_accepted (h : parseToken U raw = .ok t) : Accepted t := by
  unfold parseToken at h
  split_ifs at h
  all_goals exact (parseBody_ok h).1.1

/-- A minus before a positive token negates its term. -/
theorem parseToken_minus (h : parseToken U raw = .ok t) (hn : t.negated = false) :
    parseToken U (0x2D :: raw) = .ok { t with negated := true } := by
  have hm : hasPrefix (0x2D :: raw) (str "-") = true := (hasPrefix_iff _ _).mpr ⟨raw, rfl⟩
  have h0 : raw ≠ [] := by
    rintro rfl
    cases h
  unfold parseToken at h ⊢
  rw [if_pos hm, if_neg (by simpa using h0)]
  split_ifs at h
  · rw [(parseBody_ok h).1.2] at hn
    cases hn
  · exact (parseBody_ok h).2 _ _

theorem mapM_ok {α β ε : Type} {f : α → Except ε β} {xs : List α} {ys : List β}
    (h : xs.mapM f = .ok ys) :
    List.Forall₂ (fun x y => f x = .ok y) xs ys := by
  induction xs generalizing ys with
  | nil =>
    cases h
    exact .nil
  | cons x xs ih =>
    rw [List.mapM_cons] at h
    cases hx : f x with
    | error e => simp [hx, bind, Except.bind] at h
    | ok y =>
      cases hxs : xs.mapM f with
      | error e => simp [hx, hxs, bind, Except.bind] at h
      | ok ys' =>
        simp only [hx, hxs, bind, Except.bind, pure, Except.pure, Except.ok.injEq] at h
        subst h
        exact .cons hx (ih hxs)

/-- The terms of a query that `parse` accepts are the parsed tokens. -/
theorem parse_ok (h : parse U s = .ok q) :
    ∃ tokens, tokenize s = .ok tokens ∧
      List.Forall₂ (fun tok t => parseToken U tok = .ok t) tokens q.terms := by
  unfold parse at h
  split at h
  · cases h
  · rename_i tokens htok
    refine ⟨tokens, htok, ?_⟩
    cases hts : tokens.mapM (parseToken U) with
    | error e => simp [hts, Except.map] at h
    | ok ts =>
      simp only [hts, Except.map, Except.ok.injEq] at h
      subst h
      exact mapM_ok hts

/-- The terms of a query that `parse` accepts are well formed. -/
theorem parse_accepted (h : parse U s = .ok q) : ∀ t ∈ q.terms, Accepted t := by
  obtain ⟨tokens, -, hq⟩ := parse_ok h
  generalize q.terms = terms at hq
  induction hq with
  | nil => simp
  | cons htok _ ih => exact List.forall_mem_cons.mpr ⟨parseToken_accepted htok, ih⟩

/-! ### A minus before a query -/

/-- One more byte before a token is one more byte before its text. -/
theorem tokenizeFrom_cons {st : TokenState} {start acc start' : GoString} {inQuote escaped : Bool}
    (c : UInt8) {ts : List GoString} (hst : st = .token start acc inQuote escaped)
    (h : tokenizeFrom st s = .ok ts) :
    ∃ t ts', ts = t :: ts' ∧
      tokenizeFrom (.token start' (c :: acc) inQuote escaped) s = .ok ((c :: t) :: ts') := by
  subst hst
  induction s generalizing acc inQuote escaped with
  | nil =>
    cases inQuote <;> simp only [tokenizeFrom] at h ⊢ <;> cases h
    exact ⟨acc, [], rfl, rfl⟩
  | cons b s ih =>
    cases inQuote with
    | true =>
      cases escaped with
      | true => exact ih h
      | false =>
        simp only [tokenizeFrom] at h ⊢
        split_ifs at h ⊢ <;> exact ih h
    | false =>
      simp only [tokenizeFrom] at h ⊢
      split_ifs at h ⊢
      · exact ih h
      · -- the token ends here
        cases hrest : tokenizeFrom .between s with
        | error e => simp [hrest, Except.map] at h
        | ok ts' =>
          simp only [hrest, Except.map, Except.ok.injEq] at h
          exact ⟨acc, ts', h.symm, rfl⟩
      · exact ih h

theorem tokenize_minus_space {c : UInt8} (hc : isASCIISpace c = true) :
    tokenize (0x2D :: c :: s) = (tokenize s).map ([0x2D] :: ·) := by
  have h22 : (c == 0x22) = false := by
    cases h : c == 0x22 with
    | false => rfl
    | true => rw [beq_iff_eq.mp h] at hc; cases hc
  simp only [tokenize, tokenizeFrom, show isASCIISpace 0x2D = false from rfl,
    show ((0x2D : UInt8) == 0x22) = false from rfl, h22, hc, if_true, Bool.false_eq_true, if_false]

theorem tokenize_minus {c : UInt8} {ts : List GoString} (hc : isASCIISpace c = false)
    (h : tokenize (c :: s) = .ok ts) :
    ∃ t ts', ts = t :: ts' ∧ tokenize (0x2D :: c :: s) = .ok ((0x2D :: t) :: ts') := by
  simp only [tokenize, tokenizeFrom, hc, Bool.false_eq_true, if_false] at h
  obtain ⟨t, ts', hts, h'⟩ := @tokenizeFrom_cons _ _ _ _ (0x2D :: c :: s) _ _ 0x2D _ rfl h
  refine ⟨t, ts', hts, ?_⟩
  simp only [tokenize, tokenizeFrom, show isASCIISpace 0x2D = false from rfl,
    show ((0x2D : UInt8) == 0x22) = false from rfl, hc, Bool.false_eq_true, if_false]
  cases hq : c == 0x22 <;> simpa [hq] using h'

/-- A minus before the text of one positive term, where `parse` accepts it, gives the negated
term. -/
theorem parse_minus (h : parse U s = .ok ⟨[t]⟩) (hn : t.negated = false)
    (h' : parse U (0x2D :: s) = .ok q) : q = ⟨[{ t with negated := true }]⟩ := by
  obtain ⟨toks, htoks, hterms⟩ := parse_ok h
  obtain ⟨terms⟩ := q
  obtain ⟨toks', htoks', hterms'⟩ := parse_ok h'
  cases s with
  | nil =>
    cases htoks
    cases hterms
  | cons c s =>
    cases hc : isASCIISpace c with
    | true =>
      -- the minus stands alone, and a bare minus is no token
      rw [tokenize_minus_space hc] at htoks'
      cases hs : tokenize s with
      | error e => simp [hs, Except.map] at htoks'
      | ok rest =>
        simp only [hs, Except.map, Except.ok.injEq] at htoks'
        subst htoks'
        obtain _ | ⟨hbare, -⟩ := hterms'
        cases hbare
    | false =>
      obtain ⟨tok, rest, rfl, hm⟩ := tokenize_minus hc htoks
      obtain _ | ⟨htok, hrest⟩ := hterms
      cases hrest
      rw [hm] at htoks'
      cases htoks'
      obtain _ | ⟨htok', hrest'⟩ := hterms'
      cases hrest'
      rw [parseToken_minus htok hn] at htok'
      cases htok'
      rfl

end HttpCatch.SearchQL
