import HttpCatch.Admin.Chips
import HttpCatch.Library.JSString

/-!
# The parser in the browser

`internal/admin/ui/searchql.js` repeats the parser of the search language in JavaScript, so
that the page can show chips and warnings while the operator types. It is meant to be a
mirror of `SearchQL.parse`.

On ASCII text a JavaScript string is its list of codes, which are bytes here. The keys and
methods are looked up in object literals, so that a name every object inherits is found too
(`objectPrototype`); the value found is then a function or an object, not the name of a
field (`JSField`).

* `tokenize_mirror`, `parseValue_mirror` — these parts are exact mirrors, on all texts.
* `parseToken_mirror_iff` — the tokens on which the two parsers differ (`Diverges`): inherited
  names as keys, a status with a plus sign, a `has_events` flag with capitals, and header names
  that `CanonicalMIMEHeaderKey` leaves alone.
* `parseQuery_mirrors` — the texts on which they agree.
-/

namespace HttpCatch.Admin.Browser

open HttpCatch.Go HttpCatch.SearchQL

/-! ### Objects -/

/-- The properties that every object inherits from `Object.prototype`. -/
def objectPrototype : List GoString := JS.prototypeNames.map str

/-- The `field` of a term. -/
inductive JSField where
  /-- The name of a field. -/
  | text (name : GoString)
  /-- The function or object that every object inherits under the key. -/
  | object (key : GoString)
  deriving DecidableEq

/-- The `statusFilter` of a term. -/
inductive JSStatus where
  /-- `{ exact: n }`. -/
  | exact (n : ℤ)
  /-- `{ class: s }`. -/
  | cls (s : GoString)
  deriving DecidableEq

/-- A term. -/
structure JSTerm where
  field : JSField
  value : GoString
  wildcard : Wildcard
  quoted : Bool
  negated : Bool
  headerName : GoString
  statusFilter : Option JSStatus
  deriving DecidableEq

/-- `KNOWN_FIELDS`, whose values are its keys. -/
def knownFieldNames : List GoString :=
  [str "host", str "path", str "service", str "body", str "headers", str "method", str "status",
    str "source_ip", str "correlation_id", str "has_events"]

/-- `KNOWN_FIELDS[keyLow]`; none is `undefined`. -/
def knownField (keyLow : GoString) : Option JSField :=
  if keyLow ∈ knownFieldNames then some (.text keyLow)
  else if keyLow ∈ objectPrototype then some (.object keyLow)
  else none

/-- `STRUCTURED_FIELDS[field]`, as a truth value. A function or an object is first turned into
text, `function Object() { [native code] }` or `[object Object]`, which is no property. -/
def structuredField : JSField → Bool
  | .text name =>
    name ∈ [str "method", str "status", str "source_ip", str "correlation_id", str "has_events"] ||
      name ∈ objectPrototype
  | .object _ => false

/-- `INDEXED_FIELDS[field]`, as a truth value. -/
def indexedField : JSField → Bool
  | .text name => name ∈ [str "host", str "path", str "service"] || name ∈ objectPrototype
  | .object _ => false

/-- `CANONICAL_METHODS[up]`, as a truth value. -/
def canonicalMethod (up : GoString) : Bool := up ∈ canonicalHTTPMethods || up ∈ objectPrototype

/-! ### Tokens -/

/-- `isSpace`. -/
def isSpace (c : UInt8) : Bool :=
  c == 0x20 || c == 0x09 || c == 0x0A || c == 0x0D || c == 0x0B || c == 0x0C

/-- The inner loop of `tokenize`: the rest of the token and the text after it; none when a quote
stays open. -/
def scanToken : Bool → GoString → Option (GoString × GoString)
  | true, 0x5C :: 0x22 :: s => (scanToken true s).map fun r => (0x5C :: 0x22 :: r.1, r.2)
  | true, c :: s => (scanToken (c != 0x22) s).map fun r => (c :: r.1, r.2)
  | true, [] => none
  | false, [] => some ([], [])
  | false, c :: s =>
    if c == 0x22 then (scanToken true s).map fun r => (c :: r.1, r.2)
    else if isSpace c then some ([], c :: s)
    else (scanToken false s).map fun r => (c :: r.1, r.2)

/-- The outer loop of `tokenize`. Each round takes a byte at least. -/
def tokenizeLoop : ℕ → GoString → Except ParseError (List GoString)
  | 0, _ => .ok []
  | n + 1, s =>
    match s.dropWhile isSpace with
    | [] => .ok []
    | c :: s =>
      match scanToken false (c :: s) with
      | none => .error ⟨c :: s, .unclosedQuote⟩
      | some (tok, rest) => (tokenizeLoop n rest).map (tok :: ·)

/-- `tokenize`. -/
def tokenize (s : GoString) : Except ParseError (List GoString) := tokenizeLoop (s.length + 1) s

/-! ### Values -/

/-- `inner.replace(/\\"/g, "\"")`. -/
def replaceEscapes : GoString → GoString
  | 0x5C :: 0x22 :: s => 0x22 :: replaceEscapes s
  | c :: s => c :: replaceEscapes s
  | [] => []

/-- `parseValue`. -/
def parseValue (valueRaw : GoString) : Except Message (GoString × Wildcard × Bool) :=
  if valueRaw.head? = some 0x22 then
    if valueRaw.length < 2 ∨ valueRaw.getLast? ≠ some 0x22 then .error .unclosedQuote
    else .ok (replaceEscapes (valueRaw.drop 1).dropLast, .wildcardNone, true)
  else
    let leading := valueRaw.head? = some 0x2A
    let v := if leading then valueRaw.drop 1 else valueRaw
    let trailing := v.getLast? = some 0x2A
    let v := if trailing then v.dropLast else v
    if v = [] then .error .noLiteral
    else if 0x2A ∈ v then .error .interiorWildcard
    else .ok (v, if leading then .wildcardSubstring else if trailing then .wildcardPrefix
      else .wildcardNone, false)

/-- `parseStatusValue`. A number that is too long for a double is above 599 as a double too. -/
def parseStatusValue (s : GoString) : Except Message JSStatus :=
  if s.length = 3 ∧ s.getD 1 0 = 0x78 ∧ s.getD 2 0 = 0x78 ∧ 0x31 ≤ s.getD 0 0 ∧ s.getD 0
    0 ≤ 0x35 then .ok (.cls s)
  else
    match decimal s with
    | none => .error .badStatus
    | some n => if n < 100 ∨ n > 599 then .error .badStatus else .ok (.exact n)

/-- The loop of `canonicalHeaderName`. -/
def canonicalHeaderNameFrom : Bool → GoString → GoString
  | _, [] => []
  | upper, c :: s =>
    let ch :=
      if upper then (if 97 ≤ c && c ≤ 122 then c - 32 else c)
      else if 65 ≤ c && c ≤ 90 then c + 32
      else c
    ch :: canonicalHeaderNameFrom (ch == 0x2D) s

/-- `canonicalHeaderName`. -/
def canonicalHeaderName (name : GoString) : GoString := canonicalHeaderNameFrom true name

/-! ### Terms -/

/-- A term as `parseToken` first makes it. -/
def JSTerm.make (field : JSField) (v : GoString × Wildcard × Bool) (negated : Bool) : JSTerm :=
  ⟨field, v.1, v.2.1, v.2.2, negated, [], none⟩

/-- The terms of the form `header.<name>`. -/
def parseHeaderTerm (raw key valueRaw : GoString) (negated : Bool) : Except ParseError JSTerm :=
  let name := key.drop (str "header.").length
  if name = [] then .error ⟨raw, .emptyHeaderName⟩
  else if 0x2A ∈ name then .error ⟨raw, .wildcardInHeaderName⟩
  else
    match parseValue valueRaw with
    | .error m => .error ⟨raw, m⟩
    | .ok v =>
      .ok { JSTerm.make (.text (str "header")) v negated with
        headerName := canonicalHeaderName name }

/-- The last part of `parseToken`. -/
def finishTerm (raw : GoString) (term : JSTerm) : Except ParseError JSTerm :=
  if term.field = .text (str "method") then
    let up := term.value.map upperByte
    if canonicalMethod up then .ok { term with value := up }
      else .error ⟨raw, .unknownMethod term.value⟩
  else if term.field = .text (str "status") then
    match parseStatusValue term.value with
    | .error m => .error ⟨raw, m⟩
    | .ok sf => .ok { term with statusFilter := some sf }
  else if term.field = .text (str "has_events") then
    let lv := term.value.map lowerByte
    if lv ≠ str "true" ∧ lv ≠ str "false" then .error ⟨raw, .badHasEvents term.value⟩
      else .ok { term with value := lv }
  else .ok term

/-- `parseToken` from where the key and the value are known. -/
def parseKeyed (raw key valueRaw : GoString) (negated : Bool) : Except ParseError JSTerm :=
  let keyLow := key.map lowerByte
  match knownField keyLow with
  | none =>
    if str "header." <+: keyLow then parseHeaderTerm raw key valueRaw negated
      else .error ⟨raw, .unknownKey key⟩
  | some field =>
    match parseValue valueRaw with
    | .error m => .error ⟨raw, m⟩
    | .ok v =>
      if structuredField field && v.2.1 ≠ .wildcardNone then .error ⟨raw, .wildcardOnField key⟩
      else finishTerm raw (JSTerm.make field v negated)

/-- `parseToken` after the leading `-` is taken off. -/
def parseBody (raw tok : GoString) (negated : Bool) : Except ParseError JSTerm :=
  match if tok.head? = some 0x22 then none else indexByte tok 0x3A with
  | none =>
    match parseValue tok with
    | .error m => .error ⟨raw, m⟩
    | .ok v => .ok (JSTerm.make (.text []) v negated)
  | some idx =>
    if idx = 0 then .error ⟨raw, .noKey⟩
    else if tok.drop (idx + 1) = [] then .error ⟨raw, .emptyValue⟩
    else parseKeyed raw (tok.take idx) (tok.drop (idx + 1)) negated

/-- `parseToken`. -/
def parseToken (raw : GoString) : Except ParseError JSTerm :=
  if raw.head? = some 0x2D then
    if raw.drop 1 = [] then .error ⟨raw, .bareMinus⟩ else parseBody raw (raw.drop 1) true
  else parseBody raw raw false

/-- `parseQuery`. -/
def parseQuery (s : GoString) : Except ParseError (List JSTerm) :=
  match tokenize s with
  | .error e => .error e
  | .ok tokens => tokens.mapM parseToken

/-- `isUnindexedScan`. -/
def isUnindexedScan (terms : List JSTerm) : Bool :=
  terms.any fun t => t.wildcard = .wildcardSubstring && (t.field = .text [] || indexedField t.field)

/-! ### Tokens agree -/

/-- The inner loop cuts the text in two. -/
theorem scanToken_append {inQuote : Bool} {s tok rest : GoString}
    (h : scanToken inQuote s = some (tok, rest)) :
    tok ++ rest = s := by
  fun_induction scanToken inQuote s generalizing tok rest with
  | case1 s ih =>
    obtain ⟨⟨t, r⟩, hr, heq⟩ := Option.map_eq_some_iff.mp h
    obtain ⟨rfl, rfl⟩ := Prod.mk.inj heq
    rw [← ih hr]
    rfl
  | case2 c s _ ih =>
    obtain ⟨⟨t, r⟩, hr, heq⟩ := Option.map_eq_some_iff.mp h
    obtain ⟨rfl, rfl⟩ := Prod.mk.inj heq
    rw [← ih hr]
    rfl
  | case3 => cases h
  | case4 =>
    cases h
    rfl
  | case5 c s hq ih =>
    obtain ⟨⟨t, r⟩, hr, heq⟩ := Option.map_eq_some_iff.mp h
    obtain ⟨rfl, rfl⟩ := Prod.mk.inj heq
    rw [← ih hr]
    rfl
  | case6 c s hq hs =>
    cases h
    rfl
  | case7 c s hq hs ih =>
    obtain ⟨⟨t, r⟩, hr, heq⟩ := Option.map_eq_some_iff.mp h
    obtain ⟨rfl, rfl⟩ := Prod.mk.inj heq
    rw [← ih hr]
    rfl

theorem not_escape {c : UInt8} {s : GoString} (h : ∀ t, c = 0x5C → s = 0x22 :: t → False) :
    (c == 0x5C && s.head? == some 0x22) = false := by
  rw [Bool.eq_false_iff, Ne, Bool.and_eq_true, beq_iff_eq, beq_iff_eq, List.head?_eq_some_iff]
  rintro ⟨hc, t, hs⟩
  exact h t hc hs

/-- The inner loop ends a token where the loop of the server does. -/
theorem tokenizeFrom_scan (inQuote : Bool) (s start acc : GoString) :
    tokenizeFrom (.token start acc inQuote false) s =
      match scanToken inQuote s with
      | none => .error ⟨start, .unclosedQuote⟩
      | some (tok, rest) => (tokenizeFrom .between rest).map ((acc ++ tok) :: ·) := by
  fun_induction scanToken inQuote s generalizing acc with
  | case1 s ih =>
    -- an escaped quote: the server's loop takes its two bytes in two rounds
    have hstep : tokenizeFrom (.token start acc true false) (0x5C :: 0x22 :: s) =
        tokenizeFrom (.token start (acc ++ [0x5C] ++ [0x22]) true false) s := rfl
    rw [hstep, ih]
    cases scanToken true s <;> simp
  | case2 c s hesc ih =>
    rw [tokenizeFrom, not_escape hesc, if_neg Bool.false_ne_true, ih]
    cases scanToken (c != 0x22) s <;> simp
  | case3 => rfl
  | case4 => simp [tokenizeFrom, Except.map]
  | case5 c s hq ih =>
    rw [tokenizeFrom, if_pos hq, ih]
    cases scanToken true s <;> simp
  | case6 c s hq hs =>
    have hb : tokenizeFrom .between (c :: s) = tokenizeFrom .between s := by
      rw [tokenizeFrom, if_pos (show isASCIISpace c = true from hs)]
    rw [tokenizeFrom, if_neg hq, if_pos (show isASCIISpace c = true from hs)]
    simp only [hb, List.append_nil]
  | case7 c s hq hs ih =>
    rw [tokenizeFrom, if_neg hq, if_neg (show ¬ isASCIISpace c = true from hs), ih]
    cases scanToken false s <;> simp

theorem tokenizeFrom_dropWhile (s : GoString) :
    tokenizeFrom .between (s.dropWhile isSpace) = tokenizeFrom .between s := by
  induction s with
  | nil => rfl
  | cons c s ih =>
    rw [List.dropWhile_cons]
    split_ifs with hs
    · rw [ih, tokenizeFrom, if_pos (show isASCIISpace c = true from hs)]
    · rfl

/-- The outer loop, given one round for each byte. -/
theorem tokenizeLoop_eq {n : ℕ} {s : GoString} (hn : s.length < n) :
    tokenizeLoop n s = tokenizeFrom .between s := by
  induction n generalizing s with
  | zero => omega
  | succ n ih =>
    rw [tokenizeLoop, ← tokenizeFrom_dropWhile]
    have hlen : (s.dropWhile isSpace).length ≤ s.length := List.length_dropWhile_le _ _
    cases hd : s.dropWhile isSpace with
    | nil => rfl
    | cons c t =>
      have hc : ¬ isSpace c = true := by
        have := List.head_dropWhile_not isSpace (l := s) (by simp [hd])
        simpa [hd] using this
      -- the first byte of a token is read by the inner loop
      have hscan : scanToken false (c :: t) =
          (scanToken (c == 0x22) t).map fun r => (c :: r.1, r.2) := by
        rw [scanToken]
        split_ifs with hq
        · rw [hq]
        · rw [Bool.eq_false_iff.mpr hq]
      rw [tokenizeFrom, if_neg (show ¬ isASCIISpace c = true from hc), tokenizeFrom_scan]
      simp only [hscan]
      cases hr : scanToken (c == 0x22) t with
      | none => rfl
      | some r =>
        obtain ⟨tok, rest⟩ := r
        have hrest : rest.length < n := by
          have := congrArg List.length (scanToken_append hr)
          rw [hd, List.length_cons] at hlen
          rw [List.length_append] at this
          omega
        simp only [Option.map_some, ih hrest]
        rfl

/-- **The tokens are the server's, on all texts.** -/
theorem tokenize_mirror (s : GoString) : tokenize s = SearchQL.tokenize s :=
  tokenizeLoop_eq (Nat.lt_succ_self _)

theorem tokenizeLoop_subset {n : ℕ} {s : GoString} {ts : List GoString}
    (h : tokenizeLoop n s = .ok ts) :
    ∀ t ∈ ts, t ⊆ s := by
  induction n generalizing s ts with
  | zero =>
    cases h
    simp
  | succ n ih =>
    rw [tokenizeLoop] at h
    have hdrop : s.dropWhile isSpace ⊆ s := (List.dropWhile_suffix _).subset
    split at h
    · cases h
      simp
    · rename_i c t hd
      split at h
      · cases h
      · rename_i tok rest hscan
        cases hrest : tokenizeLoop n rest with
        | error e => simp [hrest, Except.map] at h
        | ok ts' =>
          simp only [hrest, Except.map, Except.ok.injEq] at h
          subst h
          have happ := scanToken_append hscan
          rw [hd, ← happ] at hdrop
          refine List.forall_mem_cons.mpr ⟨?_, fun u hu => ?_⟩
          · exact List.Subset.trans (List.subset_append_left _ _) hdrop
          · exact List.Subset.trans (ih hrest u hu)
              (List.Subset.trans (List.subset_append_right _ _) hdrop)

theorem tokenize_subset {s : GoString} {ts : List GoString} (h : SearchQL.tokenize s = .ok ts) :
    ∀ t ∈ ts, t ⊆ s :=
  tokenizeLoop_subset ((tokenize_mirror s).trans h)

/-! ### Values agree -/

theorem replaceEscapes_eq (s : GoString) : replaceEscapes s = unescapeQuotes s := by
  fun_induction replaceEscapes s with
  | case1 s ih =>
    rw [ih]
    rfl
  | case2 c s hesc ih =>
    rw [unescapeQuotes, not_escape hesc, if_neg Bool.false_ne_true, ih]
  | case3 => rfl

/-- **Values are read as the server reads them, on all texts.** -/
theorem parseValue_mirror (raw : GoString) : parseValue raw = SearchQL.parseValue raw := by
  have hlast : ∀ v : GoString, (v.getLast? = some 0x2A ∧ 0 < v.length) ↔
      v.getLast? = some 0x2A := by
    intro v
    cases v <;> simp
  simp only [parseValue, SearchQL.parseValue, replaceEscapes_eq, show str "\"" = [0x22] from rfl,
    show str "*" = [0x2A] from rfl, hasPrefix_byte, hasSuffix_byte, contains_byte, Bool.or_eq_true,
    Bool.not_eq_true', Bool.and_eq_true, decide_eq_true_eq, Bool.eq_false_iff, Ne, hlast]
  split_ifs <;> rfl

/-! ### Names -/

/-- The names that every object inherits and that are in lower case. -/
def inheritedNames : List GoString := [str "constructor", str "__proto__"]

theorem not_upper_lowerByte (b : UInt8) : ¬ (0x41 ≤ lowerByte b ∧ lowerByte b ≤ 0x5A) := by
  rw [lowerByte]
  split_ifs with h
  · simp only [Bool.and_eq_true, decide_eq_true_eq, UInt8.le_iff_toNat_le, UInt8.toNat_add] at h ⊢
    simp only [UInt8.reduceToNat] at h ⊢
    omega
  · simpa using h

theorem not_lower_upperByte (b : UInt8) : ¬ (0x61 ≤ upperByte b ∧ upperByte b ≤ 0x7A) := by
  rw [upperByte]
  split_ifs with h
  · simp only [Bool.and_eq_true, decide_eq_true_eq] at h
    have hsub : (b - 0x20).toNat = b.toNat - 0x20 :=
      UInt8.toNat_sub_of_le _ _ (le_trans (by decide) h.1)
    simp only [UInt8.le_iff_toNat_le, hsub] at h ⊢
    simp only [UInt8.reduceToNat] at h ⊢
    omega
  · simpa using h

/-- The inherited names with a capital are not the lower case of a key. -/
theorem mem_objectPrototype_iff (key : GoString) :
    key.map lowerByte ∈ objectPrototype ↔ key.map lowerByte ∈ inheritedNames := by
  have hcap : objectPrototype.all (fun n => decide (n ∈ inheritedNames) ||
      n.any fun b => decide (0x41 ≤ b ∧ b ≤ 0x5A)) = true :=
    rfl
  have hsub : inheritedNames.all (fun n => decide (n ∈ objectPrototype)) = true := rfl
  constructor
  · intro h
    rcases Bool.or_eq_true_iff.mp (List.all_eq_true.mp hcap _ h) with hin | hup
    · exact of_decide_eq_true hin
    · obtain ⟨c, hc, hup⟩ := List.any_eq_true.mp hup
      obtain ⟨b, -, rfl⟩ := List.mem_map.mp hc
      exact absurd (of_decide_eq_true hup) (not_upper_lowerByte b)
  · exact fun h => of_decide_eq_true (List.all_eq_true.mp hsub _ h)

/-- No inherited name is in upper case. -/
theorem map_upperByte_not_mem (s : GoString) : s.map upperByte ∉ objectPrototype := by
  have hlow : objectPrototype.all (fun n => n.any fun b => decide (0x61 ≤ b ∧ b ≤ 0x7A)) = true :=
    rfl
  intro h
  obtain ⟨c, hc, hlow⟩ := List.any_eq_true.mp (List.all_eq_true.mp hlow _ h)
  obtain ⟨b, -, rfl⟩ := List.mem_map.mp hc
  exact not_lower_upperByte b (of_decide_eq_true hlow)

/-- The fields of the two parsers are the same, but for the inherited names. -/
theorem knownField_eq (key : GoString) :
    knownField (key.map lowerByte) =
      match knownFields.lookup (key.map lowerByte) with
      | some f => some (.text (fieldName f))
      | none => if key.map lowerByte ∈ inheritedNames then some (.object (key.map lowerByte))
        else none := by
  cases hf : knownFields.lookup (key.map lowerByte) with
  | some f =>
    obtain ⟨hname, hfree, hheader⟩ := lookup_knownFields hf
    have hmem : fieldName f ∈ knownFieldNames := by
      cases f <;> first | exact absurd rfl hfree | exact absurd rfl hheader | decide
    rw [hname, knownField, if_pos hmem]
  | none =>
    have hmem : key.map lowerByte ∉ knownFieldNames := by
      intro h
      simp only [knownFieldNames, List.mem_cons, List.not_mem_nil, or_false] at h
      rcases h with h | h | h | h | h | h | h | h | h | h <;> rw [h] at hf <;> cases hf
    rw [knownField, if_neg hmem]
    simp only [mem_objectPrototype_iff]

theorem structuredField_fieldName (f : Field) :
    structuredField (.text (fieldName f)) = f.structured := by
  cases f <;> rfl

theorem indexedField_fieldName (f : Field) : indexedField (.text (fieldName f)) = f.indexed := by
  cases f <;> rfl

theorem canonicalHeaderNameFrom_eq (upper : Bool) (s : GoString) :
    canonicalHeaderNameFrom upper s = canonicalFrom upper s := by
  induction s generalizing upper with
  | nil => rfl
  | cons c s ih =>
    have hdash : ∀ c' : UInt8, c' = (if upper then upperByte c else lowerByte c) →
    (c' == 0x2D) = (c == 0x2D) := by
      rintro _ rfl
      rw [Bool.eq_iff_iff, beq_iff_eq, beq_iff_eq, upperByte, lowerByte]
      cases upper <;> simp only [Bool.false_eq_true, if_false, if_true] <;> split_ifs with h <;>
        simp only [Bool.and_eq_true, decide_eq_true_eq, UInt8.le_iff_toNat_le, ← UInt8.toNat_inj,
          UInt8.toNat_add, UInt8.toNat_sub] at h ⊢ <;> simp only [UInt8.reduceToNat] at h ⊢ <;>
            omega
    have hch : (if upper then (if 97 ≤ c && c ≤ 122 then c - 32 else c)
        else if 65 ≤ c && c ≤ 90 then c + 32 else c) =
        if upper then upperByte c else lowerByte c := rfl
    rw [canonicalHeaderNameFrom, canonicalFrom]
    simp only [hch, ih, hdash _ rfl]

/-! ### Terms agree -/

/-- The filter of the server. -/
def JSStatus.toFilter : JSStatus → StatusFilter
  | .exact n => ⟨n, []⟩
  | .cls s => ⟨0, s⟩

/-- The two terms are equal field by field. -/
structure MirrorTerm (t : Term) (j : JSTerm) : Prop where
  field : j.field = .text (fieldName t.field)
  value : j.value = t.value
  wildcard : j.wildcard = t.wildcard
  quoted : j.quoted = t.quotedLiteral
  negated : j.negated = t.negated
  headerName : j.headerName = t.headerName
  statusFilter : j.statusFilter.map JSStatus.toFilter = t.statusFilter

/-- Both results are errors, or both are terms, and equal. -/
def MirrorResult (r : Except ParseError Term) (j : Except ParseError JSTerm) : Prop :=
  (∃ e e', r = .error e ∧ j = .error e') ∨ ∃ t u, r = .ok t ∧ j = .ok u ∧ MirrorTerm t u

theorem mirrorResult_error (e e' : ParseError) : MirrorResult (.error e) (.error e') :=
  .inl ⟨e, e', rfl, rfl⟩

theorem mirrorResult_make (f : Field) (v : GoString × Wildcard × Bool) (neg : Bool) :
    MirrorResult (.ok (Term.make f v neg)) (.ok (JSTerm.make (.text (fieldName f)) v neg)) :=
  .inr ⟨_, _, rfl, rfl, rfl, rfl, rfl, rfl, rfl, rfl, rfl⟩

/-- The token is a key, a colon and a value, after a minus or not. -/
structure Keyed (tok : GoString) (neg : Bool) (key value : GoString) : Prop where
  text : tok = (if neg then [0x2D] else []) ++ (key ++ 0x3A :: value)
  key_ne : key ≠ []
  colon : 0x3A ∉ key
  quote : key.head? ≠ some 0x22
  minus : neg = false → key.head? ≠ some 0x2D
  value_ne : value ≠ []

/-- The key is a name that every object inherits. -/
def InheritedKey (tok : GoString) : Prop :=
  ∃ neg key value v, Keyed tok neg key value ∧ SearchQL.parseValue value = .ok v ∧
    key.map lowerByte ∈ inheritedNames

/-- A number with a plus sign, of three digits but for leading zeros. -/
def Signed (s : GoString) : Prop :=
  ∃ digits n, s = 0x2B :: digits ∧ decimal digits = some n ∧ 100 ≤ n ∧ n ≤ 599

/-- A status with a plus sign. -/
def SignedStatus (tok : GoString) : Prop :=
  ∃ neg key value v, Keyed tok neg key value ∧ SearchQL.parseValue value = .ok v ∧
    key.map lowerByte = str "status" ∧
    v.2.1 = .wildcardNone ∧ Signed v.1

/-- `true` or `false`, with a capital. -/
def Capital (s : GoString) : Prop :=
  s.map lowerByte ∈ [str "true", str "false"] ∧ s.map lowerByte ≠ s

/-- A `has_events` flag with a capital. -/
def CapitalFlag (tok : GoString) : Prop :=
  ∃ neg key value v, Keyed tok neg key value ∧ SearchQL.parseValue value = .ok v ∧
    key.map lowerByte = str "has_events" ∧
    v.2.1 = .wildcardNone ∧ Capital v.1

/-- A header name with a byte that is not for header names, and not in canonical case. -/
def OddHeader (tok : GoString) : Prop :=
  ∃ neg key value v, Keyed tok neg key value ∧ SearchQL.parseValue value = .ok v ∧
    str "header." <+: key.map lowerByte ∧
    0x2A ∉ key.drop 7 ∧ ¬ (key.drop 7).all validHeaderFieldByte ∧
      canonicalFrom true (key.drop 7) ≠ key.drop 7

section Keys

variable {U : Unicode} {raw tok key value : GoString} {neg : Bool}

theorem parseBody_bare (h : tok.head? = some 0x22 ∨ 0x3A ∉ tok) :
    parseBody raw tok neg =
      match parseValue tok with
      | .error m => .error ⟨raw, m⟩
      | .ok v => .ok (JSTerm.make (.text []) v neg) := by
  have hnone : (if tok.head? = some 0x22 then none else indexByte tok 0x3A) = none := by
    rcases h with h | h
    · exact if_pos h
    · rw [indexByte_eq_none h, ite_self]
  rw [parseBody, hnone]

theorem parseBody_colon (hq : key.head? ≠ some 0x22) (hc : 0x3A ∉ key) :
    parseBody raw (key ++ 0x3A :: value) neg =
      if key = [] then .error ⟨raw, .noKey⟩
      else if value = [] then .error ⟨raw, .emptyValue⟩
      else parseKeyed raw key value neg := by
  have hp : ¬ (key ++ 0x3A :: value).head? = some 0x22 := by
    cases key with
    | nil => simp
    | cons c key => exact hq
  have hdrop : (key ++ 0x3A :: value).drop (key.length + 1) = value := by
    rw [List.drop_append, List.drop_of_length_le (Nat.le_succ _)]
    simp
  rw [parseBody, if_neg hp, indexByte_append hc]
  simp only [List.take_left, hdrop, List.length_eq_zero_iff]

/-- The minus is taken off the same way. -/
theorem parseToken_body (tok : GoString) :
    (tok = [0x2D] ∧ MirrorResult (SearchQL.parseToken U tok) (parseToken tok)) ∨
      ∃ neg body, tok = (if neg then [0x2D] else []) ++ body ∧
        (neg = false → body.head? ≠ some 0x2D) ∧
        SearchQL.parseToken U tok = SearchQL.parseBody U tok body neg ∧
          parseToken tok = parseBody tok body neg := by
  by_cases hm : tok.head? = some 0x2D
  · obtain ⟨body, rfl⟩ := List.head?_eq_some_iff.mp hm
    have hp : hasPrefix (0x2D :: body) (str "-") = true := (hasPrefix_byte _ _).mpr rfl
    by_cases hb : body = []
    · subst hb
      exact .inl ⟨rfl, mirrorResult_error _ _⟩
    · refine .inr ⟨true, body, rfl, by simp, ?_, ?_⟩
      · rw [SearchQL.parseToken, if_pos hp, List.drop_one, List.tail_cons, if_neg hb]
      · rw [parseToken, if_pos hm, List.drop_one, List.tail_cons, if_neg hb]
  · have hp : ¬ hasPrefix tok (str "-") = true := fun h => hm ((hasPrefix_byte _ _).mp h)
    exact .inr ⟨false, tok, rfl, fun _ => hm, by rw [SearchQL.parseToken, if_neg hp],
      by rw [parseToken, if_neg hm]⟩

/-- Tokens without a key and a value are read alike. -/
theorem keyed_or_mirror (U : Unicode) (tok : GoString) :
    (∃ neg key value, Keyed tok neg key value) ∨ MirrorResult (SearchQL.parseToken U tok)
    (parseToken tok) := by
  rcases parseToken_body (U := U) tok with ⟨-, h⟩ | ⟨neg, body, htok, hminus, hgo, hjs⟩
  · exact .inr h
  · rcases token_cases body with hbare | ⟨key, value, rfl, hc, hq⟩
    · right
      rw [hgo, hjs, SearchQL.parseBody_bare hbare, parseBody_bare hbare, parseValue_mirror]
      cases SearchQL.parseValue body with
      | error m => exact mirrorResult_error _ _
      | ok v => exact mirrorResult_make .freeform v neg
    · rw [hgo, hjs, SearchQL.parseBody_colon hq hc, parseBody_colon hq hc]
      by_cases hkey : key = []
      · rw [if_pos hkey, if_pos hkey]
        exact .inr (mirrorResult_error _ _)
      · by_cases hvalue : value = []
        · rw [if_neg hkey, if_neg hkey, if_pos hvalue, if_pos hvalue]
          exact .inr (mirrorResult_error _ _)
        · refine .inl ⟨neg, key, value, htok, hkey, hc, hq, fun hn hhead => hminus hn ?_, hvalue⟩
          rw [List.head?_append, hhead]
          rfl

theorem Keyed.body (h : Keyed tok neg key value) :
    SearchQL.parseToken U tok = SearchQL.parseBody U tok (key ++ 0x3A :: value) neg ∧
      parseToken tok = parseBody tok (key ++ 0x3A :: value) neg := by
  have hne : key ++ 0x3A :: value ≠ [] := by simp
  cases neg with
  | true =>
    obtain rfl : tok = 0x2D :: (key ++ 0x3A :: value) := h.text
    have hp : hasPrefix (0x2D :: (key ++ 0x3A :: value)) (str "-") = true :=
      (hasPrefix_byte _ _).mpr rfl
    constructor
    · rw [SearchQL.parseToken, if_pos hp, List.drop_one, List.tail_cons, if_neg hne]
    · rw [parseToken, if_pos List.head?_cons, List.drop_one, List.tail_cons, if_neg hne]
  | false =>
    obtain rfl : tok = key ++ 0x3A :: value := h.text
    have hm : ¬ (key ++ 0x3A :: value).head? = some 0x2D := by
      obtain ⟨c, key, rfl⟩ := List.exists_cons_of_ne_nil h.key_ne
      exact h.minus rfl
    have hp : ¬ hasPrefix (key ++ 0x3A :: value) (str "-") = true :=
      fun h => hm ((hasPrefix_byte _ _).mp h)
    exact ⟨by rw [SearchQL.parseToken, if_neg hp], by rw [parseToken, if_neg hm]⟩

theorem Keyed.parseToken_js (h : Keyed tok neg key value) :
    parseToken tok = parseKeyed tok key value neg := by
  rw [h.body (U := .asciiOnly) |>.2, parseBody_colon h.quote h.colon, if_neg h.key_ne,
    if_neg h.value_ne]

theorem Keyed.parseToken_go (h : Keyed tok neg key value) (hascii : ∀ b ∈ tok, b < 0x80) :
    SearchQL.parseToken U tok =
      match knownFields.lookup (key.map lowerByte) with
      | none =>
        if hasPrefix (key.map lowerByte) (str "header.") then
          SearchQL.parseHeaderTerm tok key value neg
        else .error ⟨tok, .unknownKey key⟩
      | some field =>
        match SearchQL.parseValue value with
        | .error m => .error ⟨tok, m⟩
        | .ok v =>
          if field.structured && v.2.1 ≠ .wildcardNone then .error ⟨tok, .wildcardOnField key⟩
          else SearchQL.finishTerm U tok (Term.make field v neg) := by
  have hkey : toLower U key = key.map lowerByte :=
    Caseless.toLower_eq (caseless_of_ascii U fun b hb => hascii b (by simp [h.text, hb]))
  rewrite [h.body.1, SearchQL.parseBody_colon h.quote h.colon, if_neg h.key_ne,
    if_neg h.value_ne, hkey]
  rfl

/-! ### The values of the structured fields -/

variable {s : GoString} {v : GoString × Wildcard × Bool}

theorem toUpper_of_ascii (h : ∀ b ∈ s, b < 0x80) : toUpper U s = s.map upperByte := by
  rw [toUpper, pieces_of_ascii h, List.flatMap_map]
  exact List.map_eq_flatMap.symm

theorem decimal_sign {c : UInt8} (hc : c < 0x30) : decimal (c :: s) = none := by
  rw [decimal, if_neg]
  simp [UInt8.not_le.mpr hc]

/-- Status filters agree but for the sign. -/
theorem parseStatusValue_mirror (hs : ¬ Signed s) :
    (∃ m m', SearchQL.parseStatusValue s = .error m ∧ parseStatusValue s = .error m') ∨
      ∃ sf, parseStatusValue s = .ok sf ∧ SearchQL.parseStatusValue s = .ok sf.toFilter := by
  rw [parseStatusValue, SearchQL.parseStatusValue]
  split_ifs with hcls
  · exact .inr ⟨_, rfl, rfl⟩
  · -- a sign is no digit, and a number with one is negative or `Signed`
    by_cases hminus : s.head? = some 0x2D
    · obtain ⟨t, rfl⟩ := List.head?_eq_some_iff.mp hminus
      left
      refine ⟨.badStatus, .badStatus, ?_, by rw [decimal_sign (by decide)]⟩
      have hatoi : ∀ n, atoi (0x2D :: t) = some n → n < 100 := by
        intro n hn
        obtain ⟨hm, -⟩ := Option.filter_eq_some_iff.mp hn
        obtain ⟨k, -, rfl⟩ := Option.map_eq_some_iff.mp hm
        omega
      cases hn : atoi (0x2D :: t) with
      | none => rfl
      | some n => exact if_pos (.inl (hatoi n hn))
    by_cases hplus : s.head? = some 0x2B
    · obtain ⟨t, rfl⟩ := List.head?_eq_some_iff.mp hplus
      left
      refine ⟨.badStatus, .badStatus, ?_, by rw [decimal_sign (by decide)]⟩
      cases hn : atoi (0x2B :: t) with
      | none => rfl
      | some n =>
        obtain ⟨hm, -⟩ := Option.filter_eq_some_iff.mp hn
        obtain ⟨k, hk, rfl⟩ := Option.map_eq_some_iff.mp hm
        refine if_pos ?_
        by_contra hrange
        exact hs ⟨t, k, rfl, hk, by omega, by omega⟩
    · have hatoi : atoi s = ((decimal s).map fun n : ℕ => (n : ℤ)).filter fun n => -2 ^ 63 ≤ n ∧
          n < 2 ^ 63 := by
        rw [atoi]
        · rintro t rfl
          exact hminus rfl
        · rintro t rfl
          exact hplus rfl
      rw [hatoi]
      cases decimal s with
      | none => exact .inl ⟨.badStatus, .badStatus, rfl, rfl⟩
      | some n =>
        by_cases hn : n < 100 ∨ n > 599
        · left
          refine ⟨.badStatus, .badStatus, ?_, if_pos hn⟩
          rw [Option.map_some, Option.filter_some]
          split_ifs
          · exact if_pos (by omega)
          · rfl
        · right
          refine ⟨.exact n, if_neg hn, ?_⟩
          rw [Option.map_some, Option.filter_some, if_pos (decide_eq_true (by omega))]
          exact if_neg (by omega)

/-- The last part of the two parsers. -/
theorem finishTerm_mirror {f : Field} (hv : ∀ b ∈ v.1, b < 0x80)
    (hstatus : f = .status → ¬ Signed v.1) (hflag : f = .hasEvents → ¬ Capital v.1) :
    MirrorResult (SearchQL.finishTerm U raw (Term.make f v neg))
      (finishTerm raw (JSTerm.make (.text (fieldName f)) v neg)) := by
  cases f with
  | method =>
    change MirrorResult (if canonicalHTTPMethods.contains (toUpper U v.1) then _ else _)
      (if canonicalMethod (v.1.map upperByte) then _ else _)
    have hcm : canonicalMethod (v.1.map upperByte) =
        canonicalHTTPMethods.contains (v.1.map upperByte) := by
      rw [canonicalMethod, decide_eq_false (map_upperByte_not_mem v.1), Bool.or_false,
        List.contains_eq_mem]
    rw [toUpper_of_ascii hv, hcm]
    split_ifs
    · exact .inr ⟨_, _, rfl, rfl, rfl, (toUpper_of_ascii hv).symm, rfl, rfl, rfl, rfl, rfl⟩
    · exact mirrorResult_error _ _
  | status =>
    have hfield : (JSTerm.make (.text (fieldName .status)) v neg).field =
        .text (str "status") := rfl
    have hmethod : (JSTerm.make (.text (fieldName .status)) v neg).field ≠
        .text (str "method") := by
      rw [hfield]
      decide
    rcases parseStatusValue_mirror (hstatus rfl) with ⟨m, m', hgo, hjs⟩ | ⟨sf, hjs, hgo⟩
    · have hgo' : SearchQL.finishTerm U raw (Term.make .status v neg) = .error ⟨raw, m⟩ := by
        simp only [SearchQL.finishTerm, Term.make, hgo]
      have hjs' : finishTerm raw (JSTerm.make (.text (fieldName .status)) v neg) =
          .error ⟨raw, m'⟩ := by
        rw [finishTerm, if_neg hmethod, if_pos hfield]
        simp only [JSTerm.make, hjs]
      rw [hgo', hjs']
      exact mirrorResult_error _ _
    · have hgo' : SearchQL.finishTerm U raw (Term.make .status v neg) =
          .ok { Term.make .status v neg with statusFilter := some sf.toFilter } := by
        simp only [SearchQL.finishTerm, Term.make, hgo]
      have hjs' : finishTerm raw (JSTerm.make (.text (fieldName .status)) v neg) =
          .ok { JSTerm.make (.text (fieldName .status)) v neg with statusFilter := some sf } := by
        rw [finishTerm, if_neg hmethod, if_pos hfield]
        simp only [JSTerm.make, hjs]
      rw [hgo', hjs']
      exact .inr ⟨_, _, rfl, rfl, rfl, rfl, rfl, rfl, rfl, rfl, rfl⟩
  | hasEvents =>
    have hlow : toLower U v.1 = v.1.map lowerByte := Caseless.toLower_eq (caseless_of_ascii U hv)
    change MirrorResult
      (if toLower U v.1 = str "true" then _ else if toLower U v.1 = str "false" then _ else _)
      (if v.1.map lowerByte ≠ str "true" ∧ v.1.map lowerByte ≠ str "false" then _ else _)
    rw [hlow]
    by_cases hval : v.1.map lowerByte = str "true" ∨ v.1.map lowerByte = str "false"
    · have hsame : v.1.map lowerByte = v.1 := by
        by_contra hne
        exact hflag rfl ⟨by simpa using hval, hne⟩
      rw [if_neg (show ¬ (v.1.map lowerByte ≠ str "true" ∧
        v.1.map lowerByte ≠ str "false") by tauto)]
      split_ifs with h₁ h₂
      · exact .inr ⟨_, _, rfl, rfl, rfl, hsame, rfl, rfl, rfl, rfl, rfl⟩
      · exact .inr ⟨_, _, rfl, rfl, rfl, hsame, rfl, rfl, rfl, rfl, rfl⟩
      · tauto
    · rw [if_neg (by tauto), if_neg (by tauto), if_pos (by tauto)]
      exact mirrorResult_error _ _
  | _ => exact mirrorResult_make _ v neg

theorem unescapeQuotes_subset (s : GoString) : unescapeQuotes s ⊆ s := by
  induction s with
  | nil => simp [unescapeQuotes]
  | cons c s ih =>
    rw [unescapeQuotes]
    split_ifs
    · exact List.Subset.trans ih (List.subset_cons_self _ _)
    · exact List.cons_subset_cons c ih

theorem parseValue_subset (h : SearchQL.parseValue s = .ok v) : v.1 ⊆ s := by
  rcases parseValue_cases h with ⟨inner, rfl, rfl⟩ | ⟨leading, trailing, text, rfl, -, rfl⟩
  · intro b hb
    have := unescapeQuotes_subset inner hb
    simp [this]
  · intro b hb
    simp [starred, hb]

theorem parseHeaderTerm_mirror (hodd : ∀ v, SearchQL.parseValue value = .ok v → 0x2A ∉ key.drop 7 →
      ¬ (key.drop 7).all validHeaderFieldByte → canonicalFrom true (key.drop 7) = key.drop 7) :
    MirrorResult (SearchQL.parseHeaderTerm raw key value neg)
      (parseHeaderTerm raw key value neg) := by
  rw [SearchQL.parseHeaderTerm, parseHeaderTerm, parseValue_mirror]
  simp only [List.contains_eq_mem, decide_eq_true_eq]
  split_ifs with hname hstar
  · exact mirrorResult_error _ _
  · exact mirrorResult_error _ _
  · cases hv : SearchQL.parseValue value with
    | error m => exact mirrorResult_error _ _
    | ok v =>
      have hcanon : canonicalHeaderName (key.drop 7) = canonicalMIMEHeaderKey (key.drop 7) := by
        rw [canonicalHeaderName, canonicalHeaderNameFrom_eq, canonicalMIMEHeaderKey]
        split_ifs with hvalid
        · rfl
        · exact hodd v hv hstar hvalid
      exact .inr ⟨_, _, rfl, rfl, rfl, rfl, rfl, rfl, rfl, hcanon, rfl⟩

theorem not_header_of_inherited (h : key ∈ inheritedNames) :
    hasPrefix key (str "header.") = false := by
  simp only [inheritedNames, List.mem_cons, List.not_mem_nil, or_false] at h
  rcases h with rfl | rfl <;> rfl

theorem lookup_inherited (h : key ∈ inheritedNames) : knownFields.lookup key = none := by
  simp only [inheritedNames, List.mem_cons, List.not_mem_nil, or_false] at h
  rcases h with rfl | rfl <;> rfl

/-! ### The four kinds of tokens that are read differently -/

/-- The parsers read the token differently. -/
def Diverges (tok : GoString) : Prop :=
  InheritedKey tok ∨ SignedStatus tok ∨ CapitalFlag tok ∨ OddHeader tok

/-- Every other token is read alike. -/
theorem parseToken_mirror (hascii : ∀ b ∈ tok, b < 0x80) (h : ¬ Diverges tok) :
    MirrorResult (SearchQL.parseToken U tok) (parseToken tok) := by
  simp only [Diverges, not_or] at h
  obtain ⟨hinh, hsigned, hflag, hodd⟩ := h
  rcases keyed_or_mirror U tok with ⟨neg, key, value, hk⟩ | hm
  · rw [hk.parseToken_go hascii, hk.parseToken_js, parseKeyed, knownField_eq, parseValue_mirror]
    cases hf : knownFields.lookup (key.map lowerByte) with
    | none =>
      by_cases hmem : key.map lowerByte ∈ inheritedNames
      · cases hv : SearchQL.parseValue value with
        | error m =>
          simp only [not_header_of_inherited hmem, if_pos hmem, Bool.false_eq_true, if_false]
          exact mirrorResult_error _ _
        | ok v => exact absurd ⟨neg, key, value, v, hk, hv, hmem⟩ hinh
      · simp only [if_neg hmem, hasPrefix_iff]
        split_ifs with hh
        · refine parseHeaderTerm_mirror fun v hv hstar hvalid => ?_
          by_contra hne
          exact hodd ⟨neg, key, value, v, hk, hv, hh, hstar, hvalid, hne⟩
        · exact mirrorResult_error _ _
    | some f =>
      obtain ⟨hname, -, -⟩ := lookup_knownFields hf
      cases hv : SearchQL.parseValue value with
      | error m => exact mirrorResult_error _ _
      | ok v =>
        simp only [structuredField_fieldName]
        split_ifs with hw
        · exact mirrorResult_error _ _
        · have hwild : f.structured = true → v.2.1 = .wildcardNone := by
            intro hs
            simpa [hs] using hw
          refine finishTerm_mirror (fun b hb => hascii b ?_) ?_ ?_
          · have := parseValue_subset hv hb
            simp [hk.text, this]
          · rintro rfl hs
            exact hsigned ⟨neg, key, value, v, hk, hv, hname, hwild rfl, hs⟩
          · rintro rfl hs
            exact hflag ⟨neg, key, value, v, hk, hv, hname, hwild rfl, hs⟩
  · exact hm

/-- An inherited name is a field in the browser only. -/
theorem InheritedKey.spec (hascii : ∀ b ∈ tok, b < 0x80) (h : InheritedKey tok) :
    (∃ e, SearchQL.parseToken U tok = .error e) ∧ ∃ j, parseToken tok = .ok j := by
  obtain ⟨neg, key, value, v, hk, hv, hmem⟩ := h
  have hf := lookup_inherited hmem
  constructor
  · rw [hk.parseToken_go hascii, hf]
    simp only [not_header_of_inherited hmem, Bool.false_eq_true, if_false]
    exact ⟨_, rfl⟩
  · refine ⟨JSTerm.make (.object (key.map lowerByte)) v neg, ?_⟩
    rw [hk.parseToken_js, parseKeyed, knownField_eq, parseValue_mirror, hf]
    simp [hmem, hv, structuredField, finishTerm, JSTerm.make]

/-- A structured field whose value has no wildcard goes to the last part of both parsers. -/
theorem Keyed.structured (hk : Keyed tok neg key value) (hascii : ∀ b ∈ tok, b < 0x80) {f : Field}
    (hf : knownFields.lookup (key.map lowerByte) = some f)
    (hv : SearchQL.parseValue value = .ok v) (hw : v.2.1 = .wildcardNone) :
    SearchQL.parseToken U tok = SearchQL.finishTerm U tok (Term.make f v neg) ∧
      parseToken tok = finishTerm tok (JSTerm.make (.text (fieldName f)) v neg) := by
  constructor
  · rw [hk.parseToken_go hascii, hf]
    simp [hv, hw]
  · rw [hk.parseToken_js, parseKeyed, knownField_eq, parseValue_mirror, hf]
    simp [hv, hw]

/-- A status with a plus sign is a number on the server only. -/
theorem SignedStatus.spec (hascii : ∀ b ∈ tok, b < 0x80) (h : SignedStatus tok) :
    (∃ t, SearchQL.parseToken U tok = .ok t) ∧ ∃ e, parseToken tok = .error e := by
  obtain ⟨neg, key, value, v, hk, hv, hname, hw, digits, n, hdig, hn, hlo, hhi⟩ := h
  have hf : knownFields.lookup (key.map lowerByte) = some .status := by rw [hname]; rfl
  obtain ⟨hgo, hjs⟩ := hk.structured (U := U) hascii hf hv hw
  have hcls : ¬ (v.1.length = 3 ∧ v.1.getD 1 0 = 0x78 ∧ v.1.getD 2 0 = 0x78 ∧ 0x31 ≤ v.1.getD 0 0 ∧
      v.1.getD 0 0 ≤ 0x35) := by
    rw [hdig]
    rintro ⟨-, -, -, h, -⟩
    exact absurd h (by decide : ¬ (0x31 : UInt8) ≤ 0x2B)
  have hatoi : atoi v.1 = some (n : ℤ) := by
    rw [hdig, atoi, hn, Option.map_some, Option.filter_some, if_pos (decide_eq_true (by omega))]
  have hst : SearchQL.parseStatusValue v.1 = .ok ⟨n, []⟩ := by
    rw [SearchQL.parseStatusValue, if_neg hcls, hatoi]
    exact if_neg (by omega)
  have hst' : parseStatusValue v.1 = .error .badStatus := by
    rw [parseStatusValue, if_neg hcls, hdig, decimal_sign (by decide)]
  refine ⟨⟨{ Term.make .status v neg with statusFilter := some ⟨n, []⟩ }, ?_⟩,
    ⟨tok, .badStatus⟩, ?_⟩
  · rw [hgo, SearchQL.finishTerm]
    simp only [Term.make, hst]
  · rw [hjs]
    change (match parseStatusValue v.1 with
      | .error m => (.error ⟨tok, m⟩ : Except ParseError JSTerm)
      | .ok sf => .ok { JSTerm.make (.text (str "status")) v neg with statusFilter := some sf }) = _
    rw [hst']

/-- The value of a flag with a capital is kept by the server and not by the browser. -/
theorem CapitalFlag.spec (hascii : ∀ b ∈ tok, b < 0x80) (h : CapitalFlag tok) :
    ∃ t j, SearchQL.parseToken U tok = .ok t ∧ parseToken tok = .ok j ∧ ¬ MirrorTerm t j := by
  obtain ⟨neg, key, value, v, hk, hv, hname, hw, hval, hne⟩ := h
  have hf : knownFields.lookup (key.map lowerByte) = some .hasEvents := by rw [hname]; rfl
  obtain ⟨hgo, hjs⟩ := hk.structured (U := U) hascii hf hv hw
  have hvascii : ∀ b ∈ v.1, b < 0x80 := by
    intro b hb
    have := parseValue_subset hv hb
    exact hascii b (by simp [hk.text, this])
  have hlow : toLower U v.1 = v.1.map lowerByte := Caseless.toLower_eq (caseless_of_ascii U hvascii)
  obtain ⟨b, hfin⟩ : ∃ b, SearchQL.finishTerm U tok (Term.make .hasEvents v neg) =
      .ok { Term.make .hasEvents v neg with hasEvents := some b } := by
    change ∃ b, (if toLower U v.1 = str "true" then _ else if toLower U v.1 = str "false" then _
      else _) = _
    rw [hlow]
    simp only [List.mem_cons, List.not_mem_nil, or_false] at hval
    rcases hval with h | h
    · exact ⟨true, if_pos h⟩
    · exact ⟨false, (if_neg (by rw [h]; decide)).trans (if_pos h)⟩
  refine ⟨_, { JSTerm.make (.text (str "has_events")) v neg with value := v.1.map lowerByte },
    hgo.trans hfin, ?_, ?_⟩
  · rw [hjs]
    change (if v.1.map lowerByte ≠ str "true" ∧ v.1.map lowerByte ≠ str "false" then _ else _) = _
    rw [if_neg (by simpa [or_iff_not_imp_left] using hval)]
    rfl
  · intro hm
    exact hne hm.value

/-- A header name that the server leaves alone is put in canonical case by the browser. -/
theorem OddHeader.spec (hascii : ∀ b ∈ tok, b < 0x80) (h : OddHeader tok) :
    ∃ t j, SearchQL.parseToken U tok = .ok t ∧ parseToken tok = .ok j ∧ ¬ MirrorTerm t j := by
  obtain ⟨neg, key, value, v, hk, hv, hh, hstar, hvalid, hne⟩ := h
  have hname : key.drop 7 ≠ [] := by
    intro h0
    rw [h0] at hvalid
    exact hvalid rfl
  have hf : knownFields.lookup (key.map lowerByte) = none := by
    cases hf : knownFields.lookup (key.map lowerByte) with
    | none => rfl
    | some f =>
      obtain ⟨hkey, -, -⟩ := lookup_knownFields hf
      rw [hkey] at hh
      cases f <;> exact absurd hh (by decide)
  have hinh : key.map lowerByte ∉ inheritedNames := by
    intro hmem
    have := not_header_of_inherited hmem
    rw [(hasPrefix_iff _ _).mpr hh] at this
    cases this
  refine ⟨{ Term.make .header v neg with headerName := key.drop 7 },
    { JSTerm.make (.text (str "header")) v neg with headerName := canonicalFrom true (key.drop 7) },
    ?_, ?_, ?_⟩
  · rw [hk.parseToken_go hascii, hf]
    simp only [(hasPrefix_iff _ _).mpr hh, if_true]
    rw [SearchQL.parseHeaderTerm]
    change (if key.drop 7 = [] then _ else if (key.drop 7).contains 0x2A = true then _ else _) = _
    rw [if_neg hname, if_neg (by simpa using hstar), hv]
    simp only [show (str "header.").length = 7 from rfl, canonicalMIMEHeaderKey, if_neg hvalid]
  · rw [hk.parseToken_js, parseKeyed, knownField_eq, hf]
    simp only [if_neg hinh, if_pos hh]
    rw [parseHeaderTerm, parseValue_mirror, hv]
    change (if key.drop 7 = [] then _ else if 0x2A ∈ key.drop 7 then _ else _) = _
    rw [if_neg hname, if_neg hstar]
    simp only [show (str "header.").length = 7 from rfl, canonicalHeaderName,
      canonicalHeaderNameFrom_eq]
  · intro hm
    exact hne hm.headerName

/-- **The tokens that are read alike.** -/
theorem parseToken_mirror_iff (hascii : ∀ b ∈ tok, b < 0x80) :
    MirrorResult (SearchQL.parseToken U tok) (parseToken tok) ↔ ¬ Diverges tok := by
  refine ⟨?_, parseToken_mirror hascii⟩
  rintro (⟨e, e', hgo, hjs⟩ | ⟨t, j, hgo, hjs, hm⟩) (h | h | h | h)
  · obtain ⟨-, j, hj⟩ := h.spec (U := U) hascii
    simp [hjs] at hj
  · obtain ⟨⟨t, ht⟩, -⟩ := h.spec (U := U) hascii
    simp [hgo] at ht
  · obtain ⟨t, -, ht, -⟩ := h.spec (U := U) hascii
    simp [hgo] at ht
  · obtain ⟨t, -, ht, -⟩ := h.spec (U := U) hascii
    simp [hgo] at ht
  · obtain ⟨⟨e, he⟩, -⟩ := h.spec (U := U) hascii
    simp [hgo] at he
  · obtain ⟨-, e, he⟩ := h.spec (U := U) hascii
    simp [hjs] at he
  · obtain ⟨t', j', ht, hj, hne⟩ := h.spec (U := U) hascii
    rw [hgo] at ht
    rw [hjs] at hj
    cases ht
    cases hj
    exact hne hm
  · obtain ⟨t', j', ht, hj, hne⟩ := h.spec (U := U) hascii
    rw [hgo] at ht
    rw [hjs] at hj
    cases ht
    cases hj
    exact hne hm

/-! ### Queries -/

/-- The server rejects the token, and not because of an inherited name. -/
def Malformed (U : Unicode) (tok : GoString) : Prop :=
  (∃ e, SearchQL.parseToken U tok = .error e) ∧ ¬ InheritedKey tok

/-- The parsers agree on the text: both report an error, or both give terms that are equal one
by one, and then they agree on the warning. -/
def Mirrors (U : Unicode) (s : GoString) : Prop :=
  match parse U s, parseQuery s with
  | .error _, .error _ => True
  | .ok q, .ok terms =>
    List.Forall₂ MirrorTerm q.terms terms ∧ q.isUnindexedScan = isUnindexedScan terms
  | _, _ => False

/-- A list of tokens is rejected for one of them, or all are parsed. -/
theorem mapM_cases {α β ε : Type} (f : α → Except ε β) (xs : List α) :
    (∃ e, xs.mapM f = .error e ∧ ∃ x ∈ xs, ∃ e', f x = .error e') ∨
      ∃ ys, xs.mapM f = .ok ys ∧ List.Forall₂ (fun x y => f x = .ok y) xs ys := by
  induction xs with
  | nil => exact .inr ⟨[], rfl, .nil⟩
  | cons x xs ih =>
    rw [List.mapM_cons]
    cases hx : f x with
    | error e => exact .inl ⟨e, rfl, x, List.mem_cons_self, e, hx⟩
    | ok y =>
      rcases ih with ⟨e, he, x', hx', herr⟩ | ⟨ys, hys, hall⟩
      · exact .inl ⟨e, by rw [he]; rfl, x', List.mem_cons_of_mem x hx', herr⟩
      · exact .inr ⟨y :: ys, by rw [hys]; rfl, .cons hx hall⟩

theorem not_error_of_forall₂ {α β ε : Type} {f : α → Except ε β} {xs : List α} {ys : List β}
    (h : List.Forall₂ (fun x y => f x = .ok y) xs ys) {x : α} (hx : x ∈ xs) :
    ¬ ∃ e, f x = .error e := by
  rintro ⟨e, he⟩
  induction h with
  | nil => cases hx
  | cons hy _ ih =>
    rcases List.mem_cons.mp hx with rfl | hx
    · simp [hy] at he
    · exact ih hx

/-- The warning is a function of what the terms have in common. -/
theorem isUnindexedScan_mirror {ts : List Term} {js : List JSTerm}
    (h : List.Forall₂ MirrorTerm ts js) :
    Query.isUnindexedScan ⟨ts⟩ = isUnindexedScan js := by
  rw [Query.isUnindexedScan, isUnindexedScan]
  induction h with
  | nil => rfl
  | @cons t j ts js ht _ ih =>
    have hfree : (decide (j.field = .text [])) = decide (t.field = .freeform) := by
      rw [ht.field]
      cases t.field <;> rfl
    rw [List.any_cons, List.any_cons, ih, ht.wildcard, hfree, ht.field, indexedField_fieldName]

/-- Terms that were read from the same tokens and are equal one by one. -/
theorem forall₂_mirror {toks : List GoString} {ts : List Term} {js : List JSTerm}
    (hgo : List.Forall₂ (fun tok t => SearchQL.parseToken U tok = .ok t) toks ts)
    (hjs : List.Forall₂ (fun tok j => parseToken tok = .ok j) toks js) :
    List.Forall₂ MirrorTerm ts js ↔
      ∀ tok ∈ toks, MirrorResult (SearchQL.parseToken U tok) (parseToken tok) := by
  induction hgo generalizing js with
  | nil =>
    cases hjs
    simp
  | @cons tok t toks ts ht _ ih =>
    obtain _ | ⟨hj, hjs⟩ := hjs
    rw [List.forall₂_cons, List.forall_mem_cons, ih hjs, ht, hj]
    simp [MirrorResult]

end Keys

/-- What the browser rejects, the server does too, but for a signed status. -/
theorem malformed_or_signed {U : Unicode} {tok : GoString} (hascii : ∀ b ∈ tok, b < 0x80) :
    (∃ e, parseToken tok = .error e) ↔ Malformed U tok ∨ SignedStatus tok := by
  by_cases hd : Diverges tok
  · constructor
    · rintro ⟨e, he⟩
      rcases hd with h | h | h | h
      · obtain ⟨-, j, hj⟩ := h.spec (U := U) hascii
        simp [he] at hj
      · exact .inr h
      all_goals
        obtain ⟨-, j, -, hj, -⟩ := h.spec (U := U) hascii
        simp [he] at hj
    · rintro (⟨⟨e, he⟩, hinh⟩ | h)
      · rcases hd with h | h | h | h
        · exact absurd h hinh
        · exact (h.spec (U := U) hascii).2
        all_goals
          obtain ⟨t, -, ht, -⟩ := h.spec (U := U) hascii
          simp [he] at ht
      · exact (h.spec (U := U) hascii).2
  · have hs : ¬ SignedStatus tok := fun h => hd (.inr (.inl h))
    have hi : ¬ InheritedKey tok := fun h => hd (.inl h)
    rcases parseToken_mirror (U := U) hascii hd with ⟨e, e', hgo, hjs⟩ | ⟨t, j, hgo, hjs, -⟩
    · simp [Malformed, hgo, hjs, hi]
    · simp [Malformed, hgo, hjs, hs]

/-- What the server rejects, the browser does too, but for an inherited name. -/
theorem malformed_or_inherited {U : Unicode} {tok : GoString} (hascii : ∀ b ∈ tok, b < 0x80) :
    (∃ e, SearchQL.parseToken U tok = .error e) ↔ Malformed U tok ∨ InheritedKey tok := by
  by_cases h : InheritedKey tok
  · exact iff_of_true (h.spec hascii).1 (.inr h)
  · simp [Malformed, h]

/-- **The parser in the browser mirrors the parser of the server** on an ASCII text exactly when
the text is not cut into tokens, or no token is of one of the four kinds, or both parsers report
an error after all: because some token is malformed, or because one has an inherited name as its
key and another a signed status. -/
theorem parseQuery_mirrors (U : Unicode) (s : GoString) (hascii : ∀ b ∈ s, b < 0x80) :
    Mirrors U s ↔ ∀ toks, SearchQL.tokenize s = .ok toks →
      (∀ tok ∈ toks, ¬ Diverges tok) ∨ (∃ tok ∈ toks, Malformed U tok) ∨
        ((∃ tok ∈ toks, InheritedKey tok) ∧ ∃ tok ∈ toks, SignedStatus tok) := by
  rw [Mirrors, parse, parseQuery, tokenize_mirror]
  cases htoks : SearchQL.tokenize s with
  | error e => simp
  | ok toks =>
    have hasc : ∀ tok ∈ toks, ∀ b ∈ tok, b < 0x80 :=
      fun tok htok b hb => hascii b (tokenize_subset htoks tok htok hb)
    simp only [Except.ok.injEq, forall_eq']
    rcases mapM_cases (SearchQL.parseToken U) toks with ⟨e, hgo, tok₁, htok₁, he₁⟩ | ⟨ts, hgo, hts⟩
    · have hmal := (malformed_or_inherited (hasc tok₁ htok₁)).mp he₁
      rcases mapM_cases parseToken toks with ⟨e', hjs, tok₂, htok₂, he₂⟩ | ⟨js, hjs, hjs₂⟩
      · -- both reject
        rw [hgo, hjs]
        refine iff_of_true trivial (.inr ?_)
        rcases hmal with hm | hinh
        · exact .inl ⟨tok₁, htok₁, hm⟩
        · rcases (malformed_or_signed (U := U) (hasc tok₂ htok₂)).mp he₂ with hm | hs
          · exact .inl ⟨tok₂, htok₂, hm⟩
          · exact .inr ⟨⟨tok₁, htok₁, hinh⟩, tok₂, htok₂, hs⟩
      · -- the browser alone accepts, because of an inherited name
        rw [hgo, hjs]
        have hno : ∀ tok ∈ toks, ¬ Malformed U tok ∧ ¬ SignedStatus tok := fun tok htok =>
          not_or.mp (mt (malformed_or_signed (hasc tok htok)).mpr (not_error_of_forall₂ hjs₂ htok))
        refine iff_of_false id ?_
        rintro (hd | ⟨tok, htok, hm⟩ | ⟨-, tok, htok, hs⟩)
        · rcases hmal with hm | hinh
          · exact (hno tok₁ htok₁).1 hm
          · exact hd tok₁ htok₁ (.inl hinh)
        · exact (hno tok htok).1 hm
        · exact (hno tok htok).2 hs
    · have hno : ∀ tok ∈ toks, ¬ Malformed U tok ∧ ¬ InheritedKey tok := fun tok htok =>
        not_or.mp (mt (malformed_or_inherited (hasc tok htok)).mpr (not_error_of_forall₂ hts htok))
      rcases mapM_cases parseToken toks with ⟨e', hjs, tok₂, htok₂, he₂⟩ | ⟨js, hjs, hjs₂⟩
      · -- the server alone accepts, because of a sign
        rw [hgo, hjs]
        have hs₂ : SignedStatus tok₂ :=
          ((malformed_or_signed (U := U) (hasc tok₂ htok₂)).mp he₂).resolve_left (hno tok₂ htok₂).1
        refine iff_of_false id ?_
        rintro (hd | ⟨tok, htok, hm⟩ | ⟨⟨tok, htok, hinh⟩, -⟩)
        · exact hd tok₂ htok₂ (.inr (.inl hs₂))
        · exact (hno tok htok).1 hm
        · exact (hno tok htok).2 hinh
      · -- both accept
        rw [hgo, hjs]
        change List.Forall₂ MirrorTerm ts js ∧ Query.isUnindexedScan ⟨ts⟩ = isUnindexedScan js ↔ _
        rw [and_iff_left_of_imp isUnindexedScan_mirror, forall₂_mirror hts hjs₂]
        constructor
        · exact fun h => .inl fun tok htok => (parseToken_mirror_iff (hasc tok htok)).mp
            (h tok htok)
        · rintro (hd | ⟨tok, htok, hm⟩ | ⟨⟨tok, htok, hinh⟩, -⟩)
          · exact fun tok htok => (parseToken_mirror_iff (hasc tok htok)).mpr (hd tok htok)
          · exact absurd hm (hno tok htok).1
          · exact absurd hinh (hno tok htok).2

/-- One key and value. -/
theorem parseQuery_mirrors_host : Mirrors .asciiOnly (str "host:a") := by
  have hascii : ∀ b ∈ str "host:a", b < 0x80 := fun b hb =>
    of_decide_eq_true (List.all_eq_true.mp (show (str "host:a").all (fun b => decide (b < 0x80)) =
      true from rfl) b hb)
  have htokens : SearchQL.tokenize (str "host:a") = .ok [str "host:a"] := rfl
  refine (parseQuery_mirrors .asciiOnly (str "host:a") hascii).mpr fun toks htoks => .inl ?_
  obtain rfl : [str "host:a"] = toks := Except.ok.inj (htokens.symm.trans htoks)
  intro tok htok
  obtain rfl := List.mem_singleton.mp htok
  exact (parseToken_mirror_iff (U := .asciiOnly) hascii).mp
    (.inr ⟨_, _, rfl, rfl, rfl, rfl, rfl, rfl, rfl, rfl, rfl⟩)

/-- `status:+200` is a query on the server and an error in the browser. -/
theorem parseQuery_not_mirrors_sign : ¬ Mirrors .asciiOnly (str "status:+200") := by
  have hgo : ∃ q, parse .asciiOnly (str "status:+200") = .ok q := ⟨_, rfl⟩
  have hjs : ∃ e, parseQuery (str "status:+200") = .error e := ⟨_, rfl⟩
  obtain ⟨q, hq⟩ := hgo
  obtain ⟨e, he⟩ := hjs
  rw [Mirrors, hq, he]
  exact id

end HttpCatch.Admin.Browser
