import HttpCatch.Admin.Browser
import HttpCatch.Library.UrlEncoded

/-!
# Saved views

A saved view is a URL query in the browser's storage. Views from before the search language have
one parameter per field; `migrateSavedView` writes them as text at the end of `q`, and only looks
whether the result parses. The values are not quoted, so white space in one of them makes more
terms of it, and an open quote makes fewer.

The parser is the one of `HttpCatch.Admin.Browser`. There the value of a method is taken to be
ASCII; here it is any text (`parseMethodTerm`), since a saved value is. The case tables are those
of `toUpperCase`, in which one character may have several in upper case.

* `Carries` — a term says what a parameter said.
* `Preserves` — the new query is the old one and a term for each parameter.
* `migrateSavedView_preserves` — this is so exactly when the quotes of the old `q` are closed and
  each parameter is a token by itself (`Spliceable`).
* `loadSaved_settles` — views that were loaded once are left alone.
-/

namespace HttpCatch.Admin.SavedViews

open HttpCatch.Go HttpCatch.SearchQL HttpCatch.Admin.Browser HttpCatch.Url

variable (U : Unicode)

/-! ### The parser -/

/-- `String.prototype.toUpperCase`, character by character. -/
def toUpperCase (s : GoString) : GoString := toUpper U s

/-- `parseToken` for a method, from where the key and the value are known. -/
def parseMethodTerm (raw key valueRaw : GoString) (negated : Bool) : Except ParseError JSTerm :=
  match Browser.parseValue valueRaw with
  | .error m => .error ⟨raw, m⟩
  | .ok v =>
    if v.2.1 ≠ .wildcardNone then .error ⟨raw, .wildcardOnField key⟩
    else if canonicalMethod (toUpperCase U v.1) then
      .ok { JSTerm.make (.text (str "method")) v negated with value := toUpperCase U v.1 }
    else .error ⟨raw, .unknownMethod v.1⟩

/-- `parseToken` from where the key and the value are known. -/
def parseKeyed (raw key valueRaw : GoString) (negated : Bool) : Except ParseError JSTerm :=
  if key.map lowerByte = str "method" then parseMethodTerm U raw key valueRaw negated
  else Browser.parseKeyed raw key valueRaw negated

/-- `parseToken` after the leading `-` is taken off. -/
def parseBody (raw tok : GoString) (negated : Bool) : Except ParseError JSTerm :=
  match if tok.head? = some 0x22 then none else indexByte tok 0x3A with
  | none =>
    match Browser.parseValue tok with
    | .error m => .error ⟨raw, m⟩
    | .ok v => .ok (JSTerm.make (.text []) v negated)
  | some idx =>
    if idx = 0 then .error ⟨raw, .noKey⟩
    else if tok.drop (idx + 1) = [] then .error ⟨raw, .emptyValue⟩
    else parseKeyed U raw (tok.take idx) (tok.drop (idx + 1)) negated

/-- `parseToken`. -/
def parseToken (raw : GoString) : Except ParseError JSTerm :=
  if raw.head? = some 0x2D then
    if raw.drop 1 = [] then .error ⟨raw, .bareMinus⟩ else parseBody U raw (raw.drop 1) true
  else parseBody U raw raw false

/-- `parseQuery`. -/
def parseQuery (s : GoString) : Except ParseError (List JSTerm) :=
  match Browser.tokenize s with
  | .error e => .error e
  | .ok tokens => tokens.mapM (parseToken U)

-- the ligature of `st` has two letters in upper case
example : (parseToken ⟨id, fun bs => if bs = [0xEF, 0xAC, 0x86] then str "ST" else bs⟩
    (str "method:po" ++ [0xEF, 0xAC, 0x86])).map JSTerm.value = .ok (str "POST") := by decide

/-! ### Views -/

/-- A saved view. -/
structure SavedView where
  name : GoString
  query : GoString
  deriving DecidableEq

/-- `PRE_CUTOVER_FIELD_KEYS`. -/
def fieldKeys : List GoString :=
  [str "service", str "host", str "path", str "method", str "status", str "source_ip",
    str "correlation_id", str "body", str "headers"]

/-- `TEMPORAL_PARAMS`. -/
def temporalParams : List GoString := [str "since", str "until", str "limit", str "live"]

/-- The parameter was for a field. -/
def isFieldKey (k : GoString) : Bool := k ∈ fieldKeys || hasPrefix k (str "header.")

/-- `PRE_CUTOVER_FIELD_KEYS[k] || k.indexOf("header.") === 0`; an object also has the properties it
inherits. -/
def isPreCutover (k : GoString) : Bool := isFieldKey k || k ∈ objectPrototype

/-- `new URLSearchParams(query)`. -/
def searchParams (query : GoString) : List (GoString × GoString) :=
  Url.parseQuery (if query.head? = some 0x3F then query.drop 1 else query)

/-- `oldTokens`, as entries. -/
def oldParams (query : GoString) : List (GoString × GoString) :=
  (searchParams query).filter fun e => isPreCutover e.1

/-- An entry as it is written into `q`. -/
def oldToken (entry : GoString × GoString) : GoString := entry.1 ++ 0x3A :: entry.2

/-- `params.get(name) || ""`. -/
def param (query name : GoString) : GoString := (getParam (searchParams query) name).getD []

/-- `merged`. -/
def merged (query : GoString) : GoString :=
  join ((if param query (str "q") = [] then [] else [param query (str "q")]) ++
    (oldParams query).map oldToken) 0x20

/-- One round of the loop over `TEMPORAL_PARAMS`. -/
def copyParam (query : GoString) (next : List (GoString × GoString)) (name : GoString) :
    List (GoString × GoString) :=
  if param query name = [] then next else setParam name (param query name) next

/-- `next`. -/
def nextParams (query : GoString) : List (GoString × GoString) :=
  setParam (str "q") (merged query) (temporalParams.foldl (copyParam query) [])

/-- `migrateSavedView`; what is stored is no view when it is no object with a text as its query.
The page loads `searchql.js` before the script that calls it. -/
def migrateSavedView : Option SavedView → Option SavedView
  | none => none
  | some view =>
    if oldParams view.query = [] then some view
    else
      match parseQuery U (merged view.query) with
      | .error _ => none
      | .ok _ => some ⟨view.name, serialize (nextParams view.query)⟩

/-- `loadSaved`, from where the storage is read: the views, and whether they are stored again. -/
def loadSaved (stored : List (Option SavedView)) : List SavedView × Bool :=
  (stored.filterMap (migrateSavedView U), stored.any fun v =>
    (migrateSavedView U v).isNone || v.any fun view => oldParams view.query ≠ [])

/-! ### What a view means -/

/-- The field parameters of a view. -/
def fieldParams (query : GoString) : List (GoString × GoString) :=
  (searchParams query).filter fun e => isFieldKey e.1

/-- A term says what a parameter said: it is on the field of the parameter and has the whole value,
without the quotes or stars around it; a method is in upper case, and a status is read. -/
structure Carries (entry : GoString × GoString) (t : JSTerm) : Prop where
  field : entry.1 ∈ fieldKeys ∧ t.field = .text entry.1 ∧ t.headerName = [] ∨
    ∃ name, entry.1 = str "header." ++ name ∧ t.field = .text (str "header") ∧
      t.headerName = canonicalHeaderName name
  negated : t.negated = false
  value : ∃ text, Browser.parseValue entry.2 = .ok (text, t.wildcard, t.quoted) ∧
    t.value = if entry.1 = str "method" then toUpperCase U text else text
  status : t.statusFilter =
    if entry.1 = str "status" then (Browser.parseStatusValue t.value).toOption else none

/-- The new view means what the old one meant. -/
structure Preserves (view view' : SavedView) : Prop where
  name : view'.name = view.name
  query : ∃ terms added, parseQuery U (param view.query (str "q")) = .ok terms ∧
    parseQuery U (param view'.query (str "q")) = .ok (terms ++ added) ∧
      List.Forall₂ (Carries U) (fieldParams view.query) added
  temporal : ∀ name ∈ temporalParams, param view'.query name = param view.query name

/-- The parameters can be written at the end of `q`: no quote is open there, each parameter is one
token, with its key up to the first colon, and none is only taken for a field. -/
structure Spliceable (query : GoString) : Prop where
  q : quoteOpen (param query (str "q")) = false
  params : ∀ e ∈ oldParams query, isFieldKey e.1 = true ∧ 0x3A ∉ e.1 ∧ IsToken (oldToken e)

instance (s : GoString) : Decidable (IsToken s) :=
  inferInstanceAs (Decidable (s ≠ [] ∧ QuoteState.outside.read s = some .outside))

instance (query : GoString) : Decidable (Spliceable query) :=
  decidable_of_iff (quoteOpen (param query (str "q")) = false ∧
    ∀ e ∈ oldParams query, isFieldKey e.1 = true ∧ 0x3A ∉ e.1 ∧ IsToken (oldToken e))
    ⟨fun h => ⟨h.1, h.2⟩, fun h => ⟨h.q, h.params⟩⟩

variable {U}

/-! ### Values -/

section Values

variable {a b : GoString} {c : UInt8} {v : GoString × Wildcard × Bool}

/-- A quote that comes after a text is not lost when its escapes are taken off. -/
theorem unescapeQuotes_append_ne (a b : GoString) :
    unescapeQuotes (a ++ 0x22 :: b) ≠ unescapeQuotes a := by
  induction a with
  | nil => simp [unescapeQuotes]
  | cons x a ih =>
    cases a with
    | nil =>
      -- a backslash would be taken off only with the quote that comes after it
      by_cases hx : x = 0x5C
      · subst hx
        simp [unescapeQuotes]
      · simp [unescapeQuotes, hx]
    | cons y a =>
      rw [List.cons_append, unescapeQuotes, List.cons_append, List.head?_cons, ← List.cons_append,
        unescapeQuotes.eq_2 x (y :: a), List.head?_cons]
      split_ifs
      · exact ih
      · exact fun h => ih (List.cons.inj h).2

/-- A text that goes on does not have the same value. -/
theorem parseValue_append_ne (h : SearchQL.parseValue a = .ok v) (hc : isASCIISpace c = true) :
    SearchQL.parseValue (a ++ c :: b) ≠ .ok v := by
  have hstar : c ≠ 0x2A := by
    rintro rfl
    cases hc
  intro h'
  rcases parseValue_cases h with ⟨inner, rfl, rfl⟩ | ⟨l, t, text, rfl, -, rfl⟩
  · rcases parseValue_cases h' with ⟨inner', heq, hv⟩ | ⟨l', t', text', -, -, hv⟩
    · have hinner : inner' = inner ++ 0x22 :: (c :: b).dropLast := by
        rw [List.cons_append, List.cons.injEq] at heq
        have hlast : (inner' ++ [0x22]).dropLast = inner' := List.dropLast_concat
        rw [← hlast, ← heq.2]
        simp
      rw [hinner] at hv
      exact unescapeQuotes_append_ne inner _ (Prod.mk.inj hv).1.symm
    · simp at hv
  · rcases parseValue_cases h' with ⟨inner', -, hv⟩ | ⟨l', t', text', heq, -, hv⟩
    · simp at hv
    · -- the wildcard says which stars there are, but for one at the end after one at the start
      obtain ⟨rfl, hw⟩ : text' = text ∧ starredWildcard l t = starredWildcard l' t' := by
        simpa [eq_comm] using hv
      have hlen := congrArg List.length heq
      cases l <;> cases l' <;> cases t <;> cases t' <;>
        simp [starredWildcard, starred] at hw hlen heq
      · exact hstar heq.1

/-- What an ASCII space is not. -/
theorem space_plain (hc : isASCIISpace c = true) :
    c ≠ 0x22 ∧ c ≠ 0x5C ∧ c ≠ 0x2A ∧ c < 0x80 ∧ upperByte c = c := by
  revert c
  decide +kernel

theorem mem_unescapeQuotes {s : GoString} (hc : c ≠ 0x5C) (h : c ∈ s) : c ∈ unescapeQuotes s := by
  induction s with
  | nil => cases h
  | cons x s ih =>
    rw [unescapeQuotes]
    rcases List.mem_cons.mp h with rfl | h
    · rw [if_neg (by simp [hc])]
      exact List.mem_cons_self
    · split_ifs
      · exact ih h
      · exact List.mem_cons_of_mem _ (ih h)

/-- White space in a text is in its value. -/
theorem space_mem_value {raw : GoString} (h : SearchQL.parseValue raw = .ok v)
    (hc : isASCIISpace c = true) (hmem : c ∈ raw) : c ∈ v.1 := by
  obtain ⟨hquote, hescape, hstar, -, -⟩ := space_plain hc
  rcases parseValue_cases h with ⟨inner, rfl, rfl⟩ | ⟨l, t, text, rfl, -, rfl⟩
  · have hinner : c ∈ inner := by simpa [hquote] using hmem
    exact mem_unescapeQuotes hescape hinner
  · cases l <;> cases t <;> simpa [starred, hstar] using hmem

/-- White space in a text is in its upper case. -/
theorem space_mem_toUpperCase {s : GoString} (hc : isASCIISpace c = true) (h : c ∈ s) :
    c ∈ toUpperCase U s := by
  obtain ⟨-, -, -, hascii, hupper⟩ := space_plain hc
  rw [← pieces_flatten s] at h
  obtain ⟨p, hp, hmem⟩ := List.mem_flatMap.mp h
  refine List.mem_flatMap.mpr ⟨p, hp, ?_⟩
  cases p with
  | ascii b =>
    obtain rfl := List.mem_singleton.mp hmem
    rw [Piece.upper, hupper]
    exact hmem
  | multi bs => exact absurd (multi_bytes_ge hp c hmem) (UInt8.not_le.mpr hascii)
  | bad b =>
    obtain rfl := List.mem_singleton.mp hmem
    exact absurd (bad_ge hp) (UInt8.not_le.mpr hascii)

end Values

/-! ### Terms of tokens -/

section Terms

variable {raw key value : GoString} {t : JSTerm}

/-- A token without a colon is on no field. -/
theorem parseToken_bare (hm : raw.head? ≠ some 0x2D) (hc : 0x3A ∉ raw)
    (h : parseToken U raw = .ok t) : t.field = .text [] := by
  have hnone : (if raw.head? = some 0x22 then none else indexByte raw 0x3A) = none := by
    rw [indexByte_eq_none hc, ite_self]
  rw [parseToken, if_neg hm, parseBody, hnone] at h
  simp only at h
  split at h
  · cases h
  · obtain rfl := Except.ok.inj h
    rfl

/-- A token with a key. -/
theorem parseToken_colon (hne : key ≠ []) (hm : key.head? ≠ some 0x2D)
    (hq : key.head? ≠ some 0x22) (hc : 0x3A ∉ key) :
    parseToken U (key ++ 0x3A :: value) =
      if value = [] then .error ⟨key ++ 0x3A :: value, .emptyValue⟩
      else parseKeyed U (key ++ 0x3A :: value) key value false := by
  have hhead : (key ++ 0x3A :: value).head? = key.head? := by
    obtain ⟨x, key, rfl⟩ := List.exists_cons_of_ne_nil hne
    rfl
  have hdrop : (key ++ 0x3A :: value).drop (key.length + 1) = value := by
    rw [List.drop_append, List.drop_of_length_le (Nat.le_succ _)]
    simp
  rw [parseToken, hhead, if_neg hm, parseBody, hhead, if_neg hq, indexByte_append hc]
  simp only [List.take_left, hdrop, List.length_eq_zero_iff, if_neg hne]

/-- The method term, when there is one. -/
theorem parseMethodTerm_ok (h : parseMethodTerm U raw key value false = .ok t) :
    ∃ v, Browser.parseValue value = .ok v ∧ v.2.1 = .wildcardNone ∧
      canonicalMethod (toUpperCase U v.1) = true ∧
      t = { JSTerm.make (.text (str "method")) v false with value := toUpperCase U v.1 } := by
  rw [parseMethodTerm] at h
  split at h
  · cases h
  · next v hv =>
    split_ifs at h with hw hcan
    exact ⟨v, hv, not_not.mp hw, hcan, (Except.ok.inj h).symm⟩

/-- The header term, when there is one. -/
theorem parseHeaderTerm_ok (h : Browser.parseHeaderTerm raw key value false = .ok t) :
    ∃ v, Browser.parseValue value = .ok v ∧
      t = { JSTerm.make (.text (str "header")) v false with
        headerName := canonicalHeaderName (key.drop 7) } := by
  rw [Browser.parseHeaderTerm] at h
  split_ifs at h
  split at h
  · cases h
  · next v hv => exact ⟨v, hv, (Except.ok.inj h).symm⟩

/-- The last part of `parseToken`, for a field that is neither the method nor the flag. -/
theorem finishTerm_ok (hmethod : t.field ≠ .text (str "method"))
    (hflag : t.field ≠ .text (str "has_events")) {t' : JSTerm}
    (h : Browser.finishTerm raw t = .ok t') :
    t' = { t with statusFilter :=
      if t.field = .text (str "status") then (Browser.parseStatusValue t.value).toOption
      else t.statusFilter } := by
  rw [Browser.finishTerm, if_neg hmethod, if_neg hflag] at h
  split_ifs at h ⊢ with hstatus
  · split at h
    · cases h
    · next sf hsf =>
      rw [hsf, ← Except.ok.inj h]
      rfl
  · rw [← Except.ok.inj h]

theorem finishTerm_field {t' : JSTerm} (h : Browser.finishTerm raw t = .ok t') :
    t'.field = t.field := by
  simp only [Browser.finishTerm] at h
  split_ifs at h
  · rw [← Except.ok.inj h]
  · split at h
    · cases h
    · rw [← Except.ok.inj h]
  · rw [← Except.ok.inj h]
  · rw [← Except.ok.inj h]

/-- The terms that a key may have. -/
theorem parseKeyed_field (h : parseKeyed U raw key value false = .ok t) :
    (t.field = .text (key.map lowerByte) ∧ key.map lowerByte ∈ knownFieldNames) ∨
      t.field = .object (key.map lowerByte) ∨
      (str "header." <+: key.map lowerByte ∧ t.field = .text (str "header") ∧
        t.headerName = canonicalHeaderName (key.drop 7)) := by
  rw [parseKeyed] at h
  split_ifs at h with hmethod
  · obtain ⟨v, -, -, -, rfl⟩ := parseMethodTerm_ok h
    rw [hmethod]
    exact .inl ⟨rfl, by decide⟩
  · rw [Browser.parseKeyed] at h
    split at h
    · split_ifs at h with hheader
      obtain ⟨v, -, rfl⟩ := parseHeaderTerm_ok h
      exact .inr (.inr ⟨hheader, rfl, rfl⟩)
    · next field hfield =>
      split at h
      · cases h
      · split_ifs at h
        rw [finishTerm_field h]
        rw [knownField] at hfield
        split_ifs at hfield with hknown
        · exact .inl ⟨(Option.some.inj hfield).symm, hknown⟩
        · exact .inr (.inl (Option.some.inj hfield).symm)

/-- The keys of fields. -/
theorem fieldKeys_plain : ∀ k ∈ fieldKeys, k.map lowerByte = k ∧ knownField k = some (.text k) ∧
    k ≠ str "has_events" ∧ k ≠ str "header" := by
  decide

/-- No name is taken for a header. -/
theorem not_header_of_known : ∀ n ∈ knownFieldNames ++ objectPrototype, ¬ str "header." <+: n := by
  decide

theorem knownField_header (name : GoString) : knownField (str "header." ++ name) = none := by
  have hnot : ∀ n ∈ knownFieldNames ++ objectPrototype, str "header." ++ name ≠ n := by
    rintro n hn rfl
    exact not_header_of_known _ hn (List.prefix_append _ _)
  rw [knownField, if_neg fun h => hnot _ (List.mem_append_left _ h) rfl,
    if_neg fun h => hnot _ (List.mem_append_right _ h) rfl]

theorem map_lowerByte_header (name : GoString) :
    (str "header." ++ name).map lowerByte = str "header." ++ name.map lowerByte := by
  rw [List.map_append]
  rfl

theorem header_ne {name k : GoString} (hk : k ∈ knownFieldNames) : str "header." ++ name ≠ k := by
  rintro rfl
  exact not_header_of_known _ (List.mem_append_left _ hk) (List.prefix_append _ _)

theorem isFieldKey_iff (k : GoString) :
    isFieldKey k = true ↔ k ∈ fieldKeys ∨ ∃ name, k = str "header." ++ name := by
  rw [isFieldKey, Bool.or_eq_true, decide_eq_true_eq, hasPrefix_iff]
  exact or_congr Iff.rfl ⟨fun ⟨u, hu⟩ => ⟨u, hu.symm⟩, fun ⟨u, hu⟩ => ⟨u, hu.symm⟩⟩

/-- **A field's key and a value make a term that carries the value.** -/
theorem parseKeyed_carries (hkey : isFieldKey key = true)
    (h : parseKeyed U raw key value false = .ok t) :
    Carries U (key, value) t ∧ (key = str "method" → canonicalMethod t.value = true) := by
  rcases (isFieldKey_iff key).mp hkey with hmem | ⟨name, rfl⟩
  · obtain ⟨hlower, hknown, hflag, -⟩ := fieldKeys_plain key hmem
    by_cases hmethod : key = str "method"
    · rw [parseKeyed, hlower, if_pos hmethod] at h
      obtain ⟨⟨text, wildcard, quoted⟩, hv, -, hcan, rfl⟩ := parseMethodTerm_ok h
      subst hmethod
      exact ⟨⟨.inl ⟨hmem, rfl, rfl⟩, rfl, ⟨text, hv, rfl⟩, rfl⟩, fun _ => hcan⟩
    · rw [parseKeyed, hlower, if_neg hmethod, Browser.parseKeyed] at h
      simp only [hlower, hknown] at h
      split at h
      · cases h
      · next v hv =>
        obtain ⟨text, wildcard, quoted⟩ := v
        split_ifs at h
        have hne : ∀ {k' : GoString}, key ≠ k' → JSField.text key ≠ .text k' :=
          fun hk heq => hk (JSField.text.inj heq)
        obtain rfl := finishTerm_ok (hne hmethod) (hne hflag) h
        refine ⟨⟨.inl ⟨hmem, rfl, rfl⟩, rfl, ⟨text, hv, (if_neg hmethod).symm⟩, ?_⟩,
          fun hk => absurd hk hmethod⟩
        simp [JSTerm.make]
  · have hmethod : str "header." ++ name ≠ str "method" := header_ne (by decide)
    have hstatus : str "header." ++ name ≠ str "status" := header_ne (by decide)
    rw [parseKeyed, map_lowerByte_header, if_neg (header_ne (by decide)), Browser.parseKeyed] at h
    simp only [map_lowerByte_header, knownField_header, List.prefix_append, if_true] at h
    obtain ⟨⟨text, wildcard, quoted⟩, hv, rfl⟩ := parseHeaderTerm_ok h
    exact ⟨⟨.inr ⟨name, rfl, rfl, rfl⟩, rfl, ⟨text, hv, (if_neg hmethod).symm⟩,
      (if_neg hstatus).symm⟩, fun hk => absurd hk hmethod⟩

end Terms

/-! ### Terms and the tokens they come from -/

/-- The second text is the first one and more, after white space. -/
def Continues (a b : GoString) : Prop := ∃ c u, isASCIISpace c = true ∧ b = a ++ c :: u

/-- A byte that a key may start with. -/
def isKeyStart (c : UInt8) : Bool := c != 0x2D && c != 0x22 && c != 0x3A && !isASCIISpace c

section Splicing

variable {e : GoString × GoString} {a b k w : GoString} {t : JSTerm}

theorem key_start (h : isPreCutover k = true) :
    ∃ c u, k = c :: u ∧ c ≠ 0x2D ∧ c ≠ 0x22 ∧ c ≠ 0x3A ∧ isASCIISpace c = false := by
  have hnames : ∀ n ∈ fieldKeys ++ objectPrototype, n.head?.any isKeyStart = true := by decide
  have hhead : k.head?.any isKeyStart = true := by
    rw [isPreCutover, Bool.or_eq_true, isFieldKey_iff, decide_eq_true_eq] at h
    rcases h with (h | ⟨name, rfl⟩) | h
    · exact hnames k (List.mem_append_left _ h)
    · rfl
    · exact hnames k (List.mem_append_right _ h)
  cases k with
  | nil => cases hhead
  | cons c u => exact ⟨c, u, rfl, by simpa [isKeyStart, and_assoc] using hhead⟩

/-- A token that ends where a parameter ends, or where white space in or after it starts, begins
like it. -/
theorem begins_of_cut (h : w = oldToken e ∨ Continues w (oldToken e) ∨ Continues (oldToken e) w) :
    w <+: oldToken e ∨ oldToken e <+: w := by
  rcases h with rfl | ⟨c, u, -, hu⟩ | ⟨c, u, -, hu⟩
  · exact .inl (List.prefix_refl _)
  · exact .inl ⟨_, hu.symm⟩
  · exact .inr ⟨_, hu.symm⟩

theorem Carries.field_text (h : Carries U e t) : ∃ name, name ≠ [] ∧ t.field = .text name := by
  rcases h.field with ⟨hmem, hfield, -⟩ | ⟨name, -, hfield, -⟩
  · have hne : ∀ n ∈ fieldKeys, n ≠ [] := by decide
    exact ⟨e.1, hne _ hmem, hfield⟩
  · exact ⟨str "header", by decide, hfield⟩

theorem Carries.field_ne (h : Carries U e t) : t.field ≠ .text [] := by
  obtain ⟨name, hne, hf⟩ := h.field_text
  rw [hf]
  exact fun heq => hne (JSField.text.inj heq)

/-- A term cannot carry two values, one of which continues the other. -/
theorem Carries.not_continues (h : Carries U (k, a) t) (h' : Carries U (k, b) t)
    (hcan : k = str "method" → canonicalMethod t.value = true) : ¬ Continues a b := by
  rintro ⟨c, u, hc, rfl⟩
  obtain ⟨text, hv, htext⟩ := h.value
  obtain ⟨text', hv', htext'⟩ := h'.value
  rw [parseValue_mirror] at hv hv'
  by_cases hmethod : k = str "method"
  · -- the longer value has white space in it, and no method has
    have hplain : ∀ up ∈ canonicalHTTPMethods ++ objectPrototype,
        up.all (fun c => !isASCIISpace c) = true := by decide
    have hmem : c ∈ t.value := by
      rw [htext', if_pos hmethod]
      exact space_mem_toUpperCase hc (space_mem_value hv' hc (by simp))
    have hmethods : t.value ∈ canonicalHTTPMethods ++ objectPrototype := by
      simpa [canonicalMethod] using hcan hmethod
    have hfalse := List.all_eq_true.mp (hplain _ hmethods) c hmem
    rw [hc] at hfalse
    cases hfalse
  · rw [if_neg hmethod] at htext htext'
    rw [← htext] at hv
    rw [← htext'] at hv'
    exact parseValue_append_ne hv hc hv'

/-- A token that begins like a parameter and is on a field has a key and a value. -/
theorem parseToken_keyed (hk : isPreCutover e.1 = true) (hw : w ≠ [])
    (hcmp : w <+: oldToken e ∨ oldToken e <+: w) (h : parseToken U w = .ok t)
    (hfield : t.field ≠ .text []) :
    ∃ key value, w = key ++ 0x3A :: value ∧ 0x3A ∉ key ∧
      parseKeyed U w key value false = .ok t := by
  obtain ⟨c, u, hku, hminus, hquote, hcolon, -⟩ := key_start hk
  have hhead : w.head? = some c := by
    obtain ⟨x, w, rfl⟩ := List.exists_cons_of_ne_nil hw
    rw [oldToken, hku, List.cons_append, List.cons_prefix_cons, List.cons_prefix_cons] at hcmp
    rcases hcmp with ⟨rfl, -⟩ | ⟨rfl, -⟩ <;> rfl
  by_cases hmem : 0x3A ∈ w
  · obtain ⟨key, value, rfl, hkey⟩ := List.eq_append_cons_of_mem hmem
    have hne : key ≠ [] := by
      rintro rfl
      exact hcolon (Option.some.inj hhead).symm
    have hkhead : key.head? = some c := by
      obtain ⟨x, key, rfl⟩ := List.exists_cons_of_ne_nil hne
      exact hhead
    rw [parseToken_colon hne (by simpa [hkhead] using hminus) (by simpa [hkhead] using hquote)
      hkey] at h
    split_ifs at h
    exact ⟨key, value, rfl, hkey, h⟩
  · exact absurd (parseToken_bare (by simpa [hhead] using hminus) hmem h) hfield

theorem length_canonicalHeaderName (name : GoString) :
    (canonicalHeaderName name).length = name.length := by
  have hfrom : ∀ upper, (canonicalHeaderNameFrom upper name).length = name.length := by
    induction name with
    | nil => exact fun _ => rfl
    | cons c name ih =>
      intro upper
      rw [canonicalHeaderNameFrom, List.length_cons, List.length_cons, ih]
  exact hfrom true

/-- The field of a term says how long its key is. -/
theorem length_key (hcar : Carries U e t) {raw key value : GoString}
    (h : parseKeyed U raw key value false = .ok t) : key.length = e.1.length := by
  have hheader : str "header" ∉ knownFieldNames := by decide
  have hlength : (key.map lowerByte).length = key.length := List.length_map _
  rcases parseKeyed_field h with ⟨hf, hknown⟩ | hf | ⟨hpre, hf, hname⟩
  · rcases hcar.field with ⟨-, hf', -⟩ | ⟨name, -, hf', -⟩
    · rw [hf, JSField.text.injEq] at hf'
      rw [← hf', hlength]
    · rw [hf, JSField.text.injEq] at hf'
      exact absurd (hf' ▸ hknown) hheader
  · obtain ⟨name, -, hf'⟩ := hcar.field_text
    rw [hf] at hf'
    cases hf'
  · rcases hcar.field with ⟨hmem, hf', -⟩ | ⟨name, hkey, -, hname'⟩
    · rw [hf, JSField.text.injEq] at hf'
      exact absurd hf'.symm (fieldKeys_plain _ hmem).2.2.2
    · have hlen := congrArg List.length (hname.symm.trans hname')
      rw [length_canonicalHeaderName, length_canonicalHeaderName, List.length_drop] at hlen
      have hle := hpre.length_le
      rw [hlength] at hle
      rw [hkey, List.length_append, show (str "header.").length = 7 from rfl]
      have : 7 ≤ key.length := hle
      omega

/-- **Only the token of a parameter makes a term that carries it**, among the tokens that a text
with the parameter in it may begin with. -/
theorem token_of_carries (hk : isFieldKey e.1 = true) (hw : w ≠ [])
    (hcmp : w = oldToken e ∨ Continues w (oldToken e) ∨ Continues (oldToken e) w)
    (h : parseToken U w = .ok t) (hcar : Carries U e t) : w = oldToken e ∧ 0x3A ∉ e.1 := by
  obtain ⟨k, v⟩ := e
  have hpre := begins_of_cut hcmp
  obtain ⟨key, value, rfl, hkey, hkeyed⟩ :=
    parseToken_keyed (by rw [isPreCutover, hk, Bool.true_or]) hw hpre h hcar.field_ne
  -- the two keys have the same length and begin the same text
  have hlen := length_key hcar hkeyed
  obtain rfl : key = k := by
    have hkw : key <+: key ++ 0x3A :: value := List.prefix_append _ _
    have hkt : k <+: oldToken (k, v) := List.prefix_append _ _
    rcases hpre with hpre | hpre
    · exact (List.prefix_of_prefix_length_le (hkw.trans hpre) hkt hlen.le).eq_of_length hlen
    · exact (List.prefix_of_prefix_length_le hkw (hkt.trans hpre) hlen.le).eq_of_length hlen
  obtain ⟨hcar', hcan⟩ := parseKeyed_carries hk hkeyed
  have hvalue : ∀ {x y : GoString}, Continues (key ++ 0x3A :: x) (key ++ 0x3A :: y) →
      Continues x y := by
    rintro x y ⟨c, u, hc, hu⟩
    rw [List.append_assoc, List.append_cancel_left_eq, List.cons_append, List.cons.injEq] at hu
    exact ⟨c, u, hc, hu.2⟩
  refine ⟨?_, hkey⟩
  rcases hcmp with heq | hcont | hcont
  · exact heq
  · exact absurd (hvalue hcont) (hcar'.not_continues hcar hcan)
  · exact absurd (hvalue hcont) (hcar.not_continues hcar' hcan)

/-- A parameter that is only taken for a field makes no term on a field. -/
theorem not_carries_of_inherited (hk : e.1 ∈ objectPrototype) (hw : w ≠ [])
    (hcmp : w <+: oldToken e ∨ oldToken e <+: w) (h : parseToken U w = .ok t)
    (e' : GoString × GoString) : ¬ Carries U e' t := by
  intro hcar
  have hnames : ∀ n ∈ objectPrototype, 0x3A ∉ n ∧ n.map lowerByte ∉ knownFieldNames ∧
      ¬ str "header." <+: n.map lowerByte := by decide
  obtain ⟨hcolon, hknown, hheader⟩ := hnames _ hk
  have hpre : isPreCutover e.1 = true := by
    rw [isPreCutover, Bool.or_eq_true, decide_eq_true_eq]
    exact .inr hk
  obtain ⟨key, value, rfl, hkey, hkeyed⟩ := parseToken_keyed hpre hw hcmp h hcar.field_ne
  -- the key ends at the first colon of both texts
  obtain rfl : key = e.1 := by
    have hkw : before (key ++ 0x3A :: value) 0x3A = key := by
      rw [before_append_of_not_mem hkey, before_cons_self, List.append_nil]
    have hkt : before (oldToken e) 0x3A = e.1 := by
      rw [oldToken, before_append_of_not_mem hcolon, before_cons_self, List.append_nil]
    refine hkw.symm.trans (Eq.trans ?_ hkt)
    rcases hcmp with ⟨u, hu⟩ | ⟨u, hu⟩
    · rw [← hu, before_append_of_mem (s := key ++ 0x3A :: value) (by simp)]
    · rw [← hu, before_append_of_mem (s := oldToken e) (by simp [oldToken])]
  rcases parseKeyed_field hkeyed with ⟨-, hmem⟩ | hobject | ⟨hpre, -, -⟩
  · exact hknown hmem
  · obtain ⟨name, -, hf⟩ := hcar.field_text
    rw [hobject] at hf
    cases hf
  · exact hheader hpre

/-- The first token of a text that begins with a parameter. -/
theorem first_token {rest : GoString} {ws : List GoString} (hk : isPreCutover e.1 = true)
    (hrest : rest = [] ∨ ∃ u, rest = 0x20 :: u)
    (h : SearchQL.tokenize (oldToken e ++ rest) = .ok ws) :
    ∃ w ws', ws = w :: ws' ∧ IsToken w ∧
      (w = oldToken e ∨ Continues w (oldToken e) ∨ Continues (oldToken e) w) := by
  obtain ⟨c, u, hku, -, -, -, hspace⟩ := key_start hk
  have htext : oldToken e ++ rest = c :: (u ++ 0x3A :: e.2 ++ rest) := by
    rw [oldToken, hku]
    rfl
  rw [htext] at h
  obtain ⟨w, ws', rfl, hw, hcut⟩ := tokenize_first h hspace
  rw [← htext] at hcut
  refine ⟨w, ws', rfl, hw, ?_⟩
  have hlonger : ∀ {x : UInt8} {m n : GoString}, rest = x :: m ++ n →
      w = oldToken e ++ x :: m → Continues (oldToken e) w := by
    rintro x m n hx rfl
    rcases hrest with rfl | ⟨u, rfl⟩
    · cases hx
    · obtain ⟨rfl, -⟩ := List.cons.inj hx
      exact ⟨0x20, m, rfl, rfl⟩
  rcases hcut with hcut | ⟨c', v, hc', hcut⟩
  · cases rest with
    | nil => exact .inl (by rw [← hcut, List.append_nil])
    | cons x m => exact .inr (.inr (hlonger (List.append_nil _).symm hcut.symm))
  · rcases List.append_eq_append_iff.mp hcut with ⟨m, hm, hm'⟩ | ⟨m, hm, hm'⟩
    · cases m with
      | nil => exact .inl (by rw [hm, List.append_nil])
      | cons x m => exact .inr (.inr (hlonger hm' hm))
    · cases m with
      | nil => exact .inl (by rw [hm, List.append_nil])
      | cons x m =>
        obtain ⟨rfl, -⟩ := List.cons.inj hm'
        exact .inr (.inl ⟨_, m, hc', hm⟩)

/-- **If the terms carry the parameters, each parameter is one token.** The parameters are taken
off the front of the text one by one. -/
theorem tokens_of_carries {es : List (GoString × GoString)} {ws : List GoString}
    {added : List JSTerm} (hes : ∀ e ∈ es, isPreCutover e.1 = true)
    (h : SearchQL.tokenize (join (es.map oldToken) 0x20) = .ok ws)
    (hterms : List.Forall₂ (fun w t => parseToken U w = .ok t) ws added)
    (hcar : List.Forall₂ (Carries U) (es.filter fun e => isFieldKey e.1) added) :
    ∀ e ∈ es, isFieldKey e.1 = true ∧ 0x3A ∉ e.1 ∧ IsToken (oldToken e) := by
  induction es generalizing ws added with
  | nil => exact List.forall_mem_nil _
  | cons e es ih =>
    obtain ⟨hk, hes⟩ := List.forall_mem_cons.mp hes
    obtain ⟨rest, hjoin, hrest⟩ : ∃ rest, join ((e :: es).map oldToken) 0x20 = oldToken e ++ rest ∧
        (es = [] ∧ rest = [] ∨ rest = 0x20 :: join (es.map oldToken) 0x20) := by
      cases es with
      | nil => exact ⟨[], by simp [join], .inl ⟨rfl, rfl⟩⟩
      | cons e' es => exact ⟨_, join_cons_cons _ _ _ _, .inr rfl⟩
    rw [hjoin] at h
    obtain ⟨w, ws, rfl, hw, hcmp⟩ := first_token hk (hrest.imp And.right fun hr => ⟨_, hr⟩) h
    obtain ⟨t, added, ht, hmore, rfl⟩ := List.forall₂_cons_left_iff.mp hterms
    by_cases hfield : isFieldKey e.1 = true
    · rw [List.filter_cons, if_pos hfield, List.forall₂_cons] at hcar
      obtain ⟨rfl, hcolon⟩ := token_of_carries hfield hw.1 hcmp ht hcar.1
      refine List.forall_mem_cons.mpr ⟨⟨hfield, hcolon, hw⟩, ?_⟩
      rcases hrest with ⟨rfl, -⟩ | rfl
      · exact List.forall_mem_nil _
      · exact ih hes (hw.tokenize_tail rfl h) hmore hcar.2
    · -- the next parameter of a field has to be carried by this one's term
      rw [List.filter_cons, if_neg hfield] at hcar
      obtain ⟨e', es', hcar', -, -⟩ := List.forall₂_cons_right_iff.mp hcar
      have hinherited : e.1 ∈ objectPrototype := by
        rw [isPreCutover, Bool.or_eq_true, decide_eq_true_eq] at hk
        exact hk.resolve_left hfield
      exact absurd hcar'
        (not_carries_of_inherited hinherited hw.1 (begins_of_cut hcmp) ht e')

/-- **If each parameter is one token, the terms carry the parameters.** -/
theorem carries_of_tokens {es : List (GoString × GoString)} {added : List JSTerm}
    (h : ∀ e ∈ es, isFieldKey e.1 = true ∧ 0x3A ∉ e.1 ∧ IsToken (oldToken e))
    (hterms : List.Forall₂ (fun w t => parseToken U w = .ok t) (es.map oldToken) added) :
    List.Forall₂ (Carries U) es added := by
  induction es generalizing added with
  | nil =>
    cases hterms
    exact .nil
  | cons e es ih =>
    obtain ⟨⟨hfield, hcolon, -⟩, hes⟩ := List.forall_mem_cons.mp h
    rw [List.map_cons] at hterms
    obtain ⟨t, added, ht, hmore, rfl⟩ := List.forall₂_cons_left_iff.mp hterms
    obtain ⟨c, u, hku, hminus, hquote, -, -⟩ :=
      key_start (k := e.1) (by rw [isPreCutover, hfield, Bool.true_or])
    rw [oldToken, parseToken_colon (by simp [hku]) (by simpa [hku] using hminus)
      (by simpa [hku] using hquote) hcolon] at ht
    split_ifs at ht
    exact .cons (parseKeyed_carries hfield ht).1 (ih hes hmore)

end Splicing

/-! ### The whole query -/

section Query

variable {query : GoString} {view view' : SavedView}

/-- A query is parsed token by token. -/
theorem parseQuery_ok_iff {s : GoString} {terms : List JSTerm} :
    parseQuery U s = .ok terms ↔ ∃ ws, SearchQL.tokenize s = .ok ws ∧
      List.Forall₂ (fun w t => parseToken U w = .ok t) ws terms := by
  rw [parseQuery, tokenize_mirror]
  cases SearchQL.tokenize s with
  | error e => simp
  | ok ws =>
    rcases mapM_cases (parseToken U) ws with ⟨e, he, x, hx, herr⟩ | ⟨ys, hys, hall⟩
    · refine iff_of_false (by simp [he]) ?_
      rintro ⟨ws', hws, hall⟩
      obtain rfl := Except.ok.inj hws
      exact not_error_of_forall₂ hall hx herr
    · constructor
      · intro h
        obtain rfl := Except.ok.inj (hys.symm.trans h)
        exact ⟨ws, rfl, hall⟩
      · rintro ⟨ws', hws, hall'⟩
        obtain rfl := Except.ok.inj hws
        have hunique : Relator.RightUnique fun w t => parseToken U w = .ok t :=
          fun _ _ _ h₁ h₂ => Except.ok.inj (h₁.symm.trans h₂)
        rw [← List.right_unique_forall₂' hunique hall hall']
        exact hys

/-! #### Parameters -/

theorem mem_setParam {name value : GoString} {entries : List (GoString × GoString)}
    {entry : GoString × GoString} (h : entry ∈ setParam name value entries) :
    entry = (name, value) ∨ entry ∈ entries := by
  induction entries with
  | nil => exact .inl (List.mem_singleton.mp h)
  | cons e entries ih =>
    rw [setParam] at h
    split_ifs at h
    · rcases List.mem_cons.mp h with h | h
      · exact .inl h
      · exact .inr (List.mem_cons_of_mem _ (List.mem_of_mem_filter h))
    · rcases List.mem_cons.mp h with h | h
      · exact .inr (h ▸ List.mem_cons_self)
      · exact (ih h).imp_right (List.mem_cons_of_mem _)

theorem isText_param (query name : GoString) : IsText (param query name) := by
  rw [param, getParam]
  cases hfind : (searchParams query).find? fun e => e.1 = name with
  | none => exact isText_nil
  | some e => exact (isText_of_mem_parseQuery (List.mem_of_find?_eq_some hfind)).2

theorem isText_oldToken {e : GoString × GoString} (h : e ∈ oldParams query) :
    IsText (oldToken e) := by
  obtain ⟨hkey, hvalue⟩ := isText_of_mem_parseQuery (List.mem_of_mem_filter h)
  exact hkey.append ((isText_of_ascii (s := [0x3A]) rfl).append hvalue)

theorem isText_merged (query : GoString) : IsText (merged query) := by
  refine join_of_append isText_nil (fun s t hs ht => hs.append ht) (isText_of_ascii rfl) ?_
  intro part hpart
  rcases List.mem_append.mp hpart with h | h
  · split_ifs at h
    · cases h
    · rw [List.mem_singleton.mp h]
      exact isText_param query _
  · obtain ⟨e, he, rfl⟩ := List.mem_map.mp h
    exact isText_oldToken he

/-- What the loop over `TEMPORAL_PARAMS` copies, from a part of the list on. -/
theorem mem_copyParams {names : List GoString} {entries : List (GoString × GoString)}
    {entry : GoString × GoString} (h : entry ∈ names.foldl (copyParam query) entries) :
    (entry.1 ∈ names ∧ entry.2 = param query entry.1) ∨ entry ∈ entries := by
  induction names generalizing entries with
  | nil => exact .inr h
  | cons name names ih =>
    rcases ih h with ⟨hname, hvalue⟩ | h
    · exact .inl ⟨List.mem_cons_of_mem _ hname, hvalue⟩
    · rw [copyParam] at h
      split_ifs at h
      · exact .inr h
      · rcases mem_setParam h with rfl | h
        · exact .inl ⟨List.mem_cons_self, rfl⟩
        · exact .inr h

theorem getParam_copyParams (names : List GoString) (entries : List (GoString × GoString))
    (name : GoString) :
    (getParam (names.foldl (copyParam query) entries) name).getD [] =
      if name ∈ names ∧ param query name ≠ [] then param query name
      else (getParam entries name).getD [] := by
  induction names generalizing entries with
  | nil => simp
  | cons n names ih =>
    rw [List.foldl_cons, ih, copyParam]
    by_cases hn : name = n
    · subst hn
      by_cases hempty : param query name = []
      · simp [hempty]
      · simp [hempty]
    · have hget : getParam (if param query n = [] then entries
          else setParam n (param query n) entries) name = getParam entries name := by
        split_ifs
        · rfl
        · exact getParam_setParam_of_ne hn _ _
      simp [hget, hn]

/-- The entries of the new query. -/
theorem mem_nextParams {entry : GoString × GoString} (h : entry ∈ nextParams query) :
    entry = (str "q", merged query) ∨
      entry.1 ∈ temporalParams ∧ entry.2 = param query entry.1 := by
  rcases mem_setParam h with h | h
  · exact .inl h
  · exact .inr ((mem_copyParams h).resolve_right List.not_mem_nil)

/-- **The new query is read as it was written.** -/
theorem searchParams_serialize (query : GoString) :
    searchParams (serialize (nextParams query)) = nextParams query := by
  have hhead : (serialize (nextParams query)).head? ≠ some 0x3F := fun h =>
    not_mem_serialize rfl (by decide) (by decide) _ (List.mem_of_head? h)
  rw [searchParams, if_neg hhead]
  refine parseQuery_serialize fun entry hentry => ?_
  have hnames : ∀ name ∈ temporalParams, IsText name := by
    have hall : ∀ name ∈ temporalParams, name.all (· < 0x80) = true := by decide
    exact fun name hname => isText_of_ascii (hall name hname)
  rcases mem_nextParams hentry with rfl | ⟨hname, hvalue⟩
  · exact ⟨isText_of_ascii rfl, isText_merged query⟩
  · rw [hvalue]
    exact ⟨hnames _ hname, isText_param query _⟩

theorem param_next_q (query : GoString) :
    param (serialize (nextParams query)) (str "q") = merged query := by
  rw [param, searchParams_serialize, nextParams, getParam_setParam_self]
  rfl

theorem param_next_temporal {name : GoString} (h : name ∈ temporalParams) :
    param (serialize (nextParams query)) name = param query name := by
  have hne : name ≠ str "q" := by
    rintro rfl
    revert h
    decide
  rw [param, searchParams_serialize, nextParams, getParam_setParam_of_ne hne, getParam_copyParams]
  by_cases hempty : param query name = []
  · simp [hempty, getParam]
  · rw [if_pos ⟨h, hempty⟩]

/-- A new query has no parameters for fields. -/
theorem oldParams_next (query : GoString) : oldParams (serialize (nextParams query)) = [] := by
  have hnames : ∀ name ∈ str "q" :: temporalParams, isPreCutover name = false := by decide
  rw [oldParams, searchParams_serialize, List.filter_eq_nil_iff]
  intro entry hentry
  rw [Bool.not_eq_true]
  rcases mem_nextParams hentry with rfl | ⟨hname, -⟩
  · exact hnames _ List.mem_cons_self
  · exact hnames _ (List.mem_cons_of_mem _ hname)

/-! #### The tokens of the new query -/

/-- The parameters come after the tokens of the old query. -/
theorem tokenize_merged {ws : List GoString}
    (h : SearchQL.tokenize (param query (str "q")) = .ok ws) (hold : oldParams query ≠ []) :
    SearchQL.tokenize (merged query) =
      (SearchQL.tokenize (join ((oldParams query).map oldToken) 0x20)).map (ws ++ ·) := by
  rw [merged]
  split_ifs with hq
  · rw [hq] at h
    obtain rfl := Except.ok.inj h
    rw [List.nil_append]
    cases SearchQL.tokenize (join ((oldParams query).map oldToken) 0x20) <;> rfl
  · obtain ⟨e, es, hes⟩ := List.exists_cons_of_ne_nil hold
    rw [hes, List.map_cons, List.singleton_append, join_cons_cons]
    exact tokenize_append_space h rfl

theorem fieldParams_eq (query : GoString) :
    fieldParams query = (oldParams query).filter fun e => isFieldKey e.1 := by
  rw [fieldParams, oldParams, List.filter_filter]
  congr 1
  funext e
  cases h : isFieldKey e.1 <;> simp [isPreCutover, h]

theorem oldParams_ne_nil (h : fieldParams query ≠ []) : oldParams query ≠ [] := by
  intro hold
  rw [fieldParams_eq, hold] at h
  exact h rfl

/-- A view with parameters for fields is written anew. -/
theorem migrateSavedView_some (h : fieldParams view.query ≠ [])
    (hmigrate : migrateSavedView U (some view) = some view') :
    (∃ terms, parseQuery U (merged view.query) = .ok terms) ∧
      view' = ⟨view.name, serialize (nextParams view.query)⟩ := by
  rw [migrateSavedView, if_neg (oldParams_ne_nil h)] at hmigrate
  split at hmigrate
  · cases hmigrate
  · next terms hterms => exact ⟨⟨terms, hterms⟩, (Option.some.inj hmigrate).symm⟩

/-- What is preserved can be spliced. -/
theorem spliceable_of_terms {terms added : List JSTerm} (hold : oldParams query ≠ [])
    (hq : parseQuery U (param query (str "q")) = .ok terms)
    (hnew : parseQuery U (merged query) = .ok (terms ++ added))
    (hcar : List.Forall₂ (Carries U) (fieldParams query) added) : Spliceable query := by
  obtain ⟨ws, hws, hterms⟩ := parseQuery_ok_iff.mp hq
  obtain ⟨ws', hws', hterms'⟩ := parseQuery_ok_iff.mp hnew
  refine ⟨(tokenize_ok_iff _).mp ⟨ws, hws⟩, ?_⟩
  rw [tokenize_merged hws hold] at hws'
  cases hrest : SearchQL.tokenize (join ((oldParams query).map oldToken) 0x20) with
  | error e =>
    rw [hrest] at hws'
    cases hws'
  | ok rest =>
    rw [hrest] at hws'
    obtain rfl := Except.ok.inj hws'
    have hadded : List.Forall₂ (fun w t => parseToken U w = .ok t) rest added := by
      have := List.forall₂_drop ws.length hterms'
      rwa [List.drop_left, hterms.length_eq, List.drop_left] at this
    rw [fieldParams_eq] at hcar
    exact tokens_of_carries (fun e he => (List.mem_filter.mp he).2) hrest hadded hcar

/-- What can be spliced is preserved. -/
theorem Spliceable.terms (h : Spliceable query) (hold : oldParams query ≠ []) {all : List JSTerm}
    (hnew : parseQuery U (merged query) = .ok all) :
    ∃ terms added, parseQuery U (param query (str "q")) = .ok terms ∧ all = terms ++ added ∧
      List.Forall₂ (Carries U) (fieldParams query) added := by
  obtain ⟨ws, hws⟩ := (tokenize_ok_iff _).mpr h.q
  obtain ⟨ws', hws', hterms⟩ := parseQuery_ok_iff.mp hnew
  have htokens : ∀ w ∈ (oldParams query).map oldToken, IsToken w := by
    intro w hw
    obtain ⟨e, he, rfl⟩ := List.mem_map.mp hw
    exact (h.params e he).2.2
  rw [tokenize_merged hws hold, tokenize_join htokens] at hws'
  obtain rfl := Except.ok.inj hws'
  have hfields : fieldParams query = oldParams query := by
    rw [fieldParams_eq, List.filter_eq_self]
    exact fun e he => (h.params e he).1
  refine ⟨all.take ws.length, all.drop ws.length, parseQuery_ok_iff.mpr ⟨ws, hws, ?_⟩,
    (List.take_append_drop _ _).symm, ?_⟩
  · have := List.forall₂_take ws.length hterms
    rwa [List.take_left] at this
  · have := List.forall₂_drop ws.length hterms
    rw [List.drop_left] at this
    rw [hfields]
    exact carries_of_tokens h.params this

/-- **A view that is migrated keeps its meaning exactly when its parameters can be spliced.** -/
theorem migrateSavedView_preserves (hfield : fieldParams view.query ≠ [])
    (h : migrateSavedView U (some view) = some view') :
    Preserves U view view' ↔ Spliceable view.query := by
  obtain ⟨⟨all, hall⟩, rfl⟩ := migrateSavedView_some hfield h
  have hold := oldParams_ne_nil hfield
  constructor
  · intro hp
    obtain ⟨terms, added, hq, hnew, hcar⟩ := hp.query
    rw [param_next_q] at hnew
    exact spliceable_of_terms hold hq hnew hcar
  · intro hs
    obtain ⟨terms, added, hq, rfl, hcar⟩ := hs.terms hold hall
    exact ⟨rfl, ⟨terms, added, hq, by rw [param_next_q, hall], hcar⟩,
      fun name hname => param_next_temporal hname⟩

/-- A view with a query of its own, a service and a time. -/
theorem migrateSavedView_preserves_service :
    Preserves .asciiOnly ⟨str "v", str "q=host:a&service=b&since=1h"⟩
      ⟨str "v", str "since=1h&q=host%3Aa+service%3Ab"⟩ :=
  (migrateSavedView_preserves (by decide +kernel) (by decide +kernel)).mpr (by decide +kernel)

/-- A service with a space in its name becomes a shorter one, and a word to search for. -/
theorem migrateSavedView_splits :
    migrateSavedView .asciiOnly (some ⟨str "v", str "service=a+b"⟩) =
        some ⟨str "v", str "q=service%3Aa+b"⟩ ∧
      ¬ Preserves .asciiOnly ⟨str "v", str "service=a+b"⟩ ⟨str "v", str "q=service%3Aa+b"⟩ := by
  refine ⟨by decide +kernel, fun hp => ?_⟩
  have hmerged : param (str "q=service%3Aa+b") (str "q") = merged (str "service=a+b") := by
    decide +kernel
  obtain ⟨terms, added, hq, hnew, hcar⟩ := hp.query
  rw [hmerged] at hnew
  exact absurd (spliceable_of_terms (by decide +kernel) hq hnew hcar) (by decide +kernel)

end Query

/-- **Views that were loaded once are left alone.** -/
theorem loadSaved_settles (stored : List (Option SavedView)) :
    loadSaved U ((loadSaved U stored).1.map some) = ((loadSaved U stored).1, false) := by
  have hsettled : ∀ view ∈ (loadSaved U stored).1, oldParams view.query = [] := by
    intro view hview
    obtain ⟨v, -, hv⟩ := List.mem_filterMap.mp hview
    cases v with
    | none => cases hv
    | some old =>
      rw [migrateSavedView] at hv
      split_ifs at hv with hold
      · rw [← Option.some.inj hv]
        exact hold
      · split at hv
        · cases hv
        · rw [← Option.some.inj hv]
          exact oldParams_next _
  have hkept : ∀ view ∈ (loadSaved U stored).1, migrateSavedView U (some view) = some view :=
    fun view hview => by rw [migrateSavedView, if_pos (hsettled view hview)]
  rw [loadSaved, List.filterMap_map, Prod.mk.injEq]
  constructor
  · calc (loadSaved U stored).1.filterMap (migrateSavedView U ∘ some)
      _ = (loadSaved U stored).1.filterMap some := List.filterMap_congr hkept
      _ = (loadSaved U stored).1 := List.filterMap_some
  · rw [List.any_eq_false]
    intro v hv
    obtain ⟨view, hview, rfl⟩ := List.mem_map.mp hv
    simp [hkept view hview, hsettled view hview]

end HttpCatch.Admin.SavedViews
