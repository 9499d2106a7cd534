import HttpCatch.Library.JsonSearch
import HttpCatch.Library.SqlLegible
import HttpCatch.Sinks.SQLiteRoots

/-!
# SQLite and memory on captured requests

The same query is answered twice: `CompileSQL` makes a `WHERE` clause of it and
`CompilePredicate` a Go function. This module compares the two on a captured request that
the SQLite sink has written.

* `compileSQL_indexed` — on method, source address and correlation id they agree. On host, path
  and service the predicate looks for the bytes of a wildcard term and `LIKE` for its characters,
  so they agree unless the value is torn or respelled in the text (`Misreads`). Legible texts are
  read alike.
* `compileSQL_scanned` — on bodies and headers they search different texts
  (`storedTexts`, `rawTexts`): SQLite folds ASCII letters of the body and of the JSON text
  of the headers, memory folds all letters of the body and of the names and values. So a needle may
  stand in the request and be veiled in what is stored (`Missed`), and something stray in what is
  stored may be taken for a needle that stands nowhere (`Phantom`). In legible texts it is letters
  of another case beyond ASCII that veil a needle. Plain texts and bare needles are found alike.

A query of several terms may come to the same all the same (`Harmless`).
-/

namespace HttpCatch.Sinks

open HttpCatch.Go HttpCatch.Json HttpCatch.Sql HttpCatch.Capture HttpCatch.SearchQL

/-! ### Conjunctions -/

/-- Clauses on which two readers differ, and yet the conjunctions do not: there are none; or another
clause is not met; or of the clauses on which they differ, one is met and one is not. -/
def Harmless {α : Type} (clauses : List α) (Differs Met : α → Prop) : Prop :=
  (∀ a ∈ clauses, ¬Differs a) ∨ (∃ a ∈ clauses, ¬Differs a ∧ ¬Met a) ∨
    (∃ a ∈ clauses, Differs a ∧ Met a) ∧ ∃ a ∈ clauses, Differs a ∧ ¬Met a

/-- **When two conjunctions agree.** -/
theorem all_eq_all_iff {α : Type} {l : List α} {f g : α → Bool} {Differs Met : α → Prop}
    (hdiffers : ∀ a ∈ l, f a = g a ↔ ¬Differs a) (hmet : ∀ a ∈ l, g a = true ↔ Met a) :
    l.all f = l.all g ↔ Harmless l Differs Met := by
  -- what `f` says of a clause follows from whether the readers differ and what `g` says
  have hf : ∀ a ∈ l, f a = true ↔ (¬Differs a ↔ Met a) := by
    intro a ha
    rw [← hdiffers a ha, ← hmet a ha]
    cases f a <;> cases g a <;> simp
  have hfalse : ∀ {a}, a ∈ l → ¬Met a → ¬l.all g = true := fun ha hm h =>
    hm ((hmet _ ha).1 (List.all_eq_true.1 h _ ha))
  have hfalse' : ∀ {a}, a ∈ l → ¬(¬Differs a ↔ Met a) → ¬l.all f = true := fun ha hm h =>
    hm ((hf _ ha).1 (List.all_eq_true.1 h _ ha))
  rw [Bool.eq_iff_iff]
  constructor
  · intro h
    by_cases hall : ∀ a ∈ l, ¬Differs a
    · exact .inl hall
    by_cases hboth : ∃ b ∈ l, ¬Differs b ∧ ¬Met b
    · exact .inr (.inl hboth)
    push Not at hall hboth
    obtain ⟨a, ha, hdiff⟩ := hall
    -- `a` makes one conjunction false, so the other is false by a clause that differs too
    have hno : ¬l.all f = true ∧ ¬l.all g = true := by
      by_cases hm : Met a
      · exact ⟨hfalse' ha (by tauto), fun hg => hfalse' ha (by tauto) (h.2 hg)⟩
      · exact ⟨fun hf => hfalse ha hm (h.1 hf), hfalse ha hm⟩
    simp only [List.all_eq_true, not_forall] at hno
    obtain ⟨⟨b, hb, hfb⟩, c, hc, hgc⟩ := hno
    rw [hf b hb] at hfb
    rw [hmet c hc] at hgc
    have hb' := hboth b hb
    have hc' := hboth c hc
    exact .inr (.inr ⟨⟨b, hb, by tauto⟩, c, hc, by tauto⟩)
  · rintro (h | ⟨a, ha, hd, hm⟩ | ⟨⟨a, ha, hd, hm⟩, b, hb, -, hm'⟩)
    · rw [List.all_eq_true, List.all_eq_true]
      exact forall₂_congr fun a ha => by rw [(hdiffers a ha).2 (h a ha)]
    · exact iff_of_false (hfalse' ha (by tauto)) (hfalse ha hm)
    · exact iff_of_false (hfalse' ha (by tauto)) (hfalse hb hm')

/-- The sign of a term on what is found. -/
def Signed (t : Term) (found : Prop) : Prop := if t.negated then ¬found else found

theorem signed_iff {t : Term} {found : Bool} {P : Prop} (h : found = true ↔ P) :
    (found != t.negated) = true ↔ Signed t P := by
  unfold Signed
  cases t.negated <;> simp [← h]

theorem signed_eq_iff {a b c : Bool} : (a != c) = (b != c) ↔ (a = true ↔ b = true) := by
  cases a <;> cases b <;> cases c <;> simp

/-- Of two readers one finds what is there in the places it can see, and something elsewhere. -/
theorem readers_differ_iff {There Visible Elsewhere : Prop} (h : Visible → There) :
    (There ∧ ¬Visible) ∧ ¬Elsewhere ∨ ¬There ∧ Elsewhere ↔
      ¬(There ↔ Visible ∨ Elsewhere) := by
  tauto

/-! ### Indexed and structured fields -/

/-- The host column holds what the matcher in memory takes for the host. -/
theorem hostColumn_eq (r : CapturedRequest) : hostColumn r = hostOf r := by
  unfold hostColumn hostOf Headers.values
  rcases r.headers.get? hostHeader with _ | _ | _ | ⟨v, vs⟩ <;> rfl

/-- The text is, begins with or has in it the value, byte by byte. -/
def Asks (w : Wildcard) (v s : GoString) : Prop :=
  match w with
  | .wildcardNone => s = v
  | .wildcardPrefix => v <+: s
  | .wildcardSubstring => v <:+: s

/-- The bytes of the text that SQLite takes for the value. Without a wildcard it compares bytes. -/
def Taken (w : Wildcard) (v s u : GoString) : Prop :=
  match w with
  | .wildcardNone => u = v ∧ s = v
  | .wildcardPrefix => TakenFirst v s u
  | .wildcardSubstring => TakenFor v s u

/-- **The value is torn**: wherever it stands in the text, it begins or ends within a character, or
is behind a NUL. -/
def Torn (w : Wildcard) (v s : GoString) : Prop := Asks w v s ∧ ¬Taken w v s v

/-- **The value is respelled**: other bytes of the text are read as its characters, or as those
before a NUL in it. -/
def Respelled (w : Wildcard) (v s : GoString) : Prop := ∃ u, u ≠ v ∧ Taken w v s u

/-- **What `LIKE` misreads**: a torn value that is not respelled as well, and a respelled value that
does not stand in the text itself. -/
def Misreads (w : Wildcard) (v s : GoString) : Prop :=
  Torn w v s ∧ ¬Respelled w v s ∨ ¬Asks w v s ∧ Respelled w v s

/-- The text that an indexed or structured term is about. -/
def indexedText (t : Term) (r : CapturedRequest) : GoString :=
  match t.field with
  | .host => hostOf r
  | .path => r.path
  | .service => r.service
  | .method => r.method
  | .sourceIP => r.sourceIP
  | _ => r.correlationID

/-- The wildcards of a term, which count on host, path and service only. -/
def indexedWildcard (t : Term) : Wildcard :=
  if t.field ∈ [Field.host, .path, .service] then t.wildcard else .wildcardNone

section Indexed

variable {U : Unicode} {rs : List Record} {r : CapturedRequest} {t : Term} {s : GoString}

/-- The fields that a request itself is asked for. -/
theorem keeps_eq (hf : t.field ∉ [Field.status, .hasEvents]) :
    whereKeeps U rs t r = (sqlMatches U rs t r != t.negated) ∧
      matchTerm U t (bodyNeedle U t) r = (evaluateTerm U t (bodyNeedle U t) r != t.negated) := by
  simp only [List.mem_cons, List.not_mem_nil, or_false, not_or] at hf
  unfold whereKeeps matchTerm
  cases h : t.field <;> simp_all

/-- The clause and the predicate of a query, term by term. -/
theorem holds_eq_iff {q : Query} {ev : Row} {Differs Found : Term → Prop}
    (hf : ∀ t ∈ q.terms, t.field ∉ [Field.status, .hasEvents]) (hb : r.body ≠ none)
    (hdiffers : ∀ t ∈ q.terms,
      (sqlMatches U rs t r = true ↔ evaluateTerm U t (bodyNeedle U t) r = true) ↔ ¬Differs t)
    (hfound : ∀ t ∈ q.terms, evaluateTerm U t (bodyNeedle U t) r = true ↔ Found t) :
    holds (stored rs).db (joinScope ev r) [] (whereCond U q) = compilePredicate U q r ↔
      Harmless q.terms Differs fun t => Signed t (Found t) := by
  rw [holds_whereCond hb, compilePredicate]
  refine all_eq_all_iff (fun t ht => ?_) fun t ht => ?_
  · rw [(keeps_eq (hf t ht)).1, (@keeps_eq U rs r t (hf t ht)).2, signed_eq_iff]
    exact hdiffers t ht
  · rw [(@keeps_eq U rs r t (hf t ht)).2]
    exact signed_iff (hfound t ht)

theorem matchString_iff : matchString s t = true ↔ Asks t.wildcard t.value s := by
  unfold matchString Asks
  cases t.wildcard <;> simp

variable {w : Wildcard} {v : GoString}

theorem asks_of_taken (h : Taken w v s v) : Asks w v s := by
  cases w with
  | wildcardNone => exact h.2
  | wildcardPrefix =>
    obtain ⟨-, c, hcut, -⟩ := h
    exact ⟨c, hcut.text.symm⟩
  | wildcardSubstring =>
    obtain ⟨-, a, c, hcut, -⟩ := h
    exact ⟨a, c, hcut.text.symm⟩

/-- The readers differ on a value that is misread, and on no other. -/
theorem misreads_iff : Misreads w v s ↔ ¬(Asks w v s ↔ ∃ u, Taken w v s u) := by
  have hself : (∃ u, Taken w v s u) ↔ Taken w v s v ∨ Respelled w v s := by
    constructor
    · rintro ⟨u, hu⟩
      by_cases heq : u = v
      · exact .inl (heq ▸ hu)
      · exact .inr ⟨u, heq, hu⟩
    · rintro (h | ⟨u, -, hu⟩)
      · exact ⟨v, h⟩
      · exact ⟨u, hu⟩
  rw [Misreads, Torn, hself]
  exact readers_differ_iff asks_of_taken

theorem indexedHit_taken : indexedHit t s = true ↔ ∃ u, Taken t.wildcard t.value s u := by
  unfold indexedHit Taken
  cases t.wildcard
  · simp
  · exact likeStarts_iff
  · exact likeWithin_iff

theorem indexedHit_iff :
    indexedHit t s = matchString s t ↔ ¬Misreads t.wildcard t.value s := by
  rw [Bool.eq_iff_iff, matchString_iff, indexedHit_taken, misreads_iff, not_not]
  exact Iff.comm

/-- A value without wildcards is compared byte by byte. -/
theorem not_misreads_none : ¬Misreads .wildcardNone v s := by
  simp [misreads_iff, Asks, Taken]

/-- Legible values and texts are read alike. -/
theorem not_misreads (hv : Legible v) (hs : Legible s) : ¬Misreads w v s := by
  cases w
  · exact not_misreads_none
  · rw [misreads_iff, not_not]
    exact (likeStarts_legible hv hs).symm.trans likeStarts_iff
  · rw [misreads_iff, not_not]
    exact (likeWithin_legible hv hs).symm.trans likeWithin_iff

theorem evaluateTerm_indexed
    (hf : t.field ∈ [Field.host, .path, .service, .method, .sourceIP, .correlationID]) :
    evaluateTerm U t (bodyNeedle U t) r = true ↔
      Asks (indexedWildcard t) t.value (indexedText t r) := by
  simp only [List.mem_cons, List.not_mem_nil, or_false] at hf
  rcases hf with hf | hf | hf | hf | hf | hf <;>
    simp [hf, evaluateTerm, indexedWildcard, indexedText, matchString_iff, Asks]

theorem sqlMatches_indexed
    (hf : t.field ∈ [Field.host, .path, .service, .method, .sourceIP, .correlationID]) :
    (sqlMatches U rs t r = true ↔ evaluateTerm U t (bodyNeedle U t) r = true) ↔
      ¬Misreads (indexedWildcard t) t.value (indexedText t r) := by
  simp only [List.mem_cons, List.not_mem_nil, or_false] at hf
  rcases hf with hf | hf | hf | hf | hf | hf
  · simpa [hf, evaluateTerm, sqlMatches, indexedWildcard, indexedText, hostColumn_eq] using
      indexedHit_iff
  · simpa [hf, evaluateTerm, sqlMatches, indexedWildcard, indexedText] using indexedHit_iff
  · simpa [hf, evaluateTerm, sqlMatches, indexedWildcard, indexedText] using indexedHit_iff
  all_goals simp [hf, evaluateTerm, sqlMatches, indexedWildcard, not_misreads_none]

/-- **When SQLite and memory agree on indexed and structured fields.** For a request in the tables,
and whatever event it is joined to, the `WHERE` clause is true exactly when the predicate holds, but
for terms that `LIKE` misreads. A legible value is not misread in a legible text, whatever `%`, `_`
and backslashes are in it. -/
theorem compileSQL_indexed (U : Unicode) (q : Query)
    (hf : ∀ t ∈ q.terms, t.field ∈ [Field.host, .path, .service, .method, .sourceIP,
      .correlationID])
    (rs : List Record) (tables : Tables) (hw : (stored []).writeAll rs = .ok tables)
    (r : CapturedRequest) (hr : Record.request r ∈ rs) (ev : Row) :
    compileSQL U q = sqlOrEmpty (whereCond U q) ∧
      (holds tables.db (joinScope ev r) [] (whereCond U q) = compilePredicate U q r ↔
        Harmless q.terms (fun t => Misreads (indexedWildcard t) t.value (indexedText t r))
          fun t => Signed t (Asks (indexedWildcard t) t.value (indexedText t r))) ∧
      ∀ t ∈ q.terms, Legible t.value → Legible (indexedText t r) →
        ¬Misreads (indexedWildcard t) t.value (indexedText t r) := by
  obtain ⟨hs, rfl⟩ := writeAll_ok.mp hw
  have hkeeps : ∀ f ∈ [Field.host, .path, .service, .method, .sourceIP, .correlationID],
      f ∉ [Field.status, .hasEvents] := by decide
  refine ⟨compileSQL_eq q, ?_, fun t _ hv htext => not_misreads hv htext⟩
  exact holds_eq_iff (fun t ht => hkeeps _ (hf t ht)) (hs.body r hr)
    (fun t ht => sqlMatches_indexed (hf t ht)) fun t ht => evaluateTerm_indexed (hf t ht)

/-- A request to a host with all three special characters of `LIKE`. -/
def hostRequest : CapturedRequest :=
  { CapturedRequest.blank (str "r") 0 (str "c") with
    headers := some ⟨[(hostHeader, some [str "100%_\\x"])], by decide⟩ }

/-- It is found by a start of the host, and by nothing that only looks like one as a pattern. -/
theorem compileSQL_indexed_host :
    holds (stored [.request hostRequest]).db (joinScope [] hostRequest) [] (whereCond .asciiOnly
        ⟨[Term.make .host (str "100%_\\", .wildcardPrefix, false) false,
          Term.make .host (str "0__", .wildcardSubstring, false) true]⟩) = true := by
  obtain ⟨-, hiff, hlegible⟩ := compileSQL_indexed .asciiOnly
    ⟨[Term.make .host (str "100%_\\", .wildcardPrefix, false) false,
      Term.make .host (str "0__", .wildcardSubstring, false) true]⟩
    (by simp [Term.make]) [.request hostRequest] _ (writeAll_ok.mpr ⟨by decide, rfl⟩) hostRequest
    List.mem_cons_self []
  have hhost : Legible (hostOf hostRequest) := legible_of_ascii (by decide)
  have hfirst : Legible (str "100%_\\") := legible_of_ascii (by decide)
  have hsecond : Legible (str "0__") := legible_of_ascii (by decide)
  refine (hiff.mpr (.inl fun t ht => hlegible t ht ?_ ?_)).trans (by decide)
  · simp only [List.mem_cons, List.not_mem_nil, or_false] at ht
    rcases ht with rfl | rfl
    · exact hfirst
    · exact hsecond
  · simp only [List.mem_cons, List.not_mem_nil, or_false] at ht
    rcases ht with rfl | rfl <;> exact hhost

/-- The path `/é` begins with the bytes of the value of `path:/` and `C3`, a byte that is the first
half of `é`. SQLite does not find the request: it reads `é` as one character, which is not the one
it reads for half of it. -/
theorem compileSQL_splits_characters :
    parse .asciiOnly (str "path:/" ++ [0xC3, 0x2A]) =
      .ok ⟨[Term.make .path ([0x2F, 0xC3], .wildcardPrefix, false) false]⟩ ∧
      holds (stored [.request { CapturedRequest.blank (str "r") 0 (str "c") with
          path := [0x2F, 0xC3, 0xA9] }]).db
        (joinScope [] { CapturedRequest.blank (str "r") 0 (str "c") with
          path := [0x2F, 0xC3, 0xA9] }) []
        (whereCond .asciiOnly
          ⟨[Term.make .path ([0x2F, 0xC3], .wildcardPrefix, false) false]⟩) = false ∧
      compilePredicate .asciiOnly
        ⟨[Term.make .path ([0x2F, 0xC3], .wildcardPrefix, false) false]⟩
        { CapturedRequest.blank (str "r") 0 (str "c") with path := [0x2F, 0xC3, 0xA9] } = true :=
  ⟨rfl, by decide, by decide⟩

end Indexed

/-! ### Bodies and headers -/

section Needles

variable (U : Unicode) (t : Term) (r : CapturedRequest)

/-- The texts that SQLite searches, ASCII letters folded: the body, the JSON text of the headers,
or the values that this text has under a name. -/
def storedTexts : List GoString :=
  match t.field with
  | .body => r.body.toList
  | .headers => [marshalMap r.headers]
  | .header => member t.headerName (lex .outside (marshalMap r.headers))
  | _ => []

/-- The texts that memory searches, all letters folded: the body, the names and values of the
headers, or the values under a name. -/
def rawTexts : List GoString :=
  match t.field with
  | .body => r.body.toList
  | .headers => r.headers.entries.flatMap fun kv => kv.1 :: kv.2.getD []
  | .header => r.headers.values t.headerName
  | _ => []

/-- How the stored texts have some text: with the escapes of JSON, or as JSON reads it back. -/
def storedForm (m : GoString) : GoString :=
  match t.field with
  | .headers => (pieces m).flatMap escapePiece
  | .header => toValidUTF8 m
  | _ => m

/-- **The needle stands in the request**: some characters of a text that memory searches, one after
the other, are its characters but for case. -/
def Stands (m : GoString) : Prop :=
  toLower U m = toLower U t.value ∧ ∃ s ∈ rawTexts t r, IsRun m s

/-- The bytes of a stored text, ASCII letters folded, that SQLite takes for the needle. -/
def TakenIn (u : GoString) : Prop :=
  ∃ s ∈ storedTexts t r, TakenFor (toLower U t.value) (s.map lowerByte) u

/-- **Characters that SQLite does not take for the needle**, as they are stored: there is a letter
beyond ASCII among them that is not in lower case, or a character that JSON escapes or SQLite takes
for another, or they are behind a NUL. -/
def Veiled (m : GoString) : Prop :=
  ¬TakenIn U t r ((storedForm t m).map lowerByte)

/-- **Bytes that SQLite takes for the needle and that are not the needle as it is stored**: of the
syntax or the escapes of JSON, of characters that SQLite takes for others, or what a NUL leaves of
the needle. -/
def Stray (u : GoString) : Prop :=
  TakenIn U t r u ∧ ∀ m, Stands U t r m → u ≠ (storedForm t m).map lowerByte

/-- **The needle is missed**: it stands in the request, veiled everywhere, and nothing stray is
taken for it. -/
def Missed : Prop :=
  (∃ m, Stands U t r m) ∧ (∀ m, Stands U t r m → Veiled U t r m) ∧ ∀ u, ¬Stray U t r u

/-- **The needle is a phantom**: it stands nowhere in the request, and something stray is taken for
it. -/
def Phantom : Prop :=
  (∀ m, ¬Stands U t r m) ∧ ∃ u, Stray U t r u

/-- The needle of a term is read in a text that SQLite searches. -/
def InStored : Prop :=
  ∃ s ∈ storedTexts t r, likeWithin (toLower U t.value) (s.map lowerByte) = true

/-- The needle of a term is in a text that memory searches. -/
def InRaw : Prop :=
  ∃ s ∈ rawTexts t r, toLower U t.value <:+: toLower U s

/-- A headers term on which both search alike: names and values stand for themselves in JSON, and
the needle is none of the JSON syntax and has no NUL. -/
def PlainFor : Prop :=
  t.field = .headers ∧ 0 ∉ toLower U t.value ∧ PlainMap r.headers.entries ∧
    BareNeedle (toLower U t.value)

/-- A term on which both search the same legible texts for a legible needle: the body, or the values
of a header. -/
def LegibleFor : Prop :=
  match t.field with
  | .body => Legible (toLower U t.value) ∧ Legible (r.body.getD [])
  | .header =>
    Legible (toLower U t.value) ∧ (∀ kv ∈ r.headers.entries, Url.IsText kv.1) ∧
      ∀ v ∈ r.headers.values t.headerName, Legible v
  | _ => False

end Needles

section Scanned

variable {U : Unicode} {rs : List Record} {r : CapturedRequest} {t : Term}

/-- The readers differ on a needle that is missed or a phantom, and on no other. -/
theorem missed_or_phantom_iff :
    Missed U t r ∨ Phantom U t r ↔ ¬((∃ m, Stands U t r m) ↔ ∃ u, TakenIn U t r u) := by
  have htaken : (∃ u, TakenIn U t r u) ↔
      (∃ m, Stands U t r m ∧ ¬Veiled U t r m) ∨ ∃ u, Stray U t r u := by
    constructor
    · rintro ⟨u, hu⟩
      by_cases h : ∃ m, Stands U t r m ∧ u = (storedForm t m).map lowerByte
      · obtain ⟨m, hm, rfl⟩ := h
        exact .inl ⟨m, hm, not_not_intro hu⟩
      · push Not at h
        exact .inr ⟨u, hu, h⟩
    · rintro (⟨m, -, hm⟩ | ⟨u, hu, -⟩)
      · exact ⟨_, not_not.1 hm⟩
      · exact ⟨u, hu⟩
  have hveiled : (∀ m, Stands U t r m → Veiled U t r m) ↔
      ¬∃ m, Stands U t r m ∧ ¬Veiled U t r m := by
    push Not
    rfl
  rw [Missed, Phantom, htaken, hveiled, ← not_exists, ← not_exists, ← and_assoc]
  exact readers_differ_iff fun ⟨m, hm, _⟩ => ⟨m, hm⟩

theorem inStored_iff : InStored U t r ↔ ∃ u, TakenIn U t r u := by
  simp only [InStored, TakenIn, likeWithin_iff]
  exact ⟨fun ⟨s, hs, u, hu⟩ => ⟨u, s, hs, hu⟩, fun ⟨u, s, hs, hu⟩ => ⟨s, hs, u, hu⟩⟩

theorem inRaw_iff (hU : U.SimpleCase) : InRaw U t r ↔ ∃ m, Stands U t r m := by
  simp only [InRaw, Stands, infix_toLower_iff hU]
  exact ⟨fun ⟨s, hs, m, hrun, hm⟩ => ⟨m, hm, s, hs, hrun⟩,
    fun ⟨m, hm, s, hs, hrun⟩ => ⟨s, hs, m, hrun, hm⟩⟩

theorem differs_iff (hU : U.SimpleCase) :
    Missed U t r ∨ Phantom U t r ↔ ¬(InStored U t r ↔ InRaw U t r) := by
  rw [missed_or_phantom_iff, inStored_iff, inRaw_iff hU]
  exact not_congr Iff.comm

theorem quotedLabel_escape (name : GoString) :
    quotedLabel (replaceByte 0x22 (str "\\\"") (replaceByte 0x5C (str "\\\\") name) ++ [0x22]) =
      some name := by
  induction name with
  | nil => rfl
  | cons b name ih =>
    by_cases h₁ : b = 0x5C
    · subst h₁
      exact congrArg (Option.map (0x5C :: ·)) ih
    · by_cases h₂ : b = 0x22
      · subst h₂
        exact congrArg (Option.map (0x22 :: ·)) ih
      · have hb : replaceByte 0x22 (str "\\\"") (replaceByte 0x5C (str "\\\\") (b :: name)) =
            b :: replaceByte 0x22 (str "\\\"") (replaceByte 0x5C (str "\\\\") name) := by
          simp [replaceByte, h₁, h₂]
        rw [hb, List.cons_append, quotedLabel.eq_def]
        simp only [if_neg h₂, if_neg h₁, ih, Option.map_some]

/-- The path made of a header name leads to the member of that name. -/
theorem pathLabel_jsonHeaderPath (name : GoString) :
    pathLabel (jsonHeaderPath name) = some name := by
  have hp : str "$.\"" <+: jsonHeaderPath name := ⟨_, (List.append_assoc _ _ _).symm⟩
  rw [pathLabel, if_pos hp, jsonHeaderPath, List.append_assoc]
  exact quotedLabel_escape name

theorem namedHit_blob (doc : GoString) :
    namedHit U t (.blob doc) = (member t.headerName (lex .outside doc)).any (scanHit U t) := by
  have heach : jsonEach (.blob doc) (.text (jsonHeaderPath t.headerName)) =
      (member t.headerName (lex .outside doc)).map .text := by
    simp only [jsonEach, Value.castText, pathLabel_jsonHeaderPath]
  rw [namedHit, heach, List.any_map]
  refine List.any_congr rfl fun v => ?_
  simp [Value.lower, Value.castText, ← like_needle]

theorem sqlMatches_scanned (hf : t.field ∈ [Field.body, .headers, .header])
    (hc : correlated rs r.correlationID = []) :
    sqlMatches U rs t r = true ↔ InStored U t r := by
  simp only [List.mem_cons, List.not_mem_nil, or_false] at hf
  unfold sqlMatches InStored storedTexts
  rcases hf with hf | hf | hf
  · cases r.body <;> simp [hf, scanHit?, scanHit]
  · simp [hf, hc, scanHit]
  · simp [hf, hc, namedHit_blob, scanHit]

theorem evaluateTerm_scanned (hf : t.field ∈ [Field.body, .headers, .header]) (hb : r.body ≠ none) :
    evaluateTerm U t (bodyNeedle U t) r = true ↔ InRaw U t r := by
  simp only [List.mem_cons, List.not_mem_nil, or_false] at hf
  unfold evaluateTerm InRaw rawTexts bodyNeedle
  rcases hf with hf | hf | hf
  · obtain ⟨b, hb⟩ := Option.ne_none_iff_exists'.mp hb
    simp only [hf, hb, bodyContainsFold, Option.getD_some, Option.toList_some, List.mem_singleton,
      exists_eq_left]
    split_ifs with h
    · simp [h]
    · simp
  · simp only [hf, headersAny, List.any_eq_true, Bool.or_eq_true, contains_iff, List.mem_flatMap,
      List.mem_cons]
    constructor
    · rintro ⟨kv, hkv, h | ⟨v, hv, h⟩⟩
      · exact ⟨kv.1, ⟨kv, hkv, .inl rfl⟩, h⟩
      · exact ⟨v, ⟨kv, hkv, .inr hv⟩, h⟩
    · rintro ⟨s, ⟨kv, hkv, rfl | hs⟩, h⟩
      · exact ⟨kv, hkv, .inl h⟩
      · exact ⟨kv, hkv, .inr ⟨s, hs, h⟩⟩
  · simp only [hf, headerValueContains, Headers.values]
    cases r.headers.get? t.headerName <;> simp

variable {s : GoString} {h : Headers}

theorem printable_zero (h : Printable s) : 0 ∉ s := fun hmem =>
  absurd (h 0 hmem).1 (by decide)

theorem printable_lower (h : Printable s) : Printable (s.map lowerByte) := by
  intro b hb
  obtain ⟨c, hc, rfl⟩ := List.mem_map.1 hb
  obtain ⟨hge, hlt⟩ := h c hc
  refine ⟨?_, lowerByte_lt hlt⟩
  rw [lowerByte]
  split_ifs
  · simp only [UInt8.le_iff_toNat_le, UInt8.lt_iff_toNat_lt, UInt8.toNat_add,
      UInt8.reduceToNat] at hge hlt ⊢
    omega
  · exact hge

theorem likeWithin_printable {n : GoString} (hs : Printable s) : likeWithin n s = true ↔ Seen n s :=
  likeWithin_ascii (.inr fun b hb => (hs b hb).2)

/-- `LIKE` reads printable text as it is. -/
theorem like_occurs {n : GoString} (h₀ : 0 ∉ n) (hs : Printable s) :
    likeWithin n (s.map lowerByte) = true ↔ Occurs n s := by
  have hlow := printable_lower hs
  rw [likeWithin_printable hlow, Seen, if_neg h₀, before_of_not_mem (printable_zero hlow)]
  rfl

theorem toLower_of_plain (h : PlainText s) : toLower U s = s.map lowerByte := by
  refine (caseless_of_ascii U fun b hb => ?_).toLower_eq
  have := h b hb
  simp only [plainByte, Bool.and_eq_true, decide_eq_true_iff] at this
  exact this.1.2

/-- The values under a name read back, where no other key reads back as the name. -/
theorem member_values {name : GoString}
    (hkeys : ∀ kv ∈ h.entries, toValidUTF8 kv.1 = name ↔ kv.1 = name) :
    member name (lex .outside (marshalMap h)) = (h.values name).map toValidUTF8 := by
  rw [marshalMap, member_marshal]
  cases h with
  | none => rfl
  | some m =>
    have hmem : ∀ kv, kv ∈ sortMembers m.entries ↔ kv ∈ m.entries :=
      fun kv => List.mem_insertionSort _
    rw [Option.map_some, Option.bind_some, Headers.values, Headers.get?, Headers.entries]
    cases hfind : (sortMembers m.entries).find? fun kv => toValidUTF8 kv.1 = name with
    | none =>
      have hnone : m.entries.lookup name = none := by
        rw [List.lookup_eq_none_iff]
        intro kv hkv
        have hne := List.find?_eq_none.mp hfind kv ((hmem kv).mpr hkv)
        rw [decide_eq_true_iff, hkeys kv hkv] at hne
        exact bne_iff_ne.mpr (Ne.symm hne)
      simp [hnone]
    | some kv =>
      have hkv := (hmem kv).mp (List.mem_of_find?_eq_some hfind)
      have hname : kv.1 = name := by
        have := List.find?_some hfind
        rwa [decide_eq_true_iff, hkeys kv hkv] at this
      rw [← hname, lookup_of_mem hkv]
      rfl

theorem plain_values (hp : PlainMap h.entries) {name v : GoString} (hv : v ∈ h.values name) :
    PlainText v := by
  unfold Headers.values Headers.get? at hv
  cases hl : h.entries.lookup name with
  | none => simp [hl] at hv
  | some vs =>
    rw [hl] at hv
    obtain ⟨l₁, l₂, hentries, -⟩ := List.lookup_eq_some_iff.mp hl
    exact (hp (name, vs) (by simp [hentries])).2 v hv

/-- The values under a name of a plain map read back as they are. -/
theorem member_of_plain (hp : PlainMap h.entries) (name : GoString) :
    member name (lex .outside (marshalMap h)) = h.values name := by
  rw [member_values fun kv hkv => by rw [toValidUTF8_of_plain (hp kv hkv).1]]
  exact (List.map_congr_left fun v hv => toValidUTF8_of_plain (plain_values hp hv)).trans
    (List.map_id _)

theorem printable_headers (hp : PlainMap h.entries) : Printable (marshalMap h) := by
  refine printable_marshal ?_
  cases h <;> exact hp

/-- **Plain texts are searched alike.** -/
theorem inStored_iff_inRaw (hp : PlainFor U t r) : InStored U t r ↔ InRaw U t r := by
  obtain ⟨hf, h₀, hplain, hn⟩ := hp
  have hentries : ∀ h : Headers, (h.map StringMap.entries).getD [] = h.entries :=
    fun h => by cases h <;> rfl
  have hocc := occurs_marshal hn (m := r.headers.map StringMap.entries) (by rwa [hentries])
  rw [hentries] at hocc
  have hone : InStored U t r ↔ Occurs (toLower U t.value) (marshalMap r.headers) := by
    simp [InStored, storedTexts, hf, like_occurs h₀ (printable_headers hplain)]
  rw [hone, InRaw, rawTexts, hf]
  simp only [List.mem_flatMap, List.mem_cons]
  refine hocc.trans ⟨?_, ?_⟩
  · rintro ⟨kv, hkv, h | ⟨v, hv, h⟩⟩
    · exact ⟨kv.1, ⟨kv, hkv, .inl rfl⟩, by rwa [toLower_of_plain (hplain kv hkv).1]⟩
    · exact ⟨v, ⟨kv, hkv, .inr hv⟩, by rwa [toLower_of_plain ((hplain kv hkv).2 v hv)]⟩
  · rintro ⟨s, ⟨kv, hkv, rfl | hs⟩, h⟩
    · rw [toLower_of_plain (hplain kv hkv).1] at h
      exact ⟨kv, hkv, .inl h⟩
    · rw [toLower_of_plain ((hplain kv hkv).2 s hs)] at h
      exact ⟨kv, hkv, .inr ⟨s, hs, h⟩⟩

/-- What is legible is stored as it is. -/
theorem storedTexts_eq (h : LegibleFor U t r) :
    storedTexts t r = rawTexts t r ∧ Legible (toLower U t.value) ∧
      ∀ s ∈ rawTexts t r, Legible s := by
  unfold LegibleFor at h
  unfold storedTexts rawTexts
  split at h
  next hf =>
    rw [hf]
    refine ⟨rfl, h.1, fun s hs => ?_⟩
    have hbody : r.body = some s := Option.mem_toList.1 hs
    rw [hbody] at h
    exact h.2
  next hf =>
    rw [hf]
    obtain ⟨hneedle, hkeys, hvalues⟩ := h
    refine ⟨?_, hneedle, hvalues⟩
    rw [member_values fun kv hkv => by rw [toValidUTF8_of_text (hkeys kv hkv)]]
    exact (List.map_congr_left fun v hv => toValidUTF8_of_text (hvalues v hv).text).trans
      (List.map_id _)
  next => exact h.elim

/-- **In legible texts SQLite finds the needle where it has no letter of another case beyond
ASCII.** -/
theorem inStored_legible (hU : U.SimpleCase) (h : LegibleFor U t r) :
    InStored U t r ↔ ∃ m, Stands U t r m ∧ Caseless U m := by
  obtain ⟨hsame, hneedle, htexts⟩ := storedTexts_eq h
  rw [InStored, hsame]
  constructor
  · rintro ⟨s, hs, hlike⟩
    rw [likeWithin_legible hneedle (htexts s hs).lower, infix_lower_iff hU hneedle (htexts s hs)]
      at hlike
    obtain ⟨m, hrun, hm, hcaseless⟩ := hlike
    exact ⟨m, ⟨hm, s, hs, hrun⟩, hcaseless⟩
  · rintro ⟨m, ⟨hm, s, hs, hrun⟩, hcaseless⟩
    refine ⟨s, hs, ?_⟩
    rw [likeWithin_legible hneedle (htexts s hs).lower, infix_lower_iff hU hneedle (htexts s hs)]
    exact ⟨m, hrun, hm, hcaseless⟩

/-- The case tables with one letter beyond ASCII, `É`. -/
def accents : Unicode := ⟨fun bs => if bs = [0xC3, 0x89] then [0xC3, 0xA9] else bs, id⟩

theorem simpleCase_accents : accents.SimpleCase where
  char := fun bs h => by
    by_cases hbs : bs = [0xC3, 0x89]
    · subst hbs
      exact .inr ⟨by decide, by decide⟩
    · exact .inr (by simp [accents, hbs, h])
  space := fun bs _ => by
    by_cases hbs : bs = [0xC3, 0x89]
    · subst hbs
      decide
    · simp [accents, hbs]
  runeError := rfl

/-- A request with the body `Éb`. -/
def accentedRequest : CapturedRequest :=
  { CapturedRequest.blank (str "r") 0 (str "c") with body := some [0xC3, 0x89, 0x62] }

end Scanned

end HttpCatch.Sinks
