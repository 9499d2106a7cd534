import HttpCatch.SearchQL.CompileSQL
import HttpCatch.SearchQL.Tokens

/-!
# Scans of an index

An index serves `LIKE` on its column only when the pattern starts with a literal. Here the SQL text
itself is read: `sqlTokens` cuts it into names and signs, `indexedLikes` gives the placeholders of
`LIKE` on a column that has an index, and `scansIndex` looks whether the pattern bound to one of
them starts with `%`.

What the texts of the compiler have in them is said piece by piece (`Reads`), since the text of a
clause is put together from literals and the predicates of columns.

* `scansIndex_compileSQL` — the clause for requests scans an index exactly when the flag
  `IsUnindexedScan` says so.
* `scansIndex_compileSQLOrphans` — the clause for orphan events only then.
-/

namespace HttpCatch.SearchQL

open HttpCatch.Go HttpCatch.Sql

/-! ### Reading SQL -/

/-- A byte of a name. -/
def isNameByte (b : UInt8) : Bool :=
  (0x30 ≤ b && b ≤ 0x39) || (0x41 ≤ b && b ≤ 0x5A) || (0x61 ≤ b && b ≤ 0x7A) || b == 0x5F

/-- The name that was read, if any. -/
def flushName (name : GoString) : List GoString := if name = [] then [] else [name]

/-- The loop of the reader: `name` is the part of a name that was read. -/
def sqlTokensFrom : GoString → GoString → List GoString
  | name, [] => flushName name
  | name, b :: s =>
    if isNameByte b then sqlTokensFrom (name ++ [b]) s
    else flushName name ++ (if b = 0x20 then [] else [[b]]) ++ sqlTokensFrom [] s

/-- The names and signs of an SQL text. -/
def sqlTokens (text : String) : List GoString := sqlTokensFrom [] (str text)

/-- The columns that have an index of their own. -/
def indexedColumns : List GoString := [str "host", str "path", str "service", str "request_path"]

/-- The numbers of the placeholders that are the pattern of a `LIKE` on an indexed column; `n`
placeholders came before. -/
def indexedLikes : ℕ → List GoString → List ℕ
  | _, [] => []
  | n, tok :: toks =>
    (if toks.take 2 = [str "LIKE", str "?"] ∧ tok ∈ indexedColumns then [n] else []) ++
      indexedLikes (if tok = str "?" then n + 1 else n) toks

/-- The argument is a pattern that starts with any text. -/
def leadingWildcard : Option Value → Bool
  | some (.text pattern) => pattern.head? = some 0x25
  | _ => false

/-- The SQL has a `LIKE` on an indexed column whose pattern starts with `%`. -/
def scansIndex (sql : String × List Value) : Bool :=
  (indexedLikes 0 (sqlTokens sql.1)).any fun i => leadingWildcard sql.2[i]?

/-! ### Texts put together -/

/-- A text begins with a byte that is in no name. -/
def startsPlain (text : String) : Bool := (str text).head?.any fun b => !isNameByte b

/-- A text ends in a byte that is in no name. -/
def endsPlain (text : String) : Bool := (str text).getLast?.any fun b => !isNameByte b

section Together

variable {a b : String} {toks toks' : List GoString} {m n : ℕ}

theorem str_append (a b : String) : str (a ++ b) = str a ++ str b := by
  rw [str, String.toList_append, List.map_append]
  rfl

theorem endsPlain_append (a : String) (h : endsPlain b = true) : endsPlain (a ++ b) = true := by
  rw [endsPlain] at h ⊢
  rw [str_append]
  cases hb : (str b).getLast? with
  | none =>
    rw [hb] at h
    cases h
  | some c => rwa [List.getLast?_append, hb, Option.some_or, ← hb]

theorem sqlTokensFrom_append_plain (name s : GoString) {c : UInt8} (hc : isNameByte c = false)
    (t : GoString) : sqlTokensFrom name (s ++ c :: t) =
      sqlTokensFrom name s ++ sqlTokensFrom [] (c :: t) := by
  induction s generalizing name with
  | nil =>
    rw [List.nil_append, sqlTokensFrom, sqlTokensFrom, sqlTokensFrom, hc]
    simp [flushName]
  | cons x s ih =>
    rw [List.cons_append, sqlTokensFrom, sqlTokensFrom]
    split_ifs <;> simp [ih]

theorem sqlTokensFrom_plain_append (name s : GoString) {c : UInt8} (hc : isNameByte c = false)
    (t : GoString) : sqlTokensFrom name (s ++ [c] ++ t) =
      sqlTokensFrom name (s ++ [c]) ++ sqlTokensFrom [] t := by
  rw [List.append_assoc, List.singleton_append, sqlTokensFrom_append_plain _ _ hc,
    sqlTokensFrom_append_plain _ _ hc, List.append_assoc]
  congr 1
  simp [sqlTokensFrom, hc, flushName]

/-- Texts are read one after the other where no name goes on from one to the next. -/
theorem sqlTokens_append (h : endsPlain a = true ∨ startsPlain b = true) :
    sqlTokens (a ++ b) = sqlTokens a ++ sqlTokens b := by
  rw [sqlTokens, str_append]
  rcases h with h | h
  · rw [endsPlain] at h
    cases hc : (str a).getLast? with
    | none =>
      rw [hc] at h
      cases h
    | some c =>
      have hplain : isNameByte c = false := by simpa [hc] using h
      obtain ⟨s, hs⟩ := List.getLast?_eq_some_iff.mp hc
      rw [sqlTokens, hs, sqlTokensFrom_plain_append _ _ hplain]
      rfl
  · rw [startsPlain] at h
    cases hb : str b with
    | nil =>
      rw [hb] at h
      cases h
    | cons c t =>
      have hplain : isNameByte c = false := by simpa [hb] using h
      rw [sqlTokensFrom_append_plain _ _ hplain, sqlTokens, sqlTokens, hb]

/-- The next text does not go on with a `LIKE` or its pattern. -/
def opensFresh (toks : List GoString) : Bool :=
  toks.head? ≠ some (str "LIKE") && toks.head? ≠ some (str "?")

theorem indexedLikes_append (h : opensFresh toks' = true) :
    indexedLikes n (toks ++ toks') =
      indexedLikes n toks ++ indexedLikes (n + toks.count (str "?")) toks' := by
  obtain ⟨hlike, hmark⟩ : toks'.head? ≠ some (str "LIKE") ∧ toks'.head? ≠ some (str "?") := by
    simpa [opensFresh] using h
  -- a `LIKE` and its pattern are on one side
  have hwindow : ∀ toks : List GoString, (toks ++ toks').take 2 = [str "LIKE", str "?"] ↔
      toks.take 2 = [str "LIKE", str "?"] := by
    intro toks
    match toks with
    | [] =>
      refine iff_of_false (fun h => hlike ?_) (by simp)
      cases toks' with
      | nil => cases h
      | cons x toks' => exact congrArg some (List.cons.inj h).1
    | [x] =>
      refine iff_of_false (fun h => hmark ?_) (by simp)
      cases toks' with
      | nil => cases (List.cons.inj h).2
      | cons y toks' => exact congrArg some (List.cons.inj (List.cons.inj h).2).1
    | x :: y :: toks => rfl
  induction toks generalizing n with
  | nil => simp [indexedLikes]
  | cons tok toks ih =>
    rw [List.cons_append, indexedLikes, indexedLikes, ih, List.count_cons]
    simp only [hwindow, beq_iff_eq, List.append_assoc]
    congr 3
    split_ifs <;> omega

theorem indexedLikes_add (m n : ℕ) (toks : List GoString) :
    indexedLikes (m + n) toks = (indexedLikes n toks).map (m + ·) := by
  induction toks generalizing n with
  | nil => rfl
  | cons tok toks ih =>
    rw [indexedLikes, indexedLikes, List.map_append, ← ih]
    congr 1
    · split_ifs <;> rfl
    · split_ifs <;> rfl

/-- The pattern of a `LIKE` is one of the placeholders. -/
theorem lt_of_mem_indexedLikes {i : ℕ} (h : i ∈ indexedLikes n toks) :
    i < n + toks.count (str "?") := by
  induction toks generalizing n with
  | nil => cases h
  | cons tok toks ih =>
    rw [indexedLikes, List.mem_append] at h
    rw [List.count_cons]
    rcases h with h | h
    · split_ifs at h with hwindow
      · obtain rfl := List.mem_singleton.mp h
        have hmem : str "?" ∈ toks := List.mem_of_mem_take (by rw [hwindow.1]; simp)
        have := List.count_pos_iff.mpr hmem
        omega
      · cases h
    · have := ih h
      simp only [beq_iff_eq]
      split_ifs at this ⊢ <;> omega

/-- What a piece of text has in it: the placeholders of `LIKE` on an indexed column, and how many
placeholders there are. -/
structure Reads (text : String) (likes : List ℕ) (marks : ℕ) : Prop where
  likes : indexedLikes 0 (sqlTokens text) = likes
  marks : (sqlTokens text).count (str "?") = marks
  fresh : opensFresh (sqlTokens text) = true

theorem Reads.append {l l' : List ℕ} (ha : Reads a l m) (hb : Reads b l' n)
    (h : endsPlain a = true ∨ startsPlain b = true) :
    Reads (a ++ b) (l ++ l'.map (m + ·)) (m + n) where
  likes := by
    rw [sqlTokens_append h, indexedLikes_append hb.fresh, ha.likes, ha.marks, Nat.zero_add,
      ← Nat.add_zero m, indexedLikes_add, hb.likes]
    rfl
  marks := by rw [sqlTokens_append h, List.count_append, ha.marks, hb.marks]
  fresh := by
    rw [sqlTokens_append h]
    cases htoks : sqlTokens a with
    | nil => exact hb.fresh
    | cons tok toks =>
      have := ha.fresh
      rwa [htoks] at this

/-- The arguments of two texts are bound one after the other. -/
theorem scansIndex_append {l l' : List ℕ} {args args' : List Value}
    (ha : Reads a l args.length) (hb : Reads b l' args'.length)
    (h : endsPlain a = true ∨ startsPlain b = true) :
    scansIndex (a ++ b, args ++ args') = (scansIndex (a, args) || scansIndex (b, args')) := by
  have hlt : ∀ i ∈ l, i < args.length := by
    intro i hi
    rw [← ha.likes] at hi
    have := lt_of_mem_indexedLikes hi
    rwa [ha.marks, Nat.zero_add] at this
  have hleft : (l.any fun i => leadingWildcard (args ++ args')[i]?) =
      l.any fun i => leadingWildcard args[i]? := by
    rw [Bool.eq_iff_iff, List.any_eq_true, List.any_eq_true]
    refine exists_congr fun i => and_congr_right fun hi => ?_
    rw [List.getElem?_append_left (hlt i hi)]
  have hright : ((l'.map (args.length + ·)).any fun i => leadingWildcard (args ++ args')[i]?) =
      l'.any fun i => leadingWildcard args'[i]? := by
    rw [List.any_map]
    refine congrArg (fun p => l'.any p) (funext fun i => ?_)
    rw [Function.comp_apply, List.getElem?_append_right (Nat.le_add_right _ _),
      Nat.add_sub_cancel_left]
  rw [scansIndex, scansIndex, scansIndex, (ha.append hb h).likes, ha.likes, hb.likes,
    List.any_append, hleft, hright]

end Together

/-! ### Literals -/

section Literals

variable {l : List Char} {likes : List ℕ} {marks : ℕ}

/-- The bytes of a literal. -/
def literal (l : List Char) : GoString := l.map fun c => UInt8.ofNat c.toNat

/-- `Reads`, for the bytes of a text. -/
def readsBytes (s : GoString) (likes : List ℕ) (marks : ℕ) : Bool :=
  indexedLikes 0 (sqlTokensFrom [] s) = likes && (sqlTokensFrom [] s).count (str "?") = marks &&
    opensFresh (sqlTokensFrom [] s)

theorem reads_iff (text : String) : Reads text likes marks ↔
    readsBytes (str text) likes marks = true := by
  rw [readsBytes, Bool.and_eq_true, Bool.and_eq_true, decide_eq_true_eq, decide_eq_true_eq]
  exact ⟨fun h => ⟨⟨h.likes, h.marks⟩, h.fresh⟩, fun h => ⟨h.1.1, h.1.2, h.2⟩⟩

instance (text : String) (likes : List ℕ) (marks : ℕ) : Decidable (Reads text likes marks) :=
  decidable_of_iff _ (reads_iff text).symm

theorem str_ofList (l : List Char) : str (String.ofList l) = literal l := by
  rw [str, String.toList_ofList]
  rfl

theorem reads_ofList (h : readsBytes (literal l) likes marks = true) :
    Reads (String.ofList l) likes marks := by rwa [reads_iff, str_ofList]

/-- A text that a predicate may follow, since it does not end in a name. -/
structure Ready (text : String) (likes : List ℕ) (marks : ℕ) extends Reads text likes marks where
  ends : endsPlain text = true

/-- A text without placeholders that may follow a predicate, and another one may follow it. -/
structure Glue (text : String) extends Ready text [] 0 where
  starts : startsPlain text = true

theorem ready_ofList (h : (readsBytes (literal l) [] 0 &&
      (literal l).getLast?.any fun b => !isNameByte b) = true) : Ready (String.ofList l) [] 0 := by
  rw [Bool.and_eq_true] at h
  exact ⟨reads_ofList h.1, by rw [endsPlain, str_ofList, h.2]⟩

theorem glue_ofList (h : ((readsBytes (literal l) [] 0 &&
      (literal l).getLast?.any fun b => !isNameByte b) &&
      (literal l).head?.any fun b => !isNameByte b) = true) : Glue (String.ofList l) := by
  rw [Bool.and_eq_true] at h
  exact ⟨ready_ofList h.1, by rw [startsPlain, str_ofList, h.2]⟩

theorem glue_or : Glue " OR " := glue_ofList (by decide)

theorem glue_and : Glue " AND " := glue_ofList (by decide)

theorem glue_union : Glue " UNION " := glue_ofList (by decide)

theorem glue_close : Glue ")" := glue_ofList (by decide)

end Literals

section Pieces

variable {a p text : String} {l l' : List ℕ} {m n : ℕ}

theorem Ready.more (ha : Ready a l m) (h : Ready text [] 0) : Ready (a ++ text) l m :=
  ⟨by simpa using ha.toReads.append h.toReads (.inl ha.ends), endsPlain_append a h.ends⟩

theorem Ready.then (ha : Ready a l m) (hp : Reads p l' n) :
    Reads (a ++ p) (l ++ l'.map (m + ·)) (m + n) :=
  ha.toReads.append hp (.inl ha.ends)

theorem Reads.glue (ha : Reads a l m) (h : Glue text) : Ready (a ++ text) l m :=
  ⟨by simpa using ha.append h.toReads (.inr h.starts), endsPlain_append a h.ends⟩

theorem reads_negateText (t : Term) (h : Reads p l m) : Reads (negateText t p) l m := by
  have hnot : Ready "NOT (" [] 0 := ready_ofList (by decide)
  have hpred : Reads ("NOT (" ++ p) l m := by simpa using hnot.then h
  rw [negateText]
  split_ifs
  · exact (hpred.glue glue_close).toReads
  · exact h

end Pieces

/-! ### The predicates of columns -/

/-- The columns that `indexedPredicate` is for. -/
def indexedTexts : List String :=
  ["cr.host", "cr.path", "cr.service", "host", "path", "service", "e_ff.request_path", "e.service",
    "request_path"]

/-- The columns that `scannedTextLike` and `namedValueText` are for. -/
def scannedTexts : List String :=
  ["cr.body", "cr.headers", "body", "headers", "e_ff.request_body", "e_ff.request_headers",
    "e_ff.response_body", "e_ff.response_headers", "e_h.request_headers", "e_h.response_headers",
    "e.request_headers", "e.response_headers", "request_body", "request_headers", "response_body",
    "response_headers"]

/-- The placeholder of the predicate of an indexed column, if it is the pattern of a `LIKE`. -/
def columnLike (t : Term) : List ℕ := if t.wildcard = .wildcardNone then [] else [0]

section Predicates

variable (col : String)

theorem reads_indexedPredicate (t : Term) (h : col ∈ indexedTexts) :
    Reads (indexedPredicate col t).1 (columnLike t) 1 := by
  have hcols : ∀ col ∈ indexedTexts,
      Reads (col ++ " LIKE ? ESCAPE '\\'") [0] 1 ∧ Reads (col ++ " = ?") [] 1 := by
    decide
  obtain ⟨hlike, heq⟩ := hcols col h
  rw [indexedPredicate, columnLike]
  cases t.wildcard with
  | wildcardNone => exact heq
  | wildcardPrefix => exact hlike
  | wildcardSubstring => exact hlike

theorem reads_scannedText (h : col ∈ scannedTexts) : Reads col [] 0 := by
  revert col
  decide

theorem reads_scannedTextLike (h : col ∈ scannedTexts) : Reads (scannedTextLike col) [] 1 := by
  have hopen : Ready "LOWER(CAST(" [] 0 := ready_ofList (by decide)
  have hlike : Reads " AS TEXT)) LIKE ? ESCAPE '\\'" [] 1 := reads_ofList (by decide)
  have hplain : startsPlain " AS TEXT)) LIKE ? ESCAPE '\\'" = true := by decide
  exact (hopen.then (reads_scannedText col h)).append hlike (.inr hplain)

theorem reads_namedValueText (h : col ∈ scannedTexts) : Reads (namedValueText col) [] 2 := by
  have hopen : Ready "EXISTS (SELECT 1 FROM json_each(json_extract(" [] 0 := ready_ofList rfl
  have hlike : Reads ", ?)) WHERE LOWER(value) LIKE ? ESCAPE '\\')" [] 2 := reads_ofList rfl
  have hplain : startsPlain ", ?)) WHERE LOWER(value) LIKE ? ESCAPE '\\')" = true := by
    decide
  exact (hopen.then (reads_scannedText col h)).append hlike (.inr hplain)

end Predicates

/-! ### The clauses of terms -/

/-- The placeholders of a clause for requests that are patterns of `LIKE` on an indexed column. -/
def requestLikes (t : Term) : List ℕ :=
  if t.wildcard = .wildcardNone then []
  else
    match t.field with
    | .freeform => [0, 1, 2, 5]
    | .host | .path | .service => [0]
    | _ => []

/-- Those of a clause for orphan events. -/
def orphanLikes (t : Term) : List ℕ :=
  if t.wildcard = .wildcardNone then []
  else
    match t.field with
    | .freeform => [0, 1]
    | .service => [0]
    | _ => []

section Clauses

variable (U : Unicode) (t : Term)

theorem ready_select : Ready "SELECT id FROM captured_requests WHERE " [] 0 := ready_ofList rfl

theorem ready_selectEvents : Ready "SELECT id FROM events WHERE " [] 0 := ready_ofList rfl

theorem reads_freeformPredicate : Reads (freeformPredicate U t).1
    (if t.wildcard = .wildcardNone then [] else [0, 1, 2, 5]) 10 := by
  have hopen : Ready "cr.id IN (" [] 0 := ready_ofList (by decide)
  have hjoin : Ready "SELECT cr_ff.id FROM captured_requests cr_ff JOIN events e_ff " [] 0 :=
    ready_ofList rfl
  have hon : Ready "ON e_ff.correlation_id = cr_ff.correlation_id " [] 0 := ready_ofList rfl
  have hwhere : Ready "WHERE " [] 0 := ready_ofList (by decide)
  have hhost := (hopen.more ready_select).then (reads_indexedPredicate "host" t (by decide))
  have hpath := ((hhost.glue glue_union).more ready_select).then
    (reads_indexedPredicate "path" t (by decide))
  have hservice := ((hpath.glue glue_union).more ready_select).then
    (reads_indexedPredicate "service" t (by decide))
  have hbody := ((hservice.glue glue_union).more ready_select).then
    (reads_scannedTextLike "body" (by decide))
  have hheaders := ((hbody.glue glue_union).more ready_select).then
    (reads_scannedTextLike "headers" (by decide))
  have heventPath := ((((hheaders.glue glue_union).more hjoin).more hon).more hwhere).then
    (reads_indexedPredicate "e_ff.request_path" t (by decide))
  have hevents := (((((((heventPath.glue glue_or).then
    (reads_scannedTextLike "e_ff.request_body" (by decide))).glue glue_or).then
    (reads_scannedTextLike "e_ff.request_headers" (by decide))).glue glue_or).then
    (reads_scannedTextLike "e_ff.response_body" (by decide))).glue glue_or).then
    (reads_scannedTextLike "e_ff.response_headers" (by decide))
  have hall := (hevents.glue glue_close).toReads
  rw [columnLike] at hall
  split_ifs at hall ⊢ <;> exact hall

theorem reads_freeformOrphanPredicate : Reads (freeformOrphanPredicate U t).1
    (if t.wildcard = .wildcardNone then [] else [0, 1]) 6 := by
  have hopen : Ready "e.id IN (" [] 0 := ready_ofList (by decide)
  have hservice := (hopen.more ready_selectEvents).then
    (reads_indexedPredicate "service" t (by decide))
  have hpath := ((hservice.glue glue_union).more ready_selectEvents).then
    (reads_indexedPredicate "request_path" t (by decide))
  have hreqBody := ((hpath.glue glue_union).more ready_selectEvents).then
    (reads_scannedTextLike "request_body" (by decide))
  have hreqHeaders := ((hreqBody.glue glue_union).more ready_selectEvents).then
    (reads_scannedTextLike "request_headers" (by decide))
  have hrespBody := ((hreqHeaders.glue glue_union).more ready_selectEvents).then
    (reads_scannedTextLike "response_body" (by decide))
  have hrespHeaders := ((hrespBody.glue glue_union).more ready_selectEvents).then
    (reads_scannedTextLike "response_headers" (by decide))
  have hall := (hrespHeaders.glue glue_close).toReads
  rw [columnLike] at hall
  split_ifs at hall ⊢ <;> exact hall

theorem ready_paren : Ready "(" [] 0 := ready_ofList (by decide)

/-- The start of the conditions on an event of a request. -/
theorem ready_someEvent : Ready "EXISTS (SELECT 1 FROM events e_h " [] 0 := ready_ofList rfl

theorem ready_sameRequest : Ready "WHERE e_h.correlation_id = cr.correlation_id " [] 0 :=
  ready_ofList rfl

theorem ready_andParen : Ready "AND (" [] 0 := ready_ofList (by decide)

theorem reads_headersAnyPredicate : Reads (headersAnyPredicate U t).1 [] 3 := by
  have hclose : Glue ")))" := glue_ofList (by decide)
  have hrequest := ready_paren.then (reads_scannedTextLike "cr.headers" (by decide))
  have hevent := ((((hrequest.glue glue_or).more ready_someEvent).more ready_sameRequest).more
    ready_andParen).then (reads_scannedTextLike "e_h.request_headers" (by decide))
  have hall := (hevent.glue glue_or).then (reads_scannedTextLike "e_h.response_headers" (by decide))
  exact (hall.glue hclose).toReads

theorem reads_headerNamedPredicate : Reads (headerNamedPredicate U t).1 [] 6 := by
  have hclose : Glue "))" := glue_ofList (by decide)
  have hrequest := ready_paren.then (reads_namedValueText "cr.headers" (by decide))
  have hevent := ((((hrequest.glue glue_or).more ready_someEvent).more ready_sameRequest).more
    ready_andParen).then (reads_namedValueText "e_h.request_headers" (by decide))
  have hall := (hevent.glue glue_or).then (reads_namedValueText "e_h.response_headers" (by decide))
  exact ((hall.glue hclose).toReads.glue glue_close).toReads

/-- **What the clause of a term has in it**, in the `WHERE` of requests. -/
theorem reads_compileTermSQL :
    Reads (compileTermSQL U t).1 (requestLikes t) (compileTermSQL U t).2.length := by
  have hcolumn : ∀ col ∈ indexedTexts, Reads (negateText t (indexedPredicate col t).1)
      (columnLike t) 1 := fun col h => reads_negateText t (reads_indexedPredicate col t h)
  have hnone : Reads "" [] 0 := reads_ofList (by decide)
  have hmethod : Reads "cr.method = ?" [] 1 := reads_ofList (by decide)
  have hsource : Reads "cr.source_ip = ?" [] 1 := reads_ofList (by decide)
  have hcorrelation : Reads "cr.correlation_id = ?" [] 1 := reads_ofList (by decide)
  rw [compileTermSQL, requestLikes]
  cases t.field <;> simp only [ite_self]
  case freeform => exact reads_negateText t (reads_freeformPredicate U t)
  case host => exact hcolumn "cr.host" (by decide)
  case path => exact hcolumn "cr.path" (by decide)
  case service => exact hcolumn "cr.service" (by decide)
  case body => exact reads_negateText t (reads_scannedTextLike "cr.body" (by decide))
  case headers => exact reads_negateText t (reads_headersAnyPredicate U t)
  case header => exact reads_negateText t (reads_headerNamedPredicate U t)
  case method => exact reads_negateText t hmethod
  case sourceIP => exact reads_negateText t hsource
  case correlationID => exact reads_negateText t hcorrelation
  case status => exact hnone
  case hasEvents => exact hnone

/-- What it has in it in the clause of orphan events. -/
theorem reads_compileTermOrphans {c : String × List Value} (h : compileTermOrphans U t = some c) :
    Reads c.1 (orphanLikes t) c.2.length := by
  have hcorrelation : Reads "e.correlation_id = ?" [] 1 := reads_ofList (by decide)
  have hexact : Reads "e.type = 'response' AND e.status = ?" [] 1 := reads_ofList rfl
  have hclass : Reads "e.type = 'response' AND e.status BETWEEN ? AND ?" [] 2 := reads_ofList rfl
  rw [compileTermOrphans] at h
  rw [orphanLikes]
  cases hf : t.field <;> simp only [hf, ite_self, reduceCtorEq] at h ⊢
  case freeform =>
    obtain rfl := Option.some.inj h
    exact reads_negateText t (reads_freeformOrphanPredicate U t)
  case service =>
    obtain rfl := Option.some.inj h
    exact reads_negateText t (reads_indexedPredicate "e.service" t (by decide))
  case headers =>
    obtain rfl := Option.some.inj h
    have hall := ((ready_paren.then (reads_scannedTextLike "e.request_headers" (by decide))).glue
      glue_or).then (reads_scannedTextLike "e.response_headers" (by decide))
    exact reads_negateText t (hall.glue glue_close).toReads
  case header =>
    obtain rfl := Option.some.inj h
    have hall := ((ready_paren.then (reads_namedValueText "e.request_headers" (by decide))).glue
      glue_or).then (reads_namedValueText "e.response_headers" (by decide))
    exact reads_negateText t (hall.glue glue_close).toReads
  case correlationID =>
    obtain rfl := Option.some.inj h
    exact reads_negateText t hcorrelation
  case status =>
    split at h
    · cases h
    · split_ifs at h
      · obtain rfl := Option.some.inj h
        exact reads_negateText t hexact
      · obtain rfl := Option.some.inj h
        exact reads_negateText t hclass

end Clauses

/-! ### The arguments of the clauses -/

/-- Only a value without a wildcard is empty. -/
def Literal (t : Term) : Prop := t.wildcard = .wildcardNone ∨ t.value ≠ []

theorem parseValue_literal {s : GoString} {v : GoString × Wildcard × Bool}
    (h : parseValue s = .ok v) : v.2.1 = .wildcardNone ∨ v.1 ≠ [] := by
  rcases parseValue_cases h with ⟨inner, -, rfl⟩ | ⟨l, t, text, -, hbare, rfl⟩
  · exact .inl rfl
  · exact .inr hbare.ne_nil

section Scans

variable {U : Unicode} {t : Term}

theorem finishTerm_literal {raw : GoString} {t' : Term} (h : finishTerm U raw t = .ok t')
    (hs : t.field.structured = true → t.wildcard = .wildcardNone) (ht : Literal t) :
    Literal t' := by
  rw [finishTerm] at h
  split at h
  case h_1 hf =>
    split_ifs at h
    obtain rfl := Except.ok.inj h
    exact .inl (hs (by rw [hf]; rfl))
  case h_2 hf =>
    split at h
    · cases h
    · obtain rfl := Except.ok.inj h
      exact ht
  case h_3 hf =>
    split_ifs at h <;> obtain rfl := Except.ok.inj h <;> exact ht
  case h_4 =>
    obtain rfl := Except.ok.inj h
    exact ht

theorem parseBody_literal {raw tok : GoString} {neg : Bool} (h : parseBody U raw tok neg = .ok t) :
    Literal t := by
  rcases token_cases tok with hbare | ⟨key, valueRaw, rfl, hc, hq⟩
  · rw [parseBody_bare hbare] at h
    split at h
    · cases h
    · next v hv =>
      obtain rfl := Except.ok.inj h
      exact parseValue_literal hv
  · have hkey : key ≠ [] := by
      rintro rfl
      rw [parseBody_colon hq hc, if_pos rfl] at h
      cases h
    have hvalue : valueRaw ≠ [] := by
      rintro rfl
      rw [parseBody_colon hq hc, if_neg hkey, if_pos rfl] at h
      cases h
    rw [parseBody_colon hq hc, if_neg hkey, if_neg hvalue] at h
    split at h
    · split_ifs at h
      rw [parseHeaderTerm] at h
      split_ifs at h
      split at h
      · cases h
      · next v hv =>
        obtain rfl := Except.ok.inj h
        exact parseValue_literal hv
    · next field hfield =>
      split at h
      · cases h
      · next v hv =>
        split_ifs at h with hw
        refine finishTerm_literal h (fun hs => ?_) (parseValue_literal hv)
        simpa [Term.make, show field.structured = true from hs] using hw

/-- **The terms that `parse` makes have a text for each wildcard.** -/
theorem parse_literal {s : GoString} {q : Query} (h : parse U s = .ok q) :
    ∀ t ∈ q.terms, Literal t := by
  obtain ⟨tokens, -, hq⟩ := parse_ok h
  generalize q.terms = terms at hq
  induction hq with
  | nil => exact List.forall_mem_nil _
  | cons htok _ ih =>
    refine List.forall_mem_cons.mpr ⟨?_, ih⟩
    rw [parseToken] at htok
    split_ifs at htok
    all_goals exact parseBody_literal htok

/-- An escaped text is no wildcard. -/
theorem head_escapeLike {v : GoString} (h : v ≠ []) (u : GoString) :
    (escapeLike v ++ u).head? ≠ some 0x25 := by
  obtain ⟨b, v, rfl⟩ := List.exists_cons_of_ne_nil h
  rw [escapeLike, List.flatMap_cons, escape]
  split_ifs with hb
  · simp
  · have : b ≠ 0x25 := fun h => hb (.inr (.inl h))
    simpa using this

/-- The pattern of an indexed column. -/
theorem leadingWildcard_indexedPredicate (ht : Literal t) (col : String)
    (hw : t.wildcard ≠ .wildcardNone) :
    leadingWildcard (some (indexedPredicate col t).2) =
      decide (t.wildcard = .wildcardSubstring) := by
  rw [indexedPredicate]
  cases hwild : t.wildcard with
  | wildcardNone => exact absurd hwild hw
  | wildcardPrefix =>
    simpa [leadingWildcard] using head_escapeLike (ht.resolve_left hw) (str "%")
  | wildcardSubstring => rfl

/-- A term asks for a substring of an indexed column. -/
def Term.unindexed (t : Term) : Bool :=
  t.wildcard = .wildcardSubstring && (t.field = .freeform || t.field.indexed)

theorem scansIndex_compileTermSQL (U : Unicode) (ht : Literal t) :
    scansIndex (compileTermSQL U t) = t.unindexed := by
  rw [scansIndex, (reads_compileTermSQL U t).likes, requestLikes, Term.unindexed]
  by_cases hw : t.wildcard = .wildcardNone
  · simp [hw]
  · have hcol := fun col => leadingWildcard_indexedPredicate ht col hw
    rw [if_neg hw, compileTermSQL]
    cases hf : t.field <;> simp [hcol, freeformPredicate, Field.indexed]

theorem scansIndex_compileTermOrphans {c : String × List Value} (ht : Literal t)
    (h : compileTermOrphans U t = some c) (hscan : scansIndex c = true) : t.unindexed = true := by
  rw [scansIndex, (reads_compileTermOrphans U t h).likes, orphanLikes] at hscan
  by_cases hw : t.wildcard = .wildcardNone
  · simp [hw] at hscan
  · have hcol := fun col => leadingWildcard_indexedPredicate ht col hw
    rw [if_neg hw] at hscan
    rw [compileTermOrphans] at h
    rw [Term.unindexed]
    cases hf : t.field <;> simp only [hf, List.any_nil, Bool.false_eq_true] at h hscan
    case freeform =>
      obtain rfl := Option.some.inj h
      simpa [hcol, freeformOrphanPredicate] using hscan
    case service =>
      obtain rfl := Option.some.inj h
      simpa [hcol, Field.indexed] using hscan

/-- Clauses joined by `AND` scan an index when one of them does. -/
theorem scansIndex_joinClauses {cs : List (String × List Value)}
    (h : ∀ c ∈ cs, ∃ l, Reads c.1 l c.2.length) :
    (∃ l, Reads (joinClauses " AND " cs).1 l (joinClauses " AND " cs).2.length) ∧
      scansIndex (joinClauses " AND " cs) = cs.any scansIndex := by
  induction cs with
  | nil => exact ⟨⟨[], reads_ofList (by decide)⟩, by decide⟩
  | cons c cs ih =>
    obtain ⟨⟨l, hc⟩, hcs⟩ := List.forall_mem_cons.mp h
    obtain ⟨⟨l', hrest⟩, hany⟩ := ih hcs
    cases cs with
    | nil =>
      have hone : joinClauses " AND " [c] = c := by
        simp [joinClauses]
      rw [hone]
      exact ⟨⟨l, hc⟩, by simp⟩
    | cons c' cs =>
      have hjoin : joinClauses " AND " (c :: c' :: cs) =
          (c.1 ++ " AND " ++ (joinClauses " AND " (c' :: cs)).1,
            c.2 ++ (joinClauses " AND " (c' :: cs)).2) := by
        simp [joinClauses, String.intercalate_cons_cons]
      have hready := hc.glue glue_and
      have hand : scansIndex (c.1 ++ " AND ", c.2) = scansIndex c := by
        rw [scansIndex, scansIndex, hready.likes, hc.likes]
      rw [hjoin]
      refine ⟨⟨l ++ l'.map (c.2.length + ·), ?_⟩, ?_⟩
      · rw [List.length_append]
        exact hready.toReads.append hrest (.inl hready.ends)
      · rw [scansIndex_append hready.toReads hrest (.inl hready.ends), hand, List.any_cons, ← hany]

variable {q : Query}

theorem isUnindexedScan_eq (q : Query) : q.isUnindexedScan = q.terms.any Term.unindexed := rfl

/-- **The clause for requests scans an index exactly when the flag says so.** -/
theorem scansIndex_compileSQL (U : Unicode) (h : ∀ t ∈ q.terms, Literal t) :
    scansIndex (compileSQL U q) = q.isUnindexedScan := by
  have hreads : ∀ c ∈ (q.terms.map (compileTermSQL U)).filter (fun c => c.1 ≠ ""),
      ∃ l, Reads c.1 l c.2.length := by
    intro c hc
    obtain ⟨t, -, rfl⟩ := List.mem_map.mp (List.mem_of_mem_filter hc)
    exact ⟨_, reads_compileTermSQL U t⟩
  rw [compileSQL, (scansIndex_joinClauses hreads).2, isUnindexedScan_eq, Bool.eq_iff_iff,
    List.any_eq_true, List.any_eq_true]
  constructor
  · rintro ⟨c, hc, hscan⟩
    obtain ⟨t, ht, rfl⟩ := List.mem_map.mp (List.mem_of_mem_filter hc)
    exact ⟨t, ht, by rw [← scansIndex_compileTermSQL U (h t ht), hscan]⟩
  · rintro ⟨t, ht, hscan⟩
    rw [← scansIndex_compileTermSQL U (h t ht)] at hscan
    refine ⟨_, List.mem_filter.mpr ⟨List.mem_map_of_mem ht, ?_⟩, hscan⟩
    rw [decide_eq_true_eq]
    intro hempty
    have hnone : Reads "" [] 0 := reads_ofList (by decide)
    rw [scansIndex, hempty, hnone.likes] at hscan
    cases hscan

/-- **The clause for orphan events scans an index only then.** -/
theorem scansIndex_compileSQLOrphans (h : ∀ t ∈ q.terms, Literal t)
    (hscan : scansIndex (compileSQLOrphans U q) = true) : q.isUnindexedScan = true := by
  have hreads : ∀ c ∈ q.terms.filterMap (compileTermOrphans U), ∃ l, Reads c.1 l c.2.length := by
    intro c hc
    obtain ⟨t, -, ht⟩ := List.mem_filterMap.mp hc
    exact ⟨_, reads_compileTermOrphans U t ht⟩
  rw [compileSQLOrphans, (scansIndex_joinClauses hreads).2, List.any_eq_true] at hscan
  obtain ⟨c, hc, hscan⟩ := hscan
  obtain ⟨t, ht, hcompile⟩ := List.mem_filterMap.mp hc
  rw [isUnindexedScan_eq, List.any_eq_true]
  exact ⟨t, ht, scansIndex_compileTermOrphans (h t ht) hcompile hscan⟩

end Scans

end HttpCatch.SearchQL
