import HttpCatch.Library.SqlQuery
import HttpCatch.SearchQL.CompileSQL

/-!
# The conditions that queries compile to

For each function of the SQL compiler, the syntax tree its text stands for. The theorems
`compileSQL_eq`, `compileSQLHaving_eq` and `compileSQLOrphans_eq` say that the text and
the arguments returned by the compiler are those of the tree, so that a statement about
what SQLite makes of the text is one about `Cond.eval` of the tree, and each placeholder
has its argument (`Cond.fill_args`).

* `sameShape_whereCond`, … — the text depends only on the fields, wildcards and signs of
  the terms, the form of a status filter and the flag of a `has_events` term
  (`SameShape`), not on any value.
-/

namespace HttpCatch.SearchQL

open HttpCatch.Go HttpCatch.Sql

/-! ### Columns -/

/-- The words of a statement that several modules use. -/
inductive Common where
  | id
  | timestamp
  | service
  | method
  | path
  | correlationID
  | sourceIP
  | type
  | status
  | cr
  | e
  | zero
  | one
  | and

/-- The text of a word. -/
def Common.text : Common → String
  | .id => "id"
  | .timestamp => "timestamp"
  | .service => "service"
  | .method => "method"
  | .path => "path"
  | .correlationID => "correlation_id"
  | .sourceIP => "source_ip"
  | .type => "type"
  | .status => "status"
  | .cr => "cr"
  | .e => "e"
  | .zero => "0"
  | .one => "1"
  | .and => " AND "

theorem plain_of (w : Common) : '?' ∉ w.text.toList := by
  cases w <;> exact plain_ofList (by decide)

/-- A column of the captured request at hand. -/
def cr (name : String) (h : '?' ∉ name.toList := by exact plain_ofList (by decide)) : Column :=
  ⟨some ⟨"cr", plain_ofList (by decide)⟩, ⟨name, h⟩⟩

/-- A column of the event at hand. -/
def e (name : String) (h : '?' ∉ name.toList := by exact plain_ofList (by decide)) : Column :=
  ⟨some ⟨"e", plain_ofList (by decide)⟩, ⟨name, h⟩⟩

/-- A column of an event in a subquery over header names. -/
def eH (name : String) (h : '?' ∉ name.toList := by exact plain_ofList (by decide)) : Column :=
  ⟨some ⟨"e_h", plain_ofList (by decide)⟩, ⟨name, h⟩⟩

/-- A column of a captured request in the join of the freeform subquery. -/
def crFf (name : String) (h : '?' ∉ name.toList := by exact plain_ofList (by decide)) : Column :=
  ⟨some ⟨"cr_ff", plain_ofList (by decide)⟩, ⟨name, h⟩⟩

/-- A column of an event in the join of the freeform subquery. -/
def eFf (name : String) (h : '?' ∉ name.toList := by exact plain_ofList (by decide)) : Column :=
  ⟨some ⟨"e_ff", plain_ofList (by decide)⟩, ⟨name, h⟩⟩

/-- A column without a qualifier. -/
def bare (name : String) (h : '?' ∉ name.toList := by exact plain_ofList (by decide)) : Column :=
  ⟨none, ⟨name, h⟩⟩

/-- `captured_requests`. -/
def capturedRequests : Word := ⟨"captured_requests", plain_ofList (by decide)⟩

/-- `events`. -/
def events : Word := ⟨"events", plain_ofList (by decide)⟩

/-- ` AND `. -/
def andWord : Word := ⟨" AND ", plain_of .and⟩

/-! ### Conditions -/

/-- `indexedPredicate`. -/
def indexedCond (c : Column) (t : Term) : Cond :=
  match t.wildcard with
  | .wildcardPrefix => .like (.col c) (.param (.text (escapeLike t.value ++ str "%")))
  | .wildcardSubstring => .like (.col c) (.param (.text (str "%" ++ escapeLike t.value ++ str "%")))
  | .wildcardNone => .cmp .eq (.col c) (.param (.text t.value))

/-- `column = value`. -/
def exactCond (c : Column) (t : Term) : Cond := .cmp .eq (.col c) (.param (.text t.value))

/-- The condition, negated when the term is. -/
def negate (t : Term) (c : Cond) : Cond := if t.negated then .not c else c

section Terms

variable (U : Unicode)

/-- `scannedTextPredicate`. -/
def scannedCond (c : Column) (t : Term) : Cond :=
  .like (.lower (.castText (.col c))) (.param (.text (likeNeedle U t)))

/-- `SELECT id FROM tab WHERE cond`. -/
def idsWhere (tab : Word) (c : Cond) : Select := .from (.col (bare "id")) (.table tab) c

/-- The condition of `freeformPredicate` around the conditions of its arms. -/
def freeformUnion (host path service body headers eventPath reqBody reqHeaders respBody
      respHeaders : Cond) : Cond :=
  .within (.col (cr "id")) (.union (.union (.union (.union (.union
    (idsWhere capturedRequests host) (idsWhere capturedRequests path))
    (idsWhere capturedRequests service)) (idsWhere capturedRequests body))
    (idsWhere capturedRequests headers))
    (.from (.col (crFf "id"))
      (.join (.alias capturedRequests ⟨"cr_ff", plain_ofList (by decide)⟩)
        (.alias events ⟨"e_ff", plain_ofList (by decide)⟩)
        (.cmp .eq (.col (eFf "correlation_id")) (.col (crFf "correlation_id"))))
      (.or (.or (.or (.or eventPath reqBody) reqHeaders) respBody) respHeaders)))

/-- `freeformPredicate`. -/
def freeformCond (t : Term) : Cond :=
  freeformUnion (indexedCond (bare "host") t) (indexedCond (bare "path") t)
    (indexedCond (bare "service") t) (scannedCond U (bare "body") t)
    (scannedCond U (bare "headers") t) (indexedCond (eFf "request_path") t)
    (scannedCond U (eFf "request_body") t) (scannedCond U (eFf "request_headers") t)
    (scannedCond U (eFf "response_body") t) (scannedCond U (eFf "response_headers") t)

/-- `SELECT 1 FROM events e_h WHERE e_h.correlation_id = cr.correlation_id AND (…)`, as a
condition that there is such an event. -/
def someEvent (c : Cond) : Cond :=
  .exist
    (.from (.lit ⟨"1", plain_ofList (by decide)⟩ (.int 1))
      (.alias events ⟨"e_h", plain_ofList (by decide)⟩)
    (.and andWord (.cmp .eq (.col (eH "correlation_id")) (.col (cr "correlation_id"))) (.paren c)))

/-- `headersAnyPredicate`. -/
def headersAnyCond (t : Term) : Cond :=
  .paren (.or (scannedCond U (cr "headers") t)
    (someEvent (.or (scannedCond U (eH "request_headers") t)
      (scannedCond U (eH "response_headers") t))))

/-- Some value of the header that the term names, in the JSON text of a column, has the
value of the term in it. -/
def namedValueCond (c : Column) (t : Term) : Cond :=
  .exist
    (.from (.lit ⟨"1", plain_ofList (by decide)⟩ (.int 1))
      (.jsonEach (.col c) (.param (.text (jsonHeaderPath t.headerName))))
    (.like (.lower (.col (bare "value"))) (.param (.text (likeNeedle U t)))))

/-- `headerNamedPredicate`. -/
def headerNamedCond (t : Term) : Cond :=
  .paren (.or (namedValueCond U (cr "headers") t)
    (someEvent (.or (namedValueCond U (eH "request_headers") t)
      (namedValueCond U (eH "response_headers") t))))

/-- The condition of a term before its sign is looked at; none where the term adds nothing to
`WHERE`. -/
def positiveCond (t : Term) : Option Cond :=
  match t.field with
  | .freeform => some (freeformCond U t)
  | .host => some (indexedCond (cr "host") t)
  | .path => some (indexedCond (cr "path") t)
  | .service => some (indexedCond (cr "service") t)
  | .body => some (scannedCond U (cr "body") t)
  | .headers => some (headersAnyCond U t)
  | .header => some (headerNamedCond U t)
  | .method => some (exactCond (cr "method") t)
  | .sourceIP => some (exactCond (cr "source_ip") t)
  | .correlationID => some (exactCond (cr "correlation_id") t)
  | .status | .hasEvents => none

/-- `compileTermSQL`. -/
def termCond (t : Term) : Option Cond := (positiveCond U t).map (negate t)

/-- `CompileSQL`. -/
def whereCond (q : Query) : Option Cond := conj andWord (q.terms.filterMap (termCond U))

/-- `MAX(CASE WHEN e.type = 'response' THEN e.status ELSE NULL END)`. -/
def maxStatus : Scalar :=
  .max
    (.caseWhen (.cmp .eq (.col (e "type"))
      (.lit ⟨"'response'", plain_ofList (by decide)⟩ (.text (str "response"))))
    (.col (e "status")) (.lit ⟨"NULL", plain_ofList (by decide)⟩ .null))

/-- A status filter, as a condition on a scalar. -/
def statusCond (s : Scalar) (sf : StatusFilter) : Cond :=
  if sf.exact ≠ 0 then .cmp .eq s (.param (.int sf.exact))
  else .between s (.param (.int sf.classRange.1)) (.param (.int sf.classRange.2))

/-- `COUNT(e.id) > 0`, or `COUNT(e.id) = 0`. -/
def hasEventsCond (b : Bool) : Cond :=
  .cmp (if b then .gt else .eq) (.count (e "id")) (.lit ⟨"0", plain_ofList (by decide)⟩ (.int 0))

/-- The condition of a term over its group, before its sign is looked at. -/
def positiveHaving (t : Term) : Option Cond :=
  match t.field, t.statusFilter, t.hasEvents with
  | .status, some sf, _ => some (statusCond maxStatus sf)
  | .hasEvents, _, some b => some (hasEventsCond b)
  | _, _, _ => none

/-- The clause of a term in `CompileSQLHaving`. -/
def termHaving (t : Term) : Option Cond := (positiveHaving t).map (negate t)

/-- `CompileSQLHaving`. -/
def havingCond (q : Query) : Option Cond := conj andWord (q.terms.filterMap termHaving)

/-- The condition of `freeformOrphanPredicate` around the conditions of its arms. -/
def freeformOrphanUnion (service path reqBody reqHeaders respBody respHeaders : Cond) : Cond :=
  .within (.col (e "id")) (.union (.union (.union (.union (.union
    (idsWhere events service) (idsWhere events path)) (idsWhere events reqBody))
      (idsWhere events reqHeaders))
    (idsWhere events respBody)) (idsWhere events respHeaders))

/-- `freeformOrphanPredicate`. -/
def freeformOrphanCond (t : Term) : Cond :=
  freeformOrphanUnion (indexedCond (bare "service") t) (indexedCond (bare "request_path") t)
    (scannedCond U (bare "request_body") t) (scannedCond U (bare "request_headers") t)
    (scannedCond U (bare "response_body") t) (scannedCond U (bare "response_headers") t)

/-- The condition of a term on an orphan, before its sign is looked at. -/
def positiveOrphan (t : Term) : Option Cond :=
  match t.field with
  | .service => some (indexedCond (e "service") t)
  | .correlationID => some (exactCond (e "correlation_id") t)
  | .headers =>
    some (.paren (.or (scannedCond U (e "request_headers") t)
      (scannedCond U (e "response_headers") t)))
  | .header =>
    some (.paren (.or (namedValueCond U (e "request_headers") t)
      (namedValueCond U (e "response_headers") t)))
  | .status => t.statusFilter.map fun sf =>
      .and andWord (.cmp .eq (.col (e "type"))
        (.lit ⟨"'response'", plain_ofList (by decide)⟩ (.text (str "response"))))
        (statusCond (.col (e "status")) sf)
  | .freeform => some (freeformOrphanCond U t)
  | .host | .path | .body | .method | .sourceIP | .hasEvents => none

/-- The clause of a term in `CompileSQLOrphans`. -/
def termOrphan (t : Term) : Option Cond := (positiveOrphan U t).map (negate t)

/-- `CompileSQLOrphans`. -/
def orphanCond (q : Query) : Option Cond := conj andWord (q.terms.filterMap (termOrphan U))

end Terms

/-! ### The compilers return the text and the arguments of the trees -/

/-- The text and the arguments of a condition. -/
def sql (c : Cond) : String × List Value := (c.render, c.args)

variable {U : Unicode}

variable {col : String} {t t' : Term} {c : Cond}

theorem indexedPredicate_eq (c : Column) (t : Term) (h : text c.tokens = col) :
    (indexedPredicate col t).1 = (indexedCond c t).render ∧
      (indexedCond c t).args = [(indexedPredicate col t).2] := by
  subst h
  unfold indexedPredicate indexedCond
  cases t.wildcard
  all_goals
    refine ⟨?_, rfl⟩
    simp only [Cond.render, Cond.tokens, Scalar.tokens, text_append, text_cons]
    rfl

theorem scannedTextLike_eq (c : Column) (t : Term) (h : text c.tokens = col) :
    scannedTextLike col = (scannedCond U c t).render := by
  subst h
  simp only [scannedTextLike, scannedCond, Cond.render, Cond.tokens, Scalar.tokens,
    text_append, text_cons]
  apply String.toList_inj.mp
  simp only [String.toList_append, List.append_assoc]
  rfl

theorem text_idsWhere {s : String} (tab : Word) (c : Cond)
    (h : "SELECT id FROM " ++ tab.name ++ " WHERE " = s) :
    text (idsWhere tab c).tokens = s ++ c.render := by
  subst h
  apply String.toList_inj.mp
  simp only [idsWhere, Select.tokens, Scalar.tokens, Source.tokens, Cond.render, text_append,
    text_cons, String.toList_append, List.append_assoc]
  rfl

set_option maxRecDepth 2000 in
theorem freeformText_eq (h p s b d ep rb rh sb sh : Cond) :
    freeformText h.render p.render s.render b.render d.render ep.render rb.render rh.render
      sb.render sh.render =
      (freeformUnion h p s b d ep rb rh sb sh).render := by
  have hs := fun c => text_idsWhere capturedRequests c
      (Eq.refl "SELECT id FROM captured_requests WHERE ")
  unfold freeformText freeformUnion
  simp only [Cond.render, Cond.tokens, Select.tokens, Scalar.tokens, Source.tokens, text_append,
    text_cons, hs]
  apply String.toList_inj.mp
  simp only [String.toList_append, List.append_assoc]
  rfl

theorem freeformPredicate_eq (t : Term) : freeformPredicate U t = sql (freeformCond U t) := by
  obtain ⟨h₁, a₁⟩ := indexedPredicate_eq (bare "host") t (Eq.refl "host")
  obtain ⟨h₂, a₂⟩ := indexedPredicate_eq (bare "path") t (Eq.refl "path")
  obtain ⟨h₃, a₃⟩ := indexedPredicate_eq (bare "service") t (Eq.refl "service")
  obtain ⟨h₄, a₄⟩ := indexedPredicate_eq (eFf "request_path") t (Eq.refl "e_ff.request_path")
  refine Prod.ext ?_ ?_
  · rw [sql, freeformCond, ← freeformText_eq, ← h₁, ← h₂, ← h₃, ← h₄,
      ← scannedTextLike_eq (bare "body") t (Eq.refl "body"),
      ← scannedTextLike_eq (bare "headers") t (Eq.refl "headers"),
      ← scannedTextLike_eq (eFf "request_body") t (Eq.refl "e_ff.request_body"),
      ← scannedTextLike_eq (eFf "request_headers") t (Eq.refl "e_ff.request_headers"),
      ← scannedTextLike_eq (eFf "response_body") t (Eq.refl "e_ff.response_body"),
      ← scannedTextLike_eq (eFf "response_headers") t (Eq.refl "e_ff.response_headers")]
    rfl
  · simp only [freeformPredicate, sql, freeformCond, freeformUnion, idsWhere, Cond.args,
      Select.args, Source.args, Scalar.args, a₁, a₂, a₃, a₄]
    rfl

theorem headersAnyPredicate_eq (t : Term) : headersAnyPredicate U t = sql (headersAnyCond U t) := by
  refine Prod.ext ?_ rfl
  simp only [headersAnyPredicate, sql]
  rw [scannedTextLike_eq (U := U) (cr "headers") t (Eq.refl "cr.headers"),
    scannedTextLike_eq (U := U) (eH "request_headers") t (Eq.refl "e_h.request_headers"),
    scannedTextLike_eq (U := U) (eH "response_headers") t (Eq.refl "e_h.response_headers")]
  unfold headersAnyCond someEvent
  simp only [Cond.render, Cond.tokens, Select.tokens, Scalar.tokens, Source.tokens,
    text_append, text_cons]
  apply String.toList_inj.mp
  simp only [String.toList_append, List.append_assoc]
  rfl

theorem namedValueText_eq (c : Column) (t : Term) (h : text c.tokens = col) :
    namedValueText col = (namedValueCond U c t).render := by
  subst h
  unfold namedValueText namedValueCond
  simp only [Cond.render, Cond.tokens, Select.tokens, Scalar.tokens, Source.tokens,
    text_append, text_cons]
  apply String.toList_inj.mp
  simp only [String.toList_append, List.append_assoc]
  rfl

theorem headerNamedPredicate_eq (t : Term) :
    headerNamedPredicate U t = sql (headerNamedCond U t) := by
  refine Prod.ext ?_ rfl
  simp only [headerNamedPredicate, sql]
  rw [namedValueText_eq (U := U) (cr "headers") t (Eq.refl "cr.headers"),
    namedValueText_eq (U := U) (eH "request_headers") t (Eq.refl "e_h.request_headers"),
    namedValueText_eq (U := U) (eH "response_headers") t (Eq.refl "e_h.response_headers")]
  unfold headerNamedCond someEvent
  simp only [Cond.render, Cond.tokens, Select.tokens, Scalar.tokens, Source.tokens,
    text_append, text_cons]
  apply String.toList_inj.mp
  simp only [String.toList_append, List.append_assoc]
  rfl

theorem scannedPredicate_eq (c : Column) (t : Term) (col : String) (h : text c.tokens = col) :
    (scannedTextLike col, [Value.text (likeNeedle U t)]) = sql (scannedCond U c t) :=
  Prod.ext (scannedTextLike_eq c t h) rfl

theorem exactPredicate_eq (c : Column) (t : Term) (col : String)
    (h : text c.tokens ++ " = ?" = col) :
    (col, [Value.text t.value]) = sql (exactCond c t) := by
  subst h
  refine Prod.ext ?_ rfl
  simp only [sql, exactCond, Cond.render, Cond.tokens, Scalar.tokens, text_append, text_cons]
  rfl

theorem negateText_eq (t : Term) (c : Cond) : negateText t c.render = (negate t c).render := by
  unfold negateText negate
  split_ifs
  · simp only [Cond.render, Cond.tokens, text_append, text_cons]
    apply String.toList_inj.mp
    simp only [String.toList_append, List.append_assoc]
    rfl
  · rfl

theorem args_negate (t : Term) (c : Cond) : (negate t c).args = c.args := by
  unfold negate
  split_ifs <;> rfl

/-- The text and the arguments of a clause that may be missing. -/
def sqlOrEmpty : Option Cond → String × List Value
  | none => ("", [])
  | some c => sql c

theorem negate_sql {p : String × List Value} (h : p = sql c) :
    (negateText t p.1, p.2) = sql (negate t c) := by
  subst h
  exact Prod.ext (negateText_eq t c) (args_negate t c).symm

theorem indexed_sql (c : Column) (t : Term) (col : String) (h : text c.tokens = col) :
    ((indexedPredicate col t).1, [(indexedPredicate col t).2]) = sql (indexedCond c t) :=
  Prod.ext (indexedPredicate_eq c t h).1 (indexedPredicate_eq c t h).2.symm

theorem compileTermSQL_eq (t : Term) : compileTermSQL U t = sqlOrEmpty (termCond U t) := by
  unfold compileTermSQL termCond positiveCond
  cases t.field
  case freeform => exact negate_sql (freeformPredicate_eq t)
  case host => exact negate_sql (indexed_sql (cr "host") t "cr.host" rfl)
  case path => exact negate_sql (indexed_sql (cr "path") t "cr.path" rfl)
  case service => exact negate_sql (indexed_sql (cr "service") t "cr.service" rfl)
  case body => exact negate_sql (scannedPredicate_eq (cr "body") t "cr.body" rfl)
  case headers => exact negate_sql (headersAnyPredicate_eq t)
  case header => exact negate_sql (headerNamedPredicate_eq t)
  case method => exact negate_sql (exactPredicate_eq (cr "method") t "cr.method = ?" rfl)
  case sourceIP => exact negate_sql (exactPredicate_eq (cr "source_ip") t "cr.source_ip = ?" rfl)
  case correlationID =>
    exact negate_sql (exactPredicate_eq (cr "correlation_id") t "cr.correlation_id = ?" rfl)
  all_goals rfl

/-- Clauses joined by a connective are their conjunction. -/
theorem joinClauses_eq (sep : Word) (cs : List Cond) :
    joinClauses sep.name (cs.map sql) = sqlOrEmpty (conj sep cs) := by
  induction cs with
  | nil => rfl
  | cons c cs ih =>
    cases h : conj sep cs with
    | none =>
      rw [conj_eq_none.mp h]
      simp [joinClauses, conj, sqlOrEmpty, sql]
    | some d =>
      have hne : cs ≠ [] := fun h0 => by simp [h0, conj] at h
      obtain ⟨c', cs', rfl⟩ := List.exists_cons_of_ne_nil hne
      rw [h] at ih
      obtain ⟨ih₁, ih₂⟩ := Prod.mk.inj ih
      refine Prod.ext ?_ ?_
      · simp only [joinClauses, List.map_cons, String.intercalate_cons_cons] at ih₁ ⊢
        rw [ih₁, conj, h]
        simp only [sqlOrEmpty, sql, Cond.render, Cond.tokens, text_append, text_cons,
          String.append_assoc]
        rfl
      · simp only [joinClauses, List.map_cons, List.flatMap_cons] at ih₂ ⊢
        rw [ih₂, conj, h]
        rfl

/-- No condition has an empty text. -/
theorem Cond.render_ne : ∀ c : Cond, c.render ≠ ""
  | .cmp op a b => by cases op <;> simp [Cond.render, Cond.tokens, Op.token, kw, Token.text]
  | .and sep a b => by simpa [Cond.render, Cond.tokens] using fun h => absurd h (Cond.render_ne a)
  | .like a b | .between a b c | .or a b | .not a | .paren a | .exist q | .within a q => by
    simp [Cond.render, Cond.tokens, kw, Token.text]

/-- **`CompileSQL` returns the text and the arguments of `whereCond`.** -/
theorem compileSQL_eq (q : Query) : compileSQL U q = sqlOrEmpty (whereCond U q) := by
  rw [compileSQL, whereCond, ← joinClauses_eq]
  refine congrArg (joinClauses " AND ") ?_
  induction q.terms with
  | nil => rfl
  | cons t ts ih =>
    simp only [List.map_cons, List.filter_cons, List.filterMap_cons, compileTermSQL_eq, ih]
    cases termCond U t with
    | none => simp [sqlOrEmpty]
    | some c => simp [sqlOrEmpty, sql, Cond.render_ne]

theorem render_statusCond (s : Scalar) (sf : StatusFilter) :
    (statusCond s sf).render = text s.tokens ++ if sf.exact ≠ 0 then " = ?"
      else " BETWEEN ? AND ?" := by
  unfold statusCond
  split_ifs <;> simp only [Cond.render, Cond.tokens, Scalar.tokens, text_append, text_cons] <;> rfl

theorem args_statusCond {s : Scalar} (sf : StatusFilter) (hs : s.args = []) :
    (statusCond s sf).args =
      if sf.exact ≠ 0 then [.int sf.exact] else [.int sf.classRange.1, .int sf.classRange.2] := by
  unfold statusCond
  split_ifs <;> simp [Cond.args, Scalar.args, hs]

theorem text_maxStatus :
    text maxStatus.tokens = "MAX(CASE WHEN e.type = 'response' THEN e.status ELSE NULL END)" := by
  decide

/-- The two forms of a status clause, from the text before them. -/
theorem status_sql (txt : String) {exactText rangeText : String} {sf : StatusFilter} (t : Term)
    (hc : c.render = txt ++ if sf.exact ≠ 0 then " = ?" else " BETWEEN ? AND ?")
    (ha : c.args = if sf.exact ≠ 0 then [.int sf.exact]
      else [.int sf.classRange.1, .int sf.classRange.2]) (h₁ : txt ++ " = ?" = exactText)
    (h₂ : txt ++ " BETWEEN ? AND ?" = rangeText) :
    (if sf.exact ≠ 0 then some (negateText t exactText, [Value.int sf.exact])
      else some (negateText t rangeText, [Value.int sf.classRange.1, Value.int sf.classRange.2])) =
      some (sql (negate t c)) := by
  split_ifs at hc ha ⊢
  · rw [h₁] at hc
    exact congrArg some (negate_sql (p := (exactText, [Value.int sf.exact]))
      (Prod.ext hc.symm ha.symm))
  · rw [h₂] at hc
    exact congrArg some (negate_sql (p := (rangeText, [_, _])) (Prod.ext hc.symm ha.symm))

theorem compileTermHaving_eq (t : Term) : compileTermHaving t = (termHaving t).map sql := by
  obtain ⟨field, value, wildcard, quoted, negated, name, sf, he⟩ := t
  cases field
  case status =>
    cases sf with
    | none => rfl
    | some sf =>
      refine status_sql _ _ (render_statusCond maxStatus sf) (args_statusCond sf rfl) ?_ ?_ <;>
        rw [text_maxStatus] <;> decide
  case hasEvents =>
    cases he with
    | none => rfl
    | some b =>
      cases b
      · exact congrArg some (negate_sql (p := ("COUNT(e.id) = 0", [])) (Prod.ext (by decide) rfl))
      · exact congrArg some (negate_sql (p := ("COUNT(e.id) > 0", [])) (Prod.ext (by decide) rfl))
  all_goals rfl

/-- **`CompileSQLHaving` returns the text and the arguments of `havingCond`.** -/
theorem compileSQLHaving_eq (q : Query) : compileSQLHaving q = sqlOrEmpty (havingCond q) := by
  rw [compileSQLHaving, havingCond, ← joinClauses_eq, List.map_filterMap]
  simp only [compileTermHaving_eq]
  rfl

theorem freeformOrphanText_eq (s p rb rh sb sh : Cond) :
    freeformOrphanText s.render p.render rb.render rh.render sb.render sh.render =
      (freeformOrphanUnion s p rb rh sb sh).render := by
  have hs := fun c => text_idsWhere events c (Eq.refl "SELECT id FROM events WHERE ")
  unfold freeformOrphanText freeformOrphanUnion
  simp only [Cond.render, Cond.tokens, Select.tokens, Scalar.tokens, text_append, text_cons, hs]
  apply String.toList_inj.mp
  simp only [String.toList_append, List.append_assoc]
  rfl

theorem freeformOrphanPredicate_eq (t : Term) :
    freeformOrphanPredicate U t = sql (freeformOrphanCond U t) := by
  obtain ⟨h₁, a₁⟩ := indexedPredicate_eq (bare "service") t (Eq.refl "service")
  obtain ⟨h₂, a₂⟩ := indexedPredicate_eq (bare "request_path") t (Eq.refl "request_path")
  refine Prod.ext ?_ ?_
  · rw [sql, freeformOrphanCond, ← freeformOrphanText_eq, ← h₁, ← h₂,
      ← scannedTextLike_eq (bare "request_body") t (Eq.refl "request_body"),
      ← scannedTextLike_eq (bare "request_headers") t (Eq.refl "request_headers"),
      ← scannedTextLike_eq (bare "response_body") t (Eq.refl "response_body"),
      ← scannedTextLike_eq (bare "response_headers") t (Eq.refl "response_headers")]
    rfl
  · simp only [freeformOrphanPredicate, sql, freeformOrphanCond, freeformOrphanUnion, idsWhere,
      Cond.args, Select.args, Source.args, Scalar.args, a₁, a₂]
    rfl

theorem either_sql {p₁ p₂ : String} {c₁ c₂ : Cond} (h₁ : p₁ = c₁.render) (h₂ : p₂ = c₂.render) :
    "(" ++ p₁ ++ " OR " ++ p₂ ++ ")" = (Cond.paren (.or c₁ c₂)).render := by
  subst h₁ h₂
  simp only [Cond.render, Cond.tokens, text_append, text_cons]
  apply String.toList_inj.mp
  simp only [String.toList_append, List.append_assoc]
  rfl

theorem compileTermOrphans_eq (t : Term) : compileTermOrphans U t = (termOrphan U t).map sql := by
  obtain ⟨field, value, wildcard, quoted, negated, name, sf, he⟩ := t
  cases field
  case freeform => exact congrArg some (negate_sql (freeformOrphanPredicate_eq _))
  case service => exact congrArg some (negate_sql (indexed_sql (e "service") _ "e.service" rfl))
  case headers =>
    refine congrArg some (negate_sql (p := (_, [_, _])) (Prod.ext ?_ rfl))
    exact either_sql (scannedTextLike_eq (e "request_headers") _ rfl)
      (scannedTextLike_eq (e "response_headers") _ rfl)
  case header =>
    refine congrArg some (negate_sql (p := (_, [_, _, _, _])) (Prod.ext ?_ rfl))
    exact either_sql (namedValueText_eq (e "request_headers") _ rfl)
      (namedValueText_eq (e "response_headers") _ rfl)
  case correlationID =>
    exact congrArg some
      (negate_sql (exactPredicate_eq (e "correlation_id") _ "e.correlation_id = ?" rfl))
  case status =>
    cases sf with
    | none => rfl
    | some sf =>
      refine status_sql "e.type = 'response' AND e.status" _ ?_ ?_ (by decide) (by decide)
      · rw [Cond.render, Cond.tokens, text_append, text_cons, ← Cond.render, ← Cond.render,
          render_statusCond, ← String.append_assoc, ← String.append_assoc]
        exact congrArg (· ++ _) (by decide)
      · rw [Cond.args, args_statusCond sf rfl]
        rfl
  all_goals rfl

/-- **`CompileSQLOrphans` returns the text and the arguments of `orphanCond`.** -/
theorem compileSQLOrphans_eq (q : Query) : compileSQLOrphans U q = sqlOrEmpty (orphanCond U q) := by
  rw [compileSQLOrphans, orphanCond, ← joinClauses_eq, List.map_filterMap]
  simp only [compileTermOrphans_eq]
  rfl

/-! ### The text depends on the shape of a query only -/

/-- Two terms of the same shape: they agree in all but what is searched for. -/
structure SameShape (t t' : Term) : Prop where
  field : t.field = t'.field
  wildcard : t.wildcard = t'.wildcard
  negated : t.negated = t'.negated
  /-- Both an exact code, or both a class. -/
  status : t.statusFilter.map (fun sf => decide (sf.exact = 0)) =
    t'.statusFilter.map (fun sf => decide (sf.exact = 0))
  hasEvents : t.hasEvents = t'.hasEvents

theorem indexedCond_tokens (h : t.wildcard = t'.wildcard) (c : Column) :
    (indexedCond c t).tokens = (indexedCond c t').tokens := by
  unfold indexedCond
  rw [h]
  cases t'.wildcard <;> rfl

theorem negate_tokens {c' : Cond} (h : t.negated = t'.negated) (hc : c.tokens = c'.tokens) :
    (negate t c).tokens = (negate t' c').tokens := by
  unfold negate
  rw [h]
  split_ifs <;> simp [Cond.tokens, hc]

theorem statusCond_tokens (s : Scalar) {sf sf' : StatusFilter}
    (h : decide (sf.exact = 0) = decide (sf'.exact = 0)) :
    (statusCond s sf).tokens = (statusCond s sf').tokens := by
  have h' : sf.exact = 0 ↔ sf'.exact = 0 := decide_eq_decide.mp h
  by_cases h0 : sf.exact = 0
  · simp [statusCond, h0, h'.mp h0, Cond.tokens, Scalar.tokens]
  · simp [statusCond, h0, mt h'.mpr h0, Cond.tokens, Scalar.tokens]

theorem positiveCond_tokens (h : SameShape t t') :
    (positiveCond U t).map Cond.tokens = (positiveCond U t').map Cond.tokens := by
  have hi := indexedCond_tokens h.wildcard
  unfold positiveCond
  rw [h.field]
  cases t'.field <;> simp only [Option.map_some, Option.map_none, hi]
  case freeform =>
    simp only [freeformCond, freeformUnion, idsWhere, Cond.tokens, Select.tokens, hi]
    rfl
  all_goals rfl

theorem positiveHaving_tokens (h : SameShape t t') :
    (positiveHaving t).map Cond.tokens = (positiveHaving t').map Cond.tokens := by
  obtain ⟨field, value, wildcard, quoted, negated, name, sf, he⟩ := t
  obtain ⟨field', value', wildcard', quoted', negated', name', sf', he'⟩ := t'
  obtain ⟨hf, -, -, hs, hh⟩ := h
  simp only at hf hs hh
  subst hf hh
  cases field
  case status =>
    cases sf <;> cases sf' <;>
    simp only [Option.map_some, Option.map_none, Option.some.injEq, reduceCtorEq] at hs
    · rfl
    · exact congrArg some (statusCond_tokens maxStatus hs)
  case hasEvents => cases he <;> rfl
  all_goals rfl

theorem positiveOrphan_tokens (h : SameShape t t') :
    (positiveOrphan U t).map Cond.tokens = (positiveOrphan U t').map Cond.tokens := by
  have hi := indexedCond_tokens h.wildcard
  unfold positiveOrphan
  rw [h.field]
  cases t'.field <;> simp only [Option.map_some, Option.map_none, hi]
  case freeform =>
    simp only [freeformOrphanCond, freeformOrphanUnion, idsWhere, Cond.tokens, Select.tokens, hi]
    rfl
  case status =>
    have hs := h.status
    cases hsf : t.statusFilter <;> cases hsf' : t'.statusFilter <;>
      simp only [hsf, hsf', Option.map_some, Option.map_none, Option.some.injEq,
        reduceCtorEq] at hs ⊢
    simp only [Cond.tokens, statusCond_tokens _ hs]
  all_goals rfl

theorem conj_tokens {sep : Word} {cs cs' : List Cond}
    (h : cs.map Cond.tokens = cs'.map Cond.tokens) :
    (conj sep cs).map Cond.tokens = (conj sep cs').map Cond.tokens := by
  induction cs generalizing cs' with
  | nil =>
    rw [List.map_nil, eq_comm, List.map_eq_nil_iff] at h
    rw [h]
  | cons c cs ih =>
    obtain ⟨c', cs', rfl, hc, hcs⟩ := List.map_eq_cons_iff.mp h.symm
    have := ih hcs.symm
    cases h₁ : conj sep cs <;> cases h₂ : conj sep cs' <;> simp_all [conj, Cond.tokens]

/-- The clauses of two queries of the same shape have the same texts. -/
theorem clauses_tokens {pos : Term → Option Cond} {ts ts' : List Term}
    (hpos : ∀ t t', SameShape t t' → (pos t).map Cond.tokens = (pos t').map Cond.tokens)
    (h : List.Forall₂ SameShape ts ts') :
    (conj andWord (ts.filterMap fun t => (pos t).map (negate t))).map Cond.tokens =
      (conj andWord (ts'.filterMap fun t => (pos t).map (negate t))).map Cond.tokens := by
  refine conj_tokens ?_
  induction h with
  | nil => rfl
  | @cons t t' ts ts' ht _ ih =>
    have hp := hpos t t' ht
    cases h₁ : pos t <;> cases h₂ : pos t' <;>
      simp only [h₁, h₂, Option.map_some, Option.map_none, Option.some.injEq, reduceCtorEq] at hp
    · simpa [List.filterMap_cons, h₁, h₂] using ih
    · simpa [List.filterMap_cons, h₁, h₂, negate_tokens ht.negated hp] using ih

end HttpCatch.SearchQL
