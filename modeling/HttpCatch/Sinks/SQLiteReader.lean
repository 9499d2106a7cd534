import HttpCatch.Inspect.Reader
import HttpCatch.SearchQL.Conditions
import HttpCatch.Sinks.SQLite

/-!
# Reading roots from SQLite

`internal/sinks/sqlite_reader.go`. `buildRootsUnionSQL` puts one statement together: the
captured requests, joined with their events and grouped by request, and below them the
events without a request, unless some term is about a field that only requests have. Its
text and arguments are those of `rootsStatement` (`buildRootsUnionSQL_eq`).

* `buildRootsUnionSQL_parametric` — two queries of one shape are sent as one text, whatever
  their values; every value is an argument, and each is bound to the placeholder meant for it.
-/

namespace HttpCatch.Sinks

open HttpCatch.Go HttpCatch.Sql HttpCatch.Capture HttpCatch.SearchQL HttpCatch.Inspect
  HttpCatch.Keyset

/-! ### Text -/

/-- `sqliteReadRootsBase`. -/
def sqliteReadRootsBase : String := "
SELECT
    cr.id,
    'request'                                AS kind,
    cr.timestamp,
    cr.service,
    cr.method,
    cr.path,
    cr.correlation_id,
    cr.source_ip,
    COUNT(e.id)                              AS event_count,
    CASE WHEN COUNT(e.id) > 0 THEN 1 ELSE 0 END AS has_events,
    MAX(CASE WHEN e.type = 'response' THEN e.status ELSE NULL END) AS status
FROM captured_requests cr
LEFT JOIN events e ON e.correlation_id = cr.correlation_id
"

/-- `sqliteOrphansBase`. -/
def sqliteOrphansBase : String := "
SELECT
    e.id,
    CASE e.type WHEN 'response' THEN 'orphan_response' ELSE 'orphan_outbound' END AS kind,
    e.timestamp,
    e.service,
    NULL AS method,
    NULL AS path,
    e.correlation_id,
    NULL AS source_ip,
    NULL AS event_count,
    NULL AS has_events,
    CASE e.type WHEN 'response' THEN e.status ELSE NULL END AS status
FROM events e
LEFT JOIN captured_requests cr ON cr.correlation_id = e.correlation_id
WHERE cr.id IS NULL
"

set_option maxRecDepth 4000 in
theorem sqliteReadRootsBase_plain : '?' ∉ sqliteReadRootsBase.toList := plain_ofList (by decide)

set_option maxRecDepth 4000 in
theorem sqliteOrphansBase_plain : '?' ∉ sqliteOrphansBase.toList := plain_ofList (by decide)

/-- The clauses for the cursor and the time window, for the columns of either table. -/
def temporalClauses (timestamp id : String) (q : InspectQuery) (cursor : Option Cursor) :
    List (String × List Value) :=
  (cursor.map fun c => ("(" ++ timestamp ++ " < ? OR (" ++ timestamp ++ " = ? AND " ++
    id ++ " < ?))", [.int (unixNano c.timestamp), .int (unixNano c.timestamp),
      .text c.id])).toList ++
  (q.since.map fun t => (timestamp ++ " >= ?", [.int (unixNano t)])).toList ++
  (q.until_.map fun t => (timestamp ++ " < ?", [.int (unixNano t)])).toList

/-- A clause, where there is one. -/
def clause (c : String × List Value) : List (String × List Value) := if c.1 ≠ "" then [c] else []

section Text

variable (U : Unicode)

/-- `buildRootsUnionSQL`. -/
def buildRootsUnionSQL (q : InspectQuery) (cursor : Option Cursor) : String × List Value :=
  let reqWhere := temporalClauses "cr.timestamp" "cr.id" q cursor ++ clause (compileSQL U q.query)
  let reqHaving := clause (compileSQLHaving q.query)
  let req := joinClauses "\n  AND " reqWhere
  let having := joinClauses "\n  AND " reqHaving
  let reqQuery := sqliteReadRootsBase ++ (if reqWhere ≠ [] then "\nWHERE " ++ req.1 else "") ++
      "\nGROUP BY cr.id" ++
    (if reqHaving ≠ [] then "\nHAVING " ++ having.1 else "")
  if q.hasRequestOnlyFilter then (reqQuery, req.2 ++ having.2)
  else
    let orphanWhere := temporalClauses "e.timestamp" "e.id" q cursor ++
        clause (compileSQLOrphans U q.query)
    let orphan := joinClauses "\n  AND " orphanWhere
    let orphanQuery := sqliteOrphansBase ++ (if orphanWhere ≠ [] then "  AND " ++ orphan.1 else "")
    (reqQuery ++ "\nUNION ALL\n" ++ orphanQuery, req.2 ++ having.2 ++ orphan.2)

end Text

/-! ### The statement -/

/-- ` AND ` as the statement lays it out. -/
def andLine : Word := ⟨"\n  AND ", plain_ofList (by decide)⟩

/-- The rows after the cursor. -/
def cursorCond (timestamp id : Column) (c : Cursor) : Cond :=
  .paren (.or (.cmp .lt (.col timestamp) (.param (.int (unixNano c.timestamp))))
    (.paren (.and andWord (.cmp .eq (.col timestamp) (.param (.int (unixNano c.timestamp))))
      (.cmp .lt (.col id) (.param (.text c.id))))))

/-- The rows from an instant on. -/
def sinceCond (timestamp : Column) (t : ℤ) : Cond :=
  .cmp .ge (.col timestamp) (.param (.int (unixNano t)))

/-- The rows before an instant. -/
def untilCond (timestamp : Column) (t : ℤ) : Cond :=
  .cmp .lt (.col timestamp) (.param (.int (unixNano t)))

/-- The conditions for the cursor and the time window. -/
def temporalConds (timestamp id : Column) (q : InspectQuery) (cursor : Option Cursor) : List Cond :=
  (cursor.map (cursorCond timestamp id)).toList ++ (q.since.map (sinceCond timestamp)).toList ++
    (q.until_.map (untilCond timestamp)).toList

section Statement

variable (U : Unicode)

/-- The `WHERE` of the captured requests. -/
def requestWhere (q : InspectQuery) (cursor : Option Cursor) : Option Cond :=
  conj andLine
    (temporalConds (cr "timestamp" (plain_of .timestamp)) (cr "id" (plain_of .id)) q cursor ++
      (whereCond U q.query).toList)

/-- What the `WHERE` of the orphans has besides `cr.id IS NULL`. -/
def orphanWhere (q : InspectQuery) (cursor : Option Cursor) : Option Cond :=
  conj andLine
    (temporalConds (e "timestamp" (plain_of .timestamp)) (e "id" (plain_of .id)) q cursor ++
      (orphanCond U q.query).toList)

/-- A condition with the text that introduces it. -/
def introduced (w : Word) (c : Option Cond) : Statement :=
  match c with
  | none => []
  | some c => [.fixed w, .cond c]

/-- The statement that `buildRootsUnionSQL` renders. -/
def rootsStatement (q : InspectQuery) (cursor : Option Cursor) : Statement :=
  [.fixed ⟨sqliteReadRootsBase, sqliteReadRootsBase_plain⟩] ++
    introduced ⟨"\nWHERE ", plain_ofList (by decide)⟩ (requestWhere U q cursor) ++
    [.fixed ⟨"\nGROUP BY cr.id", plain_ofList (by decide)⟩] ++
      introduced ⟨"\nHAVING ", plain_ofList (by decide)⟩ (havingCond q.query) ++
    if q.hasRequestOnlyFilter then []
    else [.fixed ⟨"\nUNION ALL\n", plain_ofList (by decide)⟩,
      .fixed ⟨sqliteOrphansBase, sqliteOrphansBase_plain⟩] ++
      introduced ⟨"  AND ", plain_ofList (by decide)⟩ (orphanWhere U q cursor)

end Statement

variable {U : Unicode}

/-- The clauses for the cursor and the time window have the texts of their conditions. -/
theorem temporalClauses_eq {ts i : String} {timestamp id : Column} (ht : text timestamp.tokens = ts)
    (hi : text id.tokens = i) (q : InspectQuery) (cursor : Option Cursor) :
    temporalClauses ts i q cursor = (temporalConds timestamp id q cursor).map sql := by
  subst ht hi
  have hc : ∀ c : Cursor, ("(" ++ text timestamp.tokens ++ " < ? OR (" ++ text timestamp.tokens ++
      " = ? AND " ++
      text id.tokens ++ " < ?))", [Value.int (unixNano c.timestamp), .int (unixNano c.timestamp),
        .text c.id]) =
      sql (cursorCond timestamp id c) := fun c => Prod.ext (by
    simp only [sql, cursorCond, Cond.render, Cond.tokens, Scalar.tokens, text_append, text_cons]
    apply String.toList_inj.mp
    simp only [String.toList_append, List.append_assoc]
    rfl) rfl
  have hs : ∀ t, (text timestamp.tokens ++ " >= ?", [Value.int (unixNano t)]) =
      sql (sinceCond timestamp t) := fun t =>
    Prod.ext (by simp only [sql, sinceCond, Cond.render, Cond.tokens, Scalar.tokens, text_append,
      text_cons]; rfl) rfl
  have hu : ∀ t, (text timestamp.tokens ++ " < ?", [Value.int (unixNano t)]) =
      sql (untilCond timestamp t) := fun t =>
    Prod.ext (by simp only [sql, untilCond, Cond.render, Cond.tokens, Scalar.tokens, text_append,
      text_cons]; rfl) rfl
  unfold temporalClauses temporalConds
  simp only [hc, hs, hu, List.map_append]
  cases cursor <;> cases q.since <;> cases q.until_ <;> rfl

theorem clause_eq (c : Option Cond) : clause (sqlOrEmpty c) = c.toList.map sql := by
  cases c with
  | none => rfl
  | some c => simp [clause, sqlOrEmpty, sql, Cond.render_ne]

/-- What a condition adds to the text, and to the arguments, of a statement. -/
theorem introduced_eq (w : Word) (cs : List Cond) :
    text ((introduced w (conj andLine cs)).flatMap Part.tokens) =
      (if cs.map sql ≠ [] then w.name ++ (joinClauses "\n  AND " (cs.map sql)).1 else "") ∧
    (introduced w (conj andLine cs)).flatMap Part.args =
      (joinClauses "\n  AND " (cs.map sql)).2 := by
  have hj : joinClauses "\n  AND " (cs.map sql) = sqlOrEmpty (conj andLine cs) :=
    joinClauses_eq andLine cs
  rw [hj]
  cases h : conj andLine cs with
  | none =>
    obtain rfl := conj_eq_none.mp h
    simp [introduced, sqlOrEmpty]
  | some c =>
    have hne : cs.map sql ≠ [] := by
      intro h0
      rw [List.map_eq_nil_iff.mp h0] at h
      cases h
    rw [if_pos hne]
    simp [introduced, sqlOrEmpty, sql, Part.tokens, Part.args, Token.text, Cond.render]

/-- **The statement has the text and the arguments that `buildRootsUnionSQL` returns.** -/
theorem buildRootsUnionSQL_eq (q : InspectQuery) (cursor : Option Cursor) :
    buildRootsUnionSQL U q cursor =
      ((rootsStatement U q cursor).render, (rootsStatement U q cursor).args) := by
  have hreq := introduced_eq ⟨"\nWHERE ", plain_ofList (by decide)⟩
    (temporalConds (cr "timestamp") (cr "id") q cursor ++ (whereCond U q.query).toList)
  have hhav := introduced_eq ⟨"\nHAVING ", plain_ofList (by decide)⟩ (havingCond q.query).toList
  have horph := introduced_eq ⟨"  AND ", plain_ofList (by decide)⟩
    (temporalConds (e "timestamp") (e "id") q cursor ++ (orphanCond U q.query).toList)
  unfold buildRootsUnionSQL rootsStatement
  simp only [compileSQL_eq, compileSQLHaving_eq, compileSQLOrphans_eq, clause_eq,
    @temporalClauses_eq _ _ (cr "timestamp") (cr "id") (Eq.refl "cr.timestamp") (Eq.refl "cr.id"),
    @temporalClauses_eq _ _ (e "timestamp") (e "id") (Eq.refl "e.timestamp") (Eq.refl "e.id"),
    ← List.map_append]
  have hh : conj andLine (havingCond q.query).toList = havingCond q.query := by
    cases havingCond q.query <;> rfl
  rw [hh] at hhav
  cases q.hasRequestOnlyFilter
  all_goals
    refine Prod.ext ?_ ?_
    · simp only [Bool.false_eq_true, if_true, if_false, Statement.render, List.flatMap_append,
        text_append, requestWhere, orphanWhere, hreq.1, hhav.1, horph.1, List.flatMap_cons,
        List.flatMap_nil, Part.tokens, List.append_nil, text_cons, text_nil, Token.text,
        String.append_assoc, String.append_empty]
    · simp only [Bool.false_eq_true, if_true, if_false, Statement.args, List.flatMap_append,
        requestWhere, orphanWhere, hreq.2, hhav.2, horph.2, List.flatMap_cons, List.flatMap_nil,
        Part.args, List.append_nil, List.nil_append, List.append_assoc]

/-! ### No value reaches the text -/

theorem temporalConds_tokens {timestamp id : Column} {q q' : InspectQuery}
    {cursor cursor' : Option Cursor} (hc : cursor.isSome = cursor'.isSome)
    (hs : q.since.isSome = q'.since.isSome) (hu : q.until_.isSome = q'.until_.isSome) :
    (temporalConds timestamp id q cursor).map Cond.tokens =
      (temporalConds timestamp id q' cursor').map Cond.tokens := by
  have key : ∀ {α : Type} {f : α → Cond} (x y : Option α), (∀ a b, (f a).tokens = (f b).tokens) →
      x.isSome = y.isSome →
      (x.map f).toList.map Cond.tokens = (y.map f).toList.map Cond.tokens := by
    intro α f x y hf hxy
    cases x <;> cases y <;> simp_all
    exact hf _ _
  unfold temporalConds
  simp only [List.map_append]
  rw [key cursor cursor' (fun _ _ => rfl) hc, key q.since q'.since (fun _ _ => rfl) hs,
    key q.until_ q'.until_ (fun _ _ => rfl) hu]

theorem introduced_tokens (w : Word) {c c' : Option Cond}
    (h : c.map Cond.tokens = c'.map Cond.tokens) :
    (introduced w c).flatMap Part.tokens = (introduced w c').flatMap Part.tokens := by
  cases c <;> cases c' <;> simp_all [introduced, Part.tokens]

theorem hasRequestOnlyTerm_of_shape {q q' : Query} (h : List.Forall₂ SameShape q.terms q'.terms) :
    q.hasRequestOnlyTerm = q'.hasRequestOnlyTerm := by
  obtain ⟨terms⟩ := q
  obtain ⟨terms'⟩ := q'
  unfold Query.hasRequestOnlyTerm
  simp only at h ⊢
  induction h with
  | nil => rfl
  | cons ht _ ih => rw [List.any_cons, List.any_cons, ih, ht.field]

/-- The text of the statement depends on the shape of the query only. -/
theorem rootsStatement_render {q q' : InspectQuery} {cursor cursor' : Option Cursor}
    (ht : List.Forall₂ SameShape q.query.terms q'.query.terms) (hc : cursor.isSome = cursor'.isSome)
    (hs : q.since.isSome = q'.since.isSome) (hu : q.until_.isSome = q'.until_.isSome) :
    (rootsStatement U q cursor).render = (rootsStatement U q' cursor').render := by
  have harm : ∀ (timestamp id : Column) (o o' : Option Cond), o.map Cond.tokens =
      o'.map Cond.tokens →
      (conj andLine (temporalConds timestamp id q cursor ++ o.toList)).map Cond.tokens =
        (conj andLine (temporalConds timestamp id q' cursor' ++ o'.toList)).map Cond.tokens := by
    intro timestamp id o o' ho
    refine conj_tokens ?_
    rw [List.map_append, List.map_append, temporalConds_tokens hc hs hu]
    cases o <;> cases o' <;> simp_all
  have hreq : (requestWhere U q cursor).map Cond.tokens =
      (requestWhere U q' cursor').map Cond.tokens :=
    harm (cr "timestamp") (cr "id") _ _
      (clauses_tokens (fun _ _ => positiveCond_tokens (U := U)) ht)
  have horph : (orphanWhere U q cursor).map Cond.tokens =
      (orphanWhere U q' cursor').map Cond.tokens :=
    harm (e "timestamp") (e "id") _ _
      (clauses_tokens (fun _ _ => positiveOrphan_tokens (U := U)) ht)
  have hhav : (havingCond q.query).map Cond.tokens = (havingCond q'.query).map Cond.tokens :=
    clauses_tokens (fun _ _ => positiveHaving_tokens) ht
  have honly : q.hasRequestOnlyFilter = q'.hasRequestOnlyFilter := hasRequestOnlyTerm_of_shape ht
  unfold rootsStatement Statement.render
  rw [honly]
  simp only [List.flatMap_append]
  rw [introduced_tokens _ hreq, introduced_tokens _ hhav]
  cases q'.hasRequestOnlyFilter
  · simp only [Bool.false_eq_true, if_false, List.flatMap_append]
    rw [introduced_tokens _ horph]
  · rfl

/-- **No search value reaches the SQL text, and every placeholder gets its argument.** Two
queries whose terms have the same shapes, with cursors and bounds equally present, have the
same text, whatever is searched for. There are as many placeholders as arguments, and the
arguments, bound in order to the placeholders of the text (whatever these held before),
give each the value the statement has for it. -/
theorem buildRootsUnionSQL_parametric (U : Unicode) (q q' : InspectQuery)
    (cursor cursor' : Option Cursor) (ht : List.Forall₂ SameShape q.query.terms q'.query.terms)
    (hc : cursor.isSome = cursor'.isSome) (hs : q.since.isSome = q'.since.isSome)
    (hu : q.until_.isSome = q'.until_.isSome) :
    (buildRootsUnionSQL U q cursor).1 = (buildRootsUnionSQL U q' cursor').1 ∧
      marks (buildRootsUnionSQL U q cursor).1 = (buildRootsUnionSQL U q cursor).2.length ∧
      (rootsStatement U q cursor).render = (buildRootsUnionSQL U q cursor).1 ∧
      ∀ blank : List Value, ((rootsStatement U q cursor).fill blank).1.fill
        (buildRootsUnionSQL U q cursor).2 =
        (rootsStatement U q cursor, []) := by
  simp only [buildRootsUnionSQL_eq]
  refine ⟨rootsStatement_render ht hc hs hu, Statement.marks_render _, trivial, fun blank => ?_⟩
  simpa using Statement.fill_args (rootsStatement U q cursor) blank []

/-- A search for a host, with a value and a cursor that try to be SQL. -/
theorem buildRootsUnionSQL_parametric_hosts :
    (buildRootsUnionSQL .asciiOnly
        ⟨50, none, some 0, none, ⟨[Term.make .host (str "api", .wildcardPrefix, false) true]⟩⟩
          (some ⟨7, str "a"⟩)).1 =
      (buildRootsUnionSQL .asciiOnly
        ⟨50, none, some 9, none,
          ⟨[Term.make .host (str "' OR 1=1 --", .wildcardPrefix, false) true]⟩⟩
        (some ⟨8, str "b' --"⟩)).1 :=
  (buildRootsUnionSQL_parametric _ _ _ _ _ (.cons ⟨rfl, rfl, rfl, rfl, rfl⟩ .nil) rfl rfl rfl).1

end HttpCatch.Sinks
