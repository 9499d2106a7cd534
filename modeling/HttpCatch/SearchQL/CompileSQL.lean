import HttpCatch.Library.SqlSyntax
import HttpCatch.SearchQL.Query

/-!
# From queries to SQL

`internal/searchql/compile_sql.go`: each function builds SQL text and a list of arguments,
piece by piece, as the source does. The conditions that this text stands for, and what
they mean, are in `HttpCatch.SearchQL.Conditions`.

`CompileSQL` makes the `WHERE` clause for captured requests, `CompileSQLHaving` the
conditions over the events correlated with a request, and `CompileSQLOrphans` the clause
for events without a request. In all three, terms are joined by `AND`.
-/

namespace HttpCatch.SearchQL

open HttpCatch.Go HttpCatch.Sql

/-! ### Text and arguments, as the source builds them -/

/-- `escapeLike`. -/
def escapeLike (s : GoString) : GoString := s.flatMap escape

/-- `scannedTextLike`. -/
def scannedTextLike (col : String) : String :=
  "LOWER(CAST(" ++ col ++ " AS TEXT)) LIKE ? ESCAPE '\\'"

/-- `indexedPredicate`. -/
def indexedPredicate (col : String) (t : Term) : String × Value :=
  match t.wildcard with
  | .wildcardPrefix => (col ++ " LIKE ? ESCAPE '\\'", .text (escapeLike t.value ++ str "%"))
  | .wildcardSubstring =>
    (col ++ " LIKE ? ESCAPE '\\'", .text (str "%" ++ escapeLike t.value ++ str "%"))
  | .wildcardNone => (col ++ " = ?", .text t.value)

/-- `strings.ReplaceAll(s, old, new)` for a one-byte `old`. -/
def replaceByte (old : UInt8) (new s : GoString) : GoString :=
  s.flatMap fun b => if b = old then new else [b]

/-- `jsonHeaderPath`. -/
def jsonHeaderPath (name : GoString) : GoString :=
  str "$.\"" ++ replaceByte 0x22 (str "\\\"") (replaceByte 0x5C (str "\\\\") name) ++ str "\""

section Text

variable (U : Unicode)

/-- `likeNeedle`. -/
def likeNeedle (t : Term) : GoString := str "%" ++ escapeLike (toLower U t.value) ++ str "%"

/-- The text of `freeformPredicate` around the predicates of its arms. -/
def freeformText (host path service body headers eventPath reqBody reqHeaders respBody
      respHeaders : String) : String :=
  "cr.id IN (" ++
    "SELECT id FROM captured_requests WHERE " ++ host ++ " UNION " ++
    "SELECT id FROM captured_requests WHERE " ++ path ++ " UNION " ++
    "SELECT id FROM captured_requests WHERE " ++ service ++ " UNION " ++
    "SELECT id FROM captured_requests WHERE " ++ body ++ " UNION " ++
    "SELECT id FROM captured_requests WHERE " ++ headers ++ " UNION " ++
    "SELECT cr_ff.id FROM captured_requests cr_ff JOIN events e_ff " ++
    "ON e_ff.correlation_id = cr_ff.correlation_id " ++
    "WHERE " ++ eventPath ++ " OR " ++ reqBody ++ " OR " ++ reqHeaders ++ " OR " ++ respBody ++
      " OR " ++ respHeaders ++
    ")"

/-- `freeformPredicate`. -/
def freeformPredicate (t : Term) : String × List Value :=
  let host := indexedPredicate "host" t
  let path := indexedPredicate "path" t
  let service := indexedPredicate "service" t
  let eventPath := indexedPredicate "e_ff.request_path" t
  let needle := Value.text (likeNeedle U t)
  (freeformText host.1 path.1 service.1
    (scannedTextLike "body") (scannedTextLike "headers") eventPath.1
    (scannedTextLike "e_ff.request_body") (scannedTextLike "e_ff.request_headers")
    (scannedTextLike "e_ff.response_body") (scannedTextLike "e_ff.response_headers"),
   [host.2, path.2, service.2, needle, needle, eventPath.2, needle, needle, needle, needle])

/-- `headersAnyPredicate`. -/
def headersAnyPredicate (t : Term) : String × List Value :=
  let needle := Value.text (likeNeedle U t)
  ("(" ++ scannedTextLike "cr.headers" ++ " OR " ++
    "EXISTS (SELECT 1 FROM events e_h " ++
    "WHERE e_h.correlation_id = cr.correlation_id " ++
    "AND (" ++ scannedTextLike "e_h.request_headers" ++ " OR " ++
    scannedTextLike "e_h.response_headers" ++ ")))",
   [needle, needle, needle])

/-- The fragment of `headerNamedPredicate` and `CompileSQLOrphans` for one column. -/
def namedValueText (col : String) : String :=
  "EXISTS (SELECT 1 FROM json_each(json_extract(" ++ col ++
    ", ?)) WHERE LOWER(value) LIKE ? ESCAPE '\\')"

/-- `headerNamedPredicate`. -/
def headerNamedPredicate (t : Term) : String × List Value :=
  let needle := Value.text (likeNeedle U t)
  let path := Value.text (jsonHeaderPath t.headerName)
  ("(" ++ namedValueText "cr.headers" ++ " OR " ++
    "EXISTS (SELECT 1 FROM events e_h " ++
    "WHERE e_h.correlation_id = cr.correlation_id " ++
    "AND (" ++ namedValueText "e_h.request_headers" ++ " OR " ++
    namedValueText "e_h.response_headers" ++ "))" ++
    ")",
   [path, needle, path, needle, path, needle])

/-- The text of a predicate, negated when the term is. -/
def negateText (t : Term) (pred : String) : String :=
  if t.negated then "NOT (" ++ pred ++ ")" else pred

/-- `compileTermSQL`; the empty text where a term adds nothing to `WHERE`. -/
def compileTermSQL (t : Term) : String × List Value :=
  let indexed (col : String) := ((indexedPredicate col t).1, [(indexedPredicate col t).2])
  let negate (p : String × List Value) := (negateText t p.1, p.2)
  match t.field with
  | .freeform => negate (freeformPredicate U t)
  | .host => negate (indexed "cr.host")
  | .path => negate (indexed "cr.path")
  | .service => negate (indexed "cr.service")
  | .body => negate (scannedTextLike "cr.body", [.text (likeNeedle U t)])
  | .headers => negate (headersAnyPredicate U t)
  | .header => negate (headerNamedPredicate U t)
  | .method => negate ("cr.method = ?", [.text t.value])
  | .sourceIP => negate ("cr.source_ip = ?", [.text t.value])
  | .correlationID => negate ("cr.correlation_id = ?", [.text t.value])
  | .status | .hasEvents => ("", [])

/-- Clauses joined by a connective, and their arguments one after the other. -/
def joinClauses (sep : String) (clauses : List (String × List Value)) : String × List Value :=
  (sep.intercalate (clauses.map Prod.fst), clauses.flatMap Prod.snd)

/-- `CompileSQL`. -/
def compileSQL (q : Query) : String × List Value :=
  joinClauses " AND " ((q.terms.map (compileTermSQL U)).filter fun c => c.1 ≠ "")

/-- The clause of a term in `CompileSQLHaving`. -/
def compileTermHaving (t : Term) : Option (String × List Value) :=
  match t.field, t.statusFilter, t.hasEvents with
  | .status, some sf, _ =>
    if sf.exact ≠ 0 then
      some (negateText t "MAX(CASE WHEN e.type = 'response' THEN e.status ELSE NULL END) = ?",
        [.int sf.exact])
    else
      some (negateText t
          "MAX(CASE WHEN e.type = 'response' THEN e.status ELSE NULL END) BETWEEN ? AND ?",
        [.int sf.classRange.1, .int sf.classRange.2])
  | .hasEvents, _, some b =>
    some (negateText t (if b then "COUNT(e.id) > 0" else "COUNT(e.id) = 0"), [])
  | _, _, _ => none

/-- `CompileSQLHaving`. -/
def compileSQLHaving (q : Query) : String × List Value :=
  joinClauses " AND " (q.terms.filterMap compileTermHaving)

/-- The text of `freeformOrphanPredicate` around the predicates of its arms. -/
def freeformOrphanText (service path reqBody reqHeaders respBody respHeaders : String) : String :=
  "e.id IN (" ++
    "SELECT id FROM events WHERE " ++ service ++ " UNION " ++
    "SELECT id FROM events WHERE " ++ path ++ " UNION " ++
    "SELECT id FROM events WHERE " ++ reqBody ++ " UNION " ++
    "SELECT id FROM events WHERE " ++ reqHeaders ++ " UNION " ++
    "SELECT id FROM events WHERE " ++ respBody ++ " UNION " ++
    "SELECT id FROM events WHERE " ++ respHeaders ++
    ")"

/-- `freeformOrphanPredicate`. -/
def freeformOrphanPredicate (t : Term) : String × List Value :=
  let service := indexedPredicate "service" t
  let path := indexedPredicate "request_path" t
  let needle := Value.text (likeNeedle U t)
  (freeformOrphanText service.1 path.1 (scannedTextLike "request_body")
    (scannedTextLike "request_headers")
    (scannedTextLike "response_body") (scannedTextLike "response_headers"),
   [service.2, path.2, needle, needle, needle, needle])

/-- The clause of a term in `CompileSQLOrphans`. -/
def compileTermOrphans (t : Term) : Option (String × List Value) :=
  let needle := Value.text (likeNeedle U t)
  let path := Value.text (jsonHeaderPath t.headerName)
  match t.field with
  | .service =>
    some (negateText t (indexedPredicate "e.service" t).1, [(indexedPredicate "e.service" t).2])
  | .correlationID => some (negateText t "e.correlation_id = ?", [.text t.value])
  | .headers =>
    some (negateText t ("(" ++ scannedTextLike "e.request_headers" ++ " OR " ++
      scannedTextLike "e.response_headers" ++ ")"), [needle, needle])
  | .header =>
    some (negateText t ("(" ++ namedValueText "e.request_headers" ++ " OR " ++
      namedValueText "e.response_headers" ++ ")"), [path, needle, path, needle])
  | .status =>
    match t.statusFilter with
    | none => none
    | some sf =>
      if sf.exact ≠ 0 then
        some (negateText t "e.type = 'response' AND e.status = ?", [.int sf.exact])
      else some (negateText t "e.type = 'response' AND e.status BETWEEN ? AND ?",
        [.int sf.classRange.1, .int sf.classRange.2])
  | .freeform =>
    some (negateText t (freeformOrphanPredicate U t).1, (freeformOrphanPredicate U t).2)
  | .host | .path | .body | .method | .sourceIP | .hasEvents => none

/-- `CompileSQLOrphans`. -/
def compileSQLOrphans (q : Query) : String × List Value :=
  joinClauses " AND " (q.terms.filterMap (compileTermOrphans U))

end Text

end HttpCatch.SearchQL
