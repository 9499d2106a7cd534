import HttpCatch.Capture.Record
import HttpCatch.SearchQL.Query

/-!
# Queries as predicates in memory

`internal/searchql/compile_predicate.go`: what the memory reader evaluates instead of SQL.
Indexed fields are compared bytewise; bodies and headers are searched case-insensitively,
with Go's `ToLower` on both sides.
-/

namespace HttpCatch.SearchQL

open HttpCatch.Go HttpCatch.Capture

/-- `matchString`: the value of a field, against the wildcard shape of a term. -/
def matchString (s : GoString) (t : Term) : Bool :=
  match t.wildcard with
  | .wildcardPrefix => hasPrefix s t.value
  | .wildcardSubstring => contains s t.value
  | .wildcardNone => s = t.value

/-- `hostOf`. -/
def hostOf (r : CapturedRequest) : GoString :=
  match r.headers.get? hostHeader with
  | some (some (v :: _)) => v
  | _ => []

variable (U : Unicode)

/-- `bodyContainsFold`, for a needle in lower case. -/
def bodyContainsFold (body : Option GoString) (needle : GoString) : Bool :=
  if needle = [] then true else contains (toLower U (body.getD [])) needle

/-- `HeadersAny`: some name or value has the needle in it. -/
def headersAny (h : Headers) (needle : GoString) : Bool :=
  h.entries.any fun kv =>
    contains (toLower U kv.1) (toLower U needle) ||
      (kv.2.getD []).any fun v => contains (toLower U v) (toLower U needle)

/-- `HeaderValueContains`: some value under the name has the needle in it. -/
def headerValueContains (h : Headers) (name needle : GoString) : Bool :=
  match h.get? name with
  | none => false
  | some vs => (vs.getD []).any fun v => contains (toLower U v) (toLower U needle)

/-- `MatchFreeformRequest`. -/
def matchFreeformRequest (t : Term) (bodyNeedle : GoString) (r : CapturedRequest) : Bool :=
  matchString (hostOf r) t || matchString r.path t || matchString r.service t ||
    bodyContainsFold U r.body bodyNeedle || headersAny U r.headers t.value

/-- `MatchFreeformResponseEvent`. -/
def matchFreeformResponseEvent (t : Term) (ev : ResponseEvent) : Bool :=
  matchString ev.service t || bodyContainsFold U ev.body (toLower U t.value) ||
    headersAny U ev.headers t.value

/-- `MatchFreeformOutboundEvent`. -/
def matchFreeformOutboundEvent (t : Term) (ev : OutboundEvent) : Bool :=
  matchString ev.service t || matchString ev.request.path t || bodyContainsFold U ev.request.body
    (toLower U t.value) ||
    headersAny U ev.request.headers t.value ||
    match ev.response with
    | none => false
    | some h => bodyContainsFold U h.body (toLower U t.value) || headersAny U h.headers t.value

/-- `evaluateTerm`. -/
def evaluateTerm (t : Term) (bodyNeedle : GoString) (r : CapturedRequest) : Bool :=
  match t.field with
  | .freeform => matchFreeformRequest U t bodyNeedle r
  | .host => matchString (hostOf r) t
  | .path => matchString r.path t
  | .service => matchString r.service t
  | .body => bodyContainsFold U r.body bodyNeedle
  | .headers => headersAny U r.headers t.value
  | .header => headerValueContains U r.headers t.headerName t.value
  | .method => r.method = t.value
  | .sourceIP => r.sourceIP = t.value
  | .correlationID => r.correlationID = t.value
  | .status | .hasEvents => false

/-- The needle that `CompilePredicate` makes of a term beforehand; nil for most fields. -/
def bodyNeedle (t : Term) : GoString :=
  match t.field with
  | .body | .freeform => toLower U t.value
  | _ => []

/-- `matchTerm`: status and `has_events` terms are not decided here. -/
def matchTerm (t : Term) (bodyNeedle : GoString) (r : CapturedRequest) : Bool :=
  match t.field with
  | .status | .hasEvents => true
  | _ => evaluateTerm U t bodyNeedle r != t.negated

/-- `CompilePredicate`. -/
def compilePredicate (q : Query) (r : CapturedRequest) : Bool :=
  q.terms.all fun t => matchTerm U t (bodyNeedle U t) r

end HttpCatch.SearchQL
