import HttpCatch.Library.Json
import HttpCatch.Library.SqlLike

/-!
# SQL values and three-valued logic

The part of SQLite's value semantics that a search over text columns needs: storage
classes, comparisons that are `NULL` as soon as an operand is, the connectives of
three-valued logic, `LOWER` (which folds ASCII letters only), `CAST … AS TEXT`, `LIKE`
with `ESCAPE '\'` under `case_sensitive_like` (`Sql.like`), and the JSON functions on the text of
a string map.

A truth value is an `Option Bool`, `none` being `NULL`; a `WHERE` clause keeps a row
when its condition is `some true`.
-/

namespace HttpCatch.Sql

open HttpCatch.Go HttpCatch.Json

/-- A value of one of SQLite's storage classes. -/
inductive Value where
  /-- `NULL`. -/
  | null
  /-- `INTEGER`. -/
  | int (n : ℤ)
  /-- `TEXT`. -/
  | text (s : GoString)
  /-- `BLOB`. -/
  | blob (b : GoString)
  deriving DecidableEq

/-! ### Three-valued logic -/

/-- A truth value; `none` is `NULL`. -/
abbrev Truth := Option Bool

/-- `AND`. -/
def and3 : Truth → Truth → Truth
  | some false, _ => some false
  | _, some false => some false
  | some true, some true => some true
  | _, _ => none

/-- `OR`. -/
def or3 : Truth → Truth → Truth
  | some true, _ => some true
  | _, some true => some true
  | some false, some false => some false
  | _, _ => none

/-- `NOT`. -/
def not3 : Truth → Truth := Option.map (!·)

@[simp] theorem and3_some (a b : Bool) : and3 (some a) (some b) = some (a && b) := by
  cases a <;> cases b <;> rfl

@[simp] theorem or3_some (a b : Bool) : or3 (some a) (some b) = some (a || b) := by
  cases a <;> cases b <;> rfl

@[simp] theorem not3_some (a : Bool) : not3 (some a) = some (!a) := rfl

@[simp] theorem not3_none : not3 none = none := rfl

theorem and3_eq_true (a b : Truth) : and3 a b = some true ↔ a = some true ∧ b = some true := by
  rcases a with _ | _ | _ <;> rcases b with _ | _ | _ <;> simp [and3]

theorem or3_eq_true (a b : Truth) : or3 a b = some true ↔ a = some true ∨ b = some true := by
  rcases a with _ | _ | _ <;> rcases b with _ | _ | _ <;> simp [or3]

/-! ### Comparison -/

/-- The rank of a storage class, for comparisons across classes. -/
def Value.rank : Value → ℕ
  | .null => 0
  | .int _ => 1
  | .text _ => 2
  | .blob _ => 3

/-- `a = b`. -/
def Value.eq3 (a b : Value) : Truth := if a = .null ∨ b = .null then none else some (a = b)

/-- `a < b`, bytewise on text and blobs. -/
def Value.lt3 : Value → Value → Truth
  | .null, _ => none
  | _, .null => none
  | .int a, .int b => some (a < b)
  | .text a, .text b => some (a < b)
  | .blob a, .blob b => some (a < b)
  | a, b => some (a.rank < b.rank)

/-- `a <= b`. -/
def Value.le3 (a b : Value) : Truth := not3 (b.lt3 a)

@[simp] theorem eq3_text (a b : GoString) :
    (Value.text a).eq3 (.text b) = some (decide (a = b)) := by
  simp [Value.eq3]

@[simp] theorem eq3_int (a b : ℤ) : (Value.int a).eq3 (.int b) = some (decide (a = b)) := by
  simp [Value.eq3]

@[simp] theorem eq3_null_left (b : Value) : Value.null.eq3 b = none := by simp [Value.eq3]

@[simp] theorem eq3_null_right (a : Value) : a.eq3 .null = none := by simp [Value.eq3]

@[simp] theorem lt3_int (a b : ℤ) : (Value.int a).lt3 (.int b) = some (decide (a < b)) := rfl

@[simp] theorem lt3_text (a b : GoString) :
    (Value.text a).lt3 (.text b) = some (decide (a < b)) := rfl

@[simp] theorem le3_int (a b : ℤ) : (Value.int a).le3 (.int b) = some (decide (a ≤ b)) := by
  simp [Value.le3, ← decide_not]

@[simp] theorem le3_null_left (b : Value) : Value.null.le3 b = none := by cases b <;> rfl

@[simp] theorem le3_null_right (a : Value) : a.le3 .null = none := rfl

/-! ### Text -/

/-- `CAST(v AS TEXT)`. -/
def Value.castText : Value → Value
  | .null => .null
  | .int n => .text (str (toString n))
  | .text s => .text s
  | .blob b => .text b

/-- `LOWER(v)`: ASCII letters only. The text is cut at a NUL, behind which no function that is given
the result here would read. -/
def Value.lower (v : Value) : Value :=
  match v.castText with
  | .text s => .text (before (s.map lowerByte) 0)
  | v => v

/-- `v LIKE pat ESCAPE '\'`. -/
def Value.like3 (v pat : Value) : Truth :=
  match v.castText, pat.castText with
  | .text s, .text p => some (like p s)
  | _, _ => none

@[simp] theorem like3_null (pat : Value) : Value.null.like3 pat = none := rfl

@[simp] theorem like3_text (s p : GoString) :
    (Value.text s).like3 (.text p) = some (like p s) := rfl

/-! ### JSON -/

/-- The label of a path `$."label"`, after its opening quote. -/
def quotedLabel : GoString → Option GoString
  | [] => none
  | b :: s =>
    if b = 0x22 then if s = [] then some [] else none
    else if b = 0x5C then
      match s with
      | [] => none
      | c :: s => (quotedLabel s).map (c :: ·)
    else (quotedLabel s).map (b :: ·)

/-- The label of a JSON path of the form `$."label"`. -/
def pathLabel (p : GoString) : Option GoString :=
  if str "$.\"" <+: p then quotedLabel (p.drop 3) else none

/-- The `value` column of `json_each(json_extract(doc, path))`, for a document that is an
object of arrays of strings: no rows when the document or the path's value is `NULL`. -/
def jsonEach (doc path : Value) : List Value :=
  match doc.castText, path.castText with
  | .text d, .text p =>
    match pathLabel p with
    | some key => (member key (lex .outside d)).map .text
    | none => []
  | _, _ => []

@[simp] theorem jsonEach_null (path : Value) : jsonEach .null path = [] := rfl

end HttpCatch.Sql
