import HttpCatch.Library.SqlValue

/-!
# SQL conditions: text, arguments and meaning

A prepared statement is sent as text with placeholders `?` and a separate list of
arguments; SQLite binds the `k`-th argument to the `k`-th placeholder. Here the
conditions of such statements are syntax trees in which a placeholder carries the
value meant for it, and both halves of what is sent are read off the tree: `render`
gives the text, `args` the arguments from left to right.

* `marks_render` — there are as many placeholders in the text as arguments.
* `fill_args` — binding the arguments one after the other to the placeholders
  (`fill`), whatever these held before, gives every placeholder the value meant for it.

`eval` is the meaning of a condition in a scope of rows, in three-valued logic; an
aggregate is computed over the rows of its group. The trees carry their parentheses, and
no tree is built here that its own text would be parsed differently from: `OR` stands
under `AND` and under `NOT` only in parentheses.
-/

namespace HttpCatch.Sql

open HttpCatch.Go

/-! ### Syntax -/

/-- A text has no placeholder when its list of characters has none; a literal is such a list. -/
theorem plain_ofList {l : List Char} (h : '?' ∉ l) : '?' ∉ (String.ofList l).toList := by
  rwa [String.toList_ofList]

/-- A piece of SQL text that holds no placeholder. -/
structure Word where
  /-- The text. -/
  name : String
  /-- There is no placeholder in it. -/
  plain : '?' ∉ name.toList := by exact plain_ofList (by decide)
  deriving DecidableEq

/-- A token of SQL text, as far as binding is concerned. -/
inductive Token where
  /-- Text without a placeholder. -/
  | word (w : Word)
  /-- A placeholder. -/
  | mark
  deriving DecidableEq

/-- The text of a literal. -/
def kw (s : String) (h : '?' ∉ s.toList := by exact plain_ofList (by decide)) : Token :=
  .word ⟨s, h⟩

/-- The text of a token. -/
def Token.text : Token → String
  | .word w => w.name
  | .mark => "?"

/-- The text of a list of tokens. -/
def text : List Token → String
  | [] => ""
  | t :: ts => t.text ++ text ts

/-- The number of placeholders in a text. -/
def marks (s : String) : ℕ := s.toList.count '?'

@[simp] theorem text_nil : text [] = "" := rfl

@[simp] theorem text_cons (t : Token) (ts : List Token) : text (t :: ts) = t.text ++ text ts := rfl

@[simp] theorem text_append (ts us : List Token) : text (ts ++ us) = text ts ++ text us := by
  induction ts with
  | nil => simp
  | cons t ts ih => simp [ih, String.append_assoc]

@[simp] theorem marks_append (s t : String) : marks (s ++ t) = marks s + marks t := by
  simp [marks]

/-- The placeholders of a text are the marks among its tokens. -/
theorem marks_text (ts : List Token) : marks (text ts) = ts.count .mark := by
  induction ts with
  | nil => rfl
  | cons t ts ih =>
    rw [text_cons, marks_append, ih]
    cases t with
    | word w =>
      have hw : marks w.name = 0 := List.count_eq_zero.mpr w.plain
      simp [Token.text, hw]
    | mark =>
      have hm : marks "?" = 1 := by decide
      simp [Token.text, hm, Nat.add_comm]

/-- A column, qualified or not. -/
structure Column where
  /-- The table or its alias. -/
  tab : Option Word
  /-- The name. -/
  name : Word
  deriving DecidableEq

/-- `tab.name`, or `name`. -/
def Column.tokens (c : Column) : List Token :=
  match c.tab with
  | some t => [.word t, kw ".", .word c.name]
  | none => [.word c.name]

/-- A comparison. -/
inductive Op where
  /-- `=`. -/
  | eq
  /-- `<`. -/
  | lt
  /-- `>`. -/
  | gt
  /-- `>=`. -/
  | ge
  deriving DecidableEq

/-- The text of a comparison, with the blanks around it. -/
def Op.token : Op → Token
  | .eq => kw " = "
  | .lt => kw " < "
  | .gt => kw " > "
  | .ge => kw " >= "

mutual

/-- Scalar expressions. -/
inductive Scalar where
  /-- A column. -/
  | col (c : Column)
  /-- A placeholder, with the value meant for it. -/
  | param (v : Value)
  /-- A literal: its text and its value. -/
  | lit (w : Word) (v : Value)
  /-- `LOWER(e)`. -/
  | lower (e : Scalar)
  /-- `CAST(e AS TEXT)`. -/
  | castText (e : Scalar)
  /-- `COUNT(c)`. -/
  | count (c : Column)
  /-- `MAX(e)`. -/
  | max (e : Scalar)
  /-- `CASE WHEN c THEN a ELSE b END`. -/
  | caseWhen (c : Cond) (a b : Scalar)

/-- Conditions. -/
inductive Cond where
  /-- `a op b`. -/
  | cmp (op : Op) (a b : Scalar)
  /-- `a LIKE b ESCAPE '\'`. -/
  | like (a b : Scalar)
  /-- `a BETWEEN b AND c`. -/
  | between (a b c : Scalar)
  /-- `a AND b`, with the text of the connective as it is laid out. -/
  | and (sep : Word) (a b : Cond)
  /-- `a OR b`. -/
  | or (a b : Cond)
  /-- `NOT (a)`. -/
  | not (a : Cond)
  /-- `(a)`. -/
  | paren (a : Cond)
  /-- `EXISTS (q)`. -/
  | exist (q : Select)
  /-- `a IN (q)`. -/
  | within (a : Scalar) (q : Select)

/-- What a `SELECT` reads from. -/
inductive Source where
  /-- A table under its own name. -/
  | table (t : Word)
  /-- A table under an alias. -/
  | alias (t a : Word)
  /-- `s JOIN t ON c`. -/
  | join (s t : Source) (c : Cond)
  /-- `json_each(json_extract(doc, path))`. -/
  | jsonEach (doc path : Scalar)

/-- Subqueries of one column. -/
inductive Select where
  /-- `SELECT e FROM s WHERE c`. -/
  | from (e : Scalar) (s : Source) (c : Cond)
  /-- `p UNION q`. -/
  | union (p q : Select)

end

/-! ### Text and arguments -/

mutual

/-- The tokens of a scalar. -/
def Scalar.tokens : Scalar → List Token
  | .col c => c.tokens
  | .param _ => [.mark]
  | .lit w _ => [.word w]
  | .lower e => kw "LOWER(" :: (e.tokens ++ [kw ")"])
  | .castText e => kw "CAST(" :: (e.tokens ++ [kw " AS TEXT)"])
  | .count c => kw "COUNT(" :: (c.tokens ++ [kw ")"])
  | .max e => kw "MAX(" :: (e.tokens ++ [kw ")"])
  | .caseWhen c a b =>
    kw "CASE WHEN " :: (c.tokens ++ kw " THEN " ::
      (a.tokens ++ kw " ELSE " :: (b.tokens ++ [kw " END"])))

/-- The tokens of a condition. -/
def Cond.tokens : Cond → List Token
  | .cmp op a b => a.tokens ++ op.token :: b.tokens
  | .like a b => a.tokens ++ kw " LIKE " :: (b.tokens ++ [kw " ESCAPE '\\'"])
  | .between a b c => a.tokens ++ kw " BETWEEN " :: (b.tokens ++ kw " AND " :: c.tokens)
  | .and sep a b => a.tokens ++ .word sep :: b.tokens
  | .or a b => a.tokens ++ kw " OR " :: b.tokens
  | .not a => kw "NOT (" :: (a.tokens ++ [kw ")"])
  | .paren a => kw "(" :: (a.tokens ++ [kw ")"])
  | .exist q => kw "EXISTS (" :: (q.tokens ++ [kw ")"])
  | .within a q => a.tokens ++ kw " IN (" :: (q.tokens ++ [kw ")"])

/-- The tokens of a source. -/
def Source.tokens : Source → List Token
  | .table t => [.word t]
  | .alias t a => [.word t, kw " ", .word a]
  | .join s t c => s.tokens ++ kw " JOIN " :: (t.tokens ++ kw " ON " :: c.tokens)
  | .jsonEach d p =>
    kw "json_each(json_extract(" :: (d.tokens ++ kw ", " :: (p.tokens ++ [kw "))"]))

/-- The tokens of a subquery. -/
def Select.tokens : Select → List Token
  | .from e s c =>
    kw "SELECT " :: (e.tokens ++ kw " FROM " :: (s.tokens ++ kw " WHERE " :: c.tokens))
  | .union p q => p.tokens ++ kw " UNION " :: q.tokens

end

/-- The text of a condition. -/
def Cond.render (c : Cond) : String := text c.tokens

mutual

/-- The arguments of a scalar, left to right. -/
def Scalar.args : Scalar → List Value
  | .param v => [v]
  | .col _ | .lit _ _ | .count _ => []
  | .lower e | .castText e | .max e => e.args
  | .caseWhen c a b => c.args ++ (a.args ++ b.args)

/-- The arguments of a condition, left to right. -/
def Cond.args : Cond → List Value
  | .cmp _ a b => a.args ++ b.args
  | .like a b => a.args ++ b.args
  | .between a b c => a.args ++ (b.args ++ c.args)
  | .and _ a b => a.args ++ b.args
  | .or a b => a.args ++ b.args
  | .not a => a.args
  | .paren a => a.args
  | .exist q => q.args
  | .within a q => a.args ++ q.args

/-- The arguments of a source, left to right. -/
def Source.args : Source → List Value
  | .table _ => []
  | .alias _ _ => []
  | .join s t c => s.args ++ (t.args ++ c.args)
  | .jsonEach d p => d.args ++ p.args

/-- The arguments of a subquery, left to right. -/
def Select.args : Select → List Value
  | .from e s c => e.args ++ (s.args ++ c.args)
  | .union p q => p.args ++ q.args

end

@[simp] theorem count_kw (s : String) (h : '?' ∉ s.toList) (ts : List Token) :
    (kw s h :: ts).count .mark = ts.count .mark := by
  simp [kw]

@[simp] theorem count_column (c : Column) : c.tokens.count .mark = 0 := by
  rcases c with ⟨_ | t, n⟩ <;> simp [Column.tokens]

@[simp] theorem count_op (op : Op) (ts : List Token) :
    (op.token :: ts).count .mark = ts.count .mark := by
  cases op <;> exact count_kw _ _ ts

mutual

theorem Scalar.count_tokens : ∀ e : Scalar, e.tokens.count .mark = e.args.length
  | .col c => by simp [Scalar.tokens, Scalar.args]
  | .param v => by simp [Scalar.tokens, Scalar.args]
  | .lit w v => by simp [Scalar.tokens, Scalar.args]
  | .lower e => by simp [Scalar.tokens, Scalar.args, Scalar.count_tokens e]
  | .castText e => by simp [Scalar.tokens, Scalar.args, Scalar.count_tokens e]
  | .count c => by simp [Scalar.tokens, Scalar.args]
  | .max e => by simp [Scalar.tokens, Scalar.args, Scalar.count_tokens e]
  | .caseWhen c a b => by
    simp [Scalar.tokens, Scalar.args, Scalar.count_tokens a, Scalar.count_tokens b,
      Cond.count_tokens c]

theorem Cond.count_tokens : ∀ c : Cond, c.tokens.count .mark = c.args.length
  | .cmp op a b => by simp [Cond.tokens, Cond.args, Scalar.count_tokens a, Scalar.count_tokens b]
  | .like a b => by simp [Cond.tokens, Cond.args, Scalar.count_tokens a, Scalar.count_tokens b]
  | .between a b c => by
    simp [Cond.tokens, Cond.args, Scalar.count_tokens a, Scalar.count_tokens b,
      Scalar.count_tokens c]
  | .and sep a b => by simp [Cond.tokens, Cond.args, Cond.count_tokens a, Cond.count_tokens b]
  | .or a b => by simp [Cond.tokens, Cond.args, Cond.count_tokens a, Cond.count_tokens b]
  | .not a => by simp [Cond.tokens, Cond.args, Cond.count_tokens a]
  | .paren a => by simp [Cond.tokens, Cond.args, Cond.count_tokens a]
  | .exist q => by simp [Cond.tokens, Cond.args, Select.count_tokens q]
  | .within a q => by simp [Cond.tokens, Cond.args, Scalar.count_tokens a, Select.count_tokens q]

theorem Source.count_tokens : ∀ s : Source, s.tokens.count .mark = s.args.length
  | .table t => by simp [Source.tokens, Source.args]
  | .alias t a => by simp [Source.tokens, Source.args]
  | .join s t c => by
    simp [Source.tokens, Source.args, Source.count_tokens s, Source.count_tokens t,
      Cond.count_tokens c]
  | .jsonEach d p =>
    by simp [Source.tokens, Source.args, Scalar.count_tokens d, Scalar.count_tokens p]

theorem Select.count_tokens : ∀ q : Select, q.tokens.count .mark = q.args.length
  | .from e s c => by
    simp [Select.tokens, Select.args, Scalar.count_tokens e, Source.count_tokens s,
      Cond.count_tokens c]
  | .union p q => by simp [Select.tokens, Select.args, Select.count_tokens p, Select.count_tokens q]

end

/-- **There are as many placeholders in the text as arguments.** -/
theorem Cond.marks_render (c : Cond) : marks c.render = c.args.length := by
  rw [Cond.render, marks_text, Cond.count_tokens]

/-! ### Binding -/

mutual

/-- Bind the values of a list to the placeholders of a scalar, left to right, and return
what is left of the list. -/
def Scalar.fill : Scalar → List Value → Scalar × List Value
  | .param _, l => (.param (l.headD .null), l.tail)
  | .col c, l => (.col c, l)
  | .lit w v, l => (.lit w v, l)
  | .lower e, l => (.lower (e.fill l).1, (e.fill l).2)
  | .castText e, l => (.castText (e.fill l).1, (e.fill l).2)
  | .count c, l => (.count c, l)
  | .max e, l => (.max (e.fill l).1, (e.fill l).2)
  | .caseWhen c a b, l =>
    (.caseWhen (c.fill l).1 (a.fill (c.fill l).2).1 (b.fill (a.fill (c.fill l).2).2).1,
      (b.fill (a.fill (c.fill l).2).2).2)

/-- Bind the values of a list to the placeholders of a condition. -/
def Cond.fill : Cond → List Value → Cond × List Value
  | .cmp op a b, l => (.cmp op (a.fill l).1 (b.fill (a.fill l).2).1, (b.fill (a.fill l).2).2)
  | .like a b, l => (.like (a.fill l).1 (b.fill (a.fill l).2).1, (b.fill (a.fill l).2).2)
  | .between a b c, l =>
    (.between (a.fill l).1 (b.fill (a.fill l).2).1 (c.fill (b.fill (a.fill l).2).2).1,
      (c.fill (b.fill (a.fill l).2).2).2)
  | .and sep a b, l => (.and sep (a.fill l).1 (b.fill (a.fill l).2).1, (b.fill (a.fill l).2).2)
  | .or a b, l => (.or (a.fill l).1 (b.fill (a.fill l).2).1, (b.fill (a.fill l).2).2)
  | .not a, l => (.not (a.fill l).1, (a.fill l).2)
  | .paren a, l => (.paren (a.fill l).1, (a.fill l).2)
  | .exist q, l => (.exist (q.fill l).1, (q.fill l).2)
  | .within a q, l => (.within (a.fill l).1 (q.fill (a.fill l).2).1, (q.fill (a.fill l).2).2)

/-- Bind the values of a list to the placeholders of a source. -/
def Source.fill : Source → List Value → Source × List Value
  | .table t, l => (.table t, l)
  | .alias t a, l => (.alias t a, l)
  | .join s t c, l =>
    (.join (s.fill l).1 (t.fill (s.fill l).2).1 (c.fill (t.fill (s.fill l).2).2).1,
      (c.fill (t.fill (s.fill l).2).2).2)
  | .jsonEach d p, l => (.jsonEach (d.fill l).1 (p.fill (d.fill l).2).1, (p.fill (d.fill l).2).2)

/-- Bind the values of a list to the placeholders of a subquery. -/
def Select.fill : Select → List Value → Select × List Value
  | .from e s c, l =>
    (.from (e.fill l).1 (s.fill (e.fill l).2).1 (c.fill (s.fill (e.fill l).2).2).1,
      (c.fill (s.fill (e.fill l).2).2).2)
  | .union p q, l => (.union (p.fill l).1 (q.fill (p.fill l).2).1, (q.fill (p.fill l).2).2)

end

mutual

theorem Scalar.fill_args :
    ∀ (e : Scalar) (l rest : List Value), (e.fill l).1.fill (e.args ++ rest) = (e, rest)
  | .col _, _, _ | .param _, _, _ | .lit _ _, _, _ | .count _, _, _ =>
    by simp [Scalar.fill, Scalar.args]
  | .lower e, l, rest | .castText e, l, rest | .max e, l, rest => by
    simp [Scalar.fill, Scalar.args, Scalar.fill_args e]
  | .caseWhen c a b, l, rest => by
    simp [Scalar.fill, Scalar.args, Scalar.fill_args a, Scalar.fill_args b, Cond.fill_args c]

/-- **Positional binding is right**: binding the arguments of a condition to the placeholders
of its text, one after the other, gives the condition back. -/
theorem Cond.fill_args :
    ∀ (c : Cond) (l rest : List Value), (c.fill l).1.fill (c.args ++ rest) = (c, rest)
  | .cmp op a b, l, rest => by simp [Cond.fill, Cond.args, Scalar.fill_args a, Scalar.fill_args b]
  | .like a b, l, rest => by simp [Cond.fill, Cond.args, Scalar.fill_args a, Scalar.fill_args b]
  | .between a b c, l, rest => by
    simp [Cond.fill, Cond.args, Scalar.fill_args a, Scalar.fill_args b, Scalar.fill_args c]
  | .and _ a b, l, rest | .or a b, l, rest => by
    simp [Cond.fill, Cond.args, Cond.fill_args a, Cond.fill_args b]
  | .not a, l, rest | .paren a, l, rest => by simp [Cond.fill, Cond.args, Cond.fill_args a]
  | .exist q, l, rest => by simp [Cond.fill, Cond.args, Select.fill_args q]
  | .within a q, l, rest => by simp [Cond.fill, Cond.args, Scalar.fill_args a, Select.fill_args q]

theorem Source.fill_args :
    ∀ (s : Source) (l rest : List Value), (s.fill l).1.fill (s.args ++ rest) = (s, rest)
  | .table _, _, _ | .alias _ _, _, _ => by simp [Source.fill, Source.args]
  | .join s t c, l, rest => by
    simp [Source.fill, Source.args, Source.fill_args s, Source.fill_args t, Cond.fill_args c]
  | .jsonEach d p, l, rest =>
    by simp [Source.fill, Source.args, Scalar.fill_args d, Scalar.fill_args p]

theorem Select.fill_args :
    ∀ (q : Select) (l rest : List Value), (q.fill l).1.fill (q.args ++ rest) = (q, rest)
  | .from e s c, l, rest => by
    simp [Select.fill, Select.args, Scalar.fill_args e, Source.fill_args s, Cond.fill_args c]
  | .union p q, l, rest =>
    by simp [Select.fill, Select.args, Select.fill_args p, Select.fill_args q]

end

/-! ### Statements -/

/-- A part of a statement. -/
inductive Part where
  /-- Fixed text. -/
  | fixed (w : Word)
  /-- A condition. -/
  | cond (c : Cond)

/-- The tokens of a part. -/
def Part.tokens : Part → List Token
  | .fixed w => [.word w]
  | .cond c => c.tokens

/-- The arguments of a part. -/
def Part.args : Part → List Value
  | .fixed _ => []
  | .cond c => c.args

/-- Bind the values of a list to the placeholders of a part. -/
def Part.fill : Part → List Value → Part × List Value
  | .fixed w, l => (.fixed w, l)
  | .cond c, l => (.cond (c.fill l).1, (c.fill l).2)

/-- A statement: fixed text with conditions in between. -/
abbrev Statement := List Part

namespace Statement

/-- The text of a statement. -/
def render (s : Statement) : String := text (s.flatMap Part.tokens)

/-- The arguments of a statement, in the order of their placeholders. -/
def args (s : Statement) : List Value := s.flatMap Part.args

/-- Bind the values of a list to the placeholders of a statement, left to right. -/
def fill : Statement → List Value → Statement × List Value
  | [], l => ([], l)
  | p :: s, l => ((p.fill l).1 :: (fill s (p.fill l).2).1, (fill s (p.fill l).2).2)

/-- There are as many placeholders in the text as arguments. -/
theorem marks_render (s : Statement) : marks (render s) = (args s).length := by
  rw [render, args, marks_text]
  induction s with
  | nil => rfl
  | cons p s ih =>
    rw [List.flatMap_cons, List.flatMap_cons, List.count_append, List.length_append, ih]
    cases p with
    | fixed w => simp [Part.tokens, Part.args]
    | cond c => simp [Part.tokens, Part.args, Cond.count_tokens]

/-- **Positional binding is right**: the arguments of a statement, bound one after the other
to the placeholders of its text, give every placeholder the value meant for it. -/
theorem fill_args (s : Statement) (l rest : List Value) :
    fill (fill s l).1 (args s ++ rest) = (s, rest) := by
  induction s generalizing l with
  | nil => rfl
  | cons p s ih =>
    cases p with
    | fixed w =>
      simp only [fill, args, Part.fill, Part.args, List.flatMap_cons, List.nil_append] at ih ⊢
      rw [ih]
    | cond c =>
      have hc := Cond.fill_args c l (args s ++ rest)
      simp only [fill, args, Part.fill, Part.args, List.flatMap_cons, List.append_assoc] at hc ih ⊢
      rw [hc, ih]

end Statement

/-! ### Meaning -/

/-- A row: the columns with their values. -/
abbrev Row := List (String × Value)

/-- The rows in scope, innermost first, each under the name it is bound to. -/
abbrev Scope := List (String × Row)

/-- A database: the rows of each table. -/
abbrev Db := String → List Row

/-- The value of a column: of the row bound to its table, or of the innermost row that has
a column of that name. -/
def Column.value (sc : Scope) (c : Column) : Value :=
  match c.tab with
  | some t => ((sc.lookup t.name).bind (·.lookup c.name.name)).getD .null
  | none => (sc.findSome? (·.2.lookup c.name.name)).getD .null

/-- The greater of two integers; what is not an integer is passed over. -/
def maxStep : Value → Value → Value
  | .int a, .int b => .int (max a b)
  | .null, .int b => .int b
  | m, _ => m

/-- `MAX` of integers: `NULL` when there are none. -/
def maxInt (vs : List Value) : Value := vs.foldl maxStep .null

/-- `a IN (vs)`. -/
def in3 (a : Value) (vs : List Value) : Truth :=
  if vs.any fun v => a.eq3 v == some true then some true
  else if vs.any fun v => a.eq3 v == none then none
  else some false

/-- `a op b`. -/
def Op.eval : Op → Value → Value → Truth
  | .eq, a, b => a.eq3 b
  | .lt, a, b => a.lt3 b
  | .gt, a, b => b.lt3 a
  | .ge, a, b => b.le3 a

mutual

/-- The value of a scalar in a scope, the aggregates taken over the scopes of the group. -/
def Scalar.eval (db : Db) (sc : Scope) (grp : List Scope) : Scalar → Value
  | .col c => c.value sc
  | .param v => v
  | .lit _ v => v
  | .lower e => (e.eval db sc grp).lower
  | .castText e => (e.eval db sc grp).castText
  | .count c => .int (grp.countP fun g => c.value g ≠ .null)
  | .max e => maxInt (grp.map fun g => e.eval db g [])
  | .caseWhen c a b => if c.eval db sc grp = some true then a.eval db sc grp else b.eval db sc grp

/-- The truth of a condition. -/
def Cond.eval (db : Db) (sc : Scope) (grp : List Scope) : Cond → Truth
  | .cmp op a b => op.eval (a.eval db sc grp) (b.eval db sc grp)
  | .like a b => (a.eval db sc grp).like3 (b.eval db sc grp)
  | .between a b c =>
    and3 ((b.eval db sc grp).le3 (a.eval db sc grp)) ((a.eval db sc grp).le3 (c.eval db sc grp))
  | .and _ a b => and3 (a.eval db sc grp) (b.eval db sc grp)
  | .or a b => or3 (a.eval db sc grp) (b.eval db sc grp)
  | .not a => not3 (a.eval db sc grp)
  | .paren a => a.eval db sc grp
  | .exist q => some (q.eval db sc ≠ [])
  | .within a q => in3 (a.eval db sc grp) (q.eval db sc)

/-- The scopes a source adds its rows to. -/
def Source.eval (db : Db) (sc : Scope) : Source → List Scope
  | .table t => (db t.name).map fun r => (t.name, r) :: sc
  | .alias t a => (db t.name).map fun r => (a.name, r) :: sc
  | .join s t c =>
    (s.eval db sc).flatMap fun sc' => (t.eval db sc').filter fun sc'' => c.eval db sc'' [] =
      some true
  | .jsonEach d p =>
    (Sql.jsonEach (d.eval db sc []) (p.eval db sc [])).map fun v => ("json_each", [("value", v)]) ::
      sc

/-- The column a subquery returns. -/
def Select.eval (db : Db) (sc : Scope) : Select → List Value
  | .from e s c =>
    ((s.eval db sc).filter fun sc' => c.eval db sc' [] = some true).map fun sc' => e.eval db sc' []
  | .union p q => (p.eval db sc ++ q.eval db sc).dedup

end

/-! ### Subqueries -/

section Subqueries

variable {db : Db} {sc : Scope} {grp : List Scope} {e : Scalar} {s : Source} {c : Cond} {v : Value}

theorem mem_eval_from : v ∈ (Select.from e s c).eval db sc ↔
    ∃ sc' ∈ s.eval db sc, c.eval db sc' [] = some true ∧ e.eval db sc' [] = v := by
  simp [Select.eval, and_assoc]

theorem mem_eval_union {p q : Select} :
    v ∈ (Select.union p q).eval db sc ↔ v ∈ p.eval db sc ∨ v ∈ q.eval db sc := by
  simp [Select.eval]

/-- `EXISTS` is never `NULL`, and asks for a row on which the condition is true. -/
theorem eval_exist : (Cond.exist (.from e s c)).eval db sc grp =
    some ((s.eval db sc).any fun sc' => c.eval db sc' [] == some true) := by
  rw [Cond.eval, Option.some.injEq, Bool.eq_iff_iff, decide_eq_true_iff, List.any_eq_true]
  constructor
  · intro hne
    obtain ⟨v, hv⟩ := List.exists_mem_of_ne_nil _ hne
    obtain ⟨sc', hsc', hc, -⟩ := mem_eval_from.mp hv
    exact ⟨sc', hsc', by simpa using hc⟩
  · rintro ⟨sc', hsc', hc⟩
    exact List.ne_nil_of_mem (mem_eval_from.mpr ⟨sc', hsc', by simpa using hc, rfl⟩)

/-- `IN` is never `NULL` where neither side is. -/
theorem eval_within {q : Select} (ha : e.eval db sc grp = v) (hv : v ≠ .null)
    (hq : Value.null ∉ q.eval db sc) :
    (Cond.within e q).eval db sc grp = some (decide (v ∈ q.eval db sc)) := by
  have heq : ∀ w ∈ q.eval db sc, v.eq3 w = some (decide (v = w)) := fun w hw => by
    have hw : w ≠ .null := fun h => hq (h ▸ hw)
    simp [Value.eq3, hv, hw]
  rw [Cond.eval, ha, in3]
  split_ifs with h₁ h₂
  · obtain ⟨w, hw, h⟩ := List.any_eq_true.mp h₁
    rw [heq w hw] at h
    obtain rfl : v = w := by simpa using h
    simp [hw]
  · obtain ⟨w, hw, h⟩ := List.any_eq_true.mp h₂
    simp [heq w hw] at h
  · simp only [Option.some.injEq]
    rw [eq_comm, decide_eq_false_iff_not]
    intro hmem
    exact h₁ (List.any_eq_true.mpr ⟨v, hmem, by simp [heq v hmem]⟩)

end Subqueries

end HttpCatch.Sql
