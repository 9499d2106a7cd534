import HttpCatch.Library.SqlSyntax

/-!
# Joins, groups and aggregates

What a `SELECT` does around the conditions of `HttpCatch.Library.SqlSyntax`: `leftJoin`
adds the rows of a table to a scope, and a row of `NULL`s where none fits; `groupBy`
collects the scopes with the same key; `MAX` is taken over a group.

* `groupBy_flatMap` — where each row has a key of its own, grouping the join of the rows by
  that key gives back what each row was joined to.
* `holds_conj` — a conjunction keeps the rows that each of its clauses keeps.
* `maxInt_eq` — `MAX` is the maximum of the integers, `NULL` where there are none.
-/

namespace HttpCatch.Sql

open HttpCatch.Go

/-- The value of a column. -/
def cell (row : Row) (column : String) : Value := (row.lookup column).getD .null

/-! ### Conditions of a clause -/

/-- Without `NULL`s, `IN` is membership. -/
theorem in3_of_ne_null {a : Value} {vs : List Value} (ha : a ≠ .null) (hvs : ∀ v ∈ vs, v ≠ .null) :
    in3 a vs = some (decide (a ∈ vs)) := by
  have heq : ∀ v ∈ vs, a.eq3 v = some (decide (a = v)) := by
    intro v hv
    rw [Value.eq3, if_neg (not_or.mpr ⟨ha, hvs v hv⟩)]
  have htrue : (vs.any fun v => a.eq3 v == some true) = decide (a ∈ vs) := by
    rw [Bool.eq_iff_iff, List.any_eq_true, decide_eq_true_eq]
    constructor
    · rintro ⟨v, hv, h⟩
      rw [heq v hv] at h
      obtain rfl : a = v := by simpa using h
      exact hv
    · intro hmem
      exact ⟨a, hmem, by rw [heq a hmem]; simp⟩
  have hnull : (vs.any fun v => a.eq3 v == none) = false := by
    rw [List.any_eq_false]
    intro v hv
    rw [heq v hv]
    simp
  rw [in3, htrue, hnull]
  by_cases hmem : a ∈ vs <;> simp [hmem]

/-- Does a `WHERE` or `HAVING` clause keep the row? A clause that is not there keeps it. -/
def holds (db : Db) (sc : Scope) (grp : List Scope) (c : Option Cond) : Bool :=
  c.all fun c => c.eval db sc grp == some true

/-- The conjunction of clauses, where there are any. -/
def conj (sep : Word) : List Cond → Option Cond
  | [] => none
  | c :: cs =>
    match conj sep cs with
    | none => some c
    | some d => some (.and sep c d)

section Clauses

variable {db : Db} {sc : Scope} {grp : List Scope}

theorem conj_eq_none {sep : Word} {cs : List Cond} : conj sep cs = none ↔ cs = [] := by
  cases cs with
  | nil => simp [conj]
  | cons c cs => cases h : conj sep cs <;> simp [conj, h]

/-- **A conjunction keeps what each of its clauses keeps.** -/
theorem holds_conj (sep : Word) (cs : List Cond) :
    holds db sc grp (conj sep cs) = cs.all fun c => c.eval db sc grp == some true := by
  induction cs with
  | nil => rfl
  | cons c cs ih =>
    rw [List.all_cons, ← ih, conj]
    cases conj sep cs with
    | none => simp [holds]
    | some d =>
      rw [Bool.eq_iff_iff]
      simp [holds, Cond.eval, and3_eq_true]

/-- The last clause of a conjunction may itself be one. -/
theorem holds_conj_append (sep : Word) (cs : List Cond) (o : Option Cond) :
    holds db sc grp (conj sep (cs ++ o.toList)) =
      ((cs.all fun c => c.eval db sc grp == some true) && holds db sc grp o) := by
  rw [holds_conj, List.all_append]
  cases o <;> simp [holds]

end Clauses

/-! ### Joins -/

/-- `LEFT JOIN t a ON c`: the scope with each row of the table that the condition joins to it,
or with a row of `NULL`s where there is none. -/
def leftJoin (db : Db) (t a : Word) (on : Cond) (sc : Scope) : List Scope :=
  match (db t.name).filter fun row => on.eval db ((a.name, row) :: sc) [] == some true with
  | [] => [(a.name, []) :: sc]
  | row :: rows => (row :: rows).map fun row => (a.name, row) :: sc

theorem leftJoin_of_filter {db : Db} {t a : Word} {on : Cond} {sc : Scope} {rows : List Row}
    (h : (db t.name).filter (fun row => on.eval db ((a.name, row) :: sc) [] == some true) = rows) :
    leftJoin db t a on sc = (if rows = [] then [[]]
      else rows).map fun row => (a.name, row) :: sc := by
  unfold leftJoin
  rw [h]
  cases rows <;> rfl

/-! ### Groups -/

section Groups

variable {α β κ : Type} [DecidableEq κ] (key : α → κ)

/-- `GROUP BY key`. -/
def groupBy (l : List α) : List (List α) :=
  (l.map key).dedup.map fun k => l.filter fun a => key a = k

variable {key}

/-- A block of rows with one key, which no other row has, is a group. -/
theorem groupBy_append {g l : List α} {k : κ} (hne : g ≠ []) (hg : ∀ a ∈ g, key a = k)
    (hl : ∀ a ∈ l, key a ≠ k) :
    groupBy key (g ++ l) = g :: groupBy key l := by
  have hk : k ∉ l.map key := by simpa using fun a ha => hl a ha
  have hkeys : ((g ++ l).map key).dedup = k :: (l.map key).dedup := by
    obtain ⟨a, g, rfl⟩ := List.exists_cons_of_ne_nil hne
    induction g generalizing a with
    | nil =>
      have ha : key a = k := hg a (by simp)
      simp only [List.cons_append, List.nil_append, List.map_cons, ha]
      exact List.dedup_cons_of_notMem hk
    | cons b g ih =>
      have hb : key a = key b := by rw [hg a (by simp), hg b (by simp)]
      rw [List.cons_append, List.map_cons, List.dedup_cons_of_mem (by simp [hb])]
      exact ih b (by simp) fun c hc => hg c (List.mem_cons_of_mem a hc)
  unfold groupBy
  rw [hkeys, List.map_cons, List.filter_append]
  refine congrArg₂ _ ?_ (List.map_congr_left fun k' hk' => ?_)
  · rw [List.filter_eq_self.mpr (by simpa using hg), List.filter_eq_nil_iff.mpr (by simpa using hl),
      List.append_nil]
  · have hne' : k ≠ k' := fun h => hk (by rw [h]; exact List.mem_dedup.mp hk')
    rw [List.filter_append, List.filter_eq_nil_iff.mpr
      (by simpa using fun a ha => (hg a ha).trans_ne hne'), List.nil_append]

/-- **Grouping a join by a key of the joined rows** gives, row by row, what the row was joined
to, where that is anything. -/
theorem groupBy_flatMap {rows : List β} {f : β → List α} {key' : β → κ}
    (hf : ∀ b, ∀ a ∈ f b, key a = key' b) (hkey : (rows.map key').Nodup) :
    groupBy key (rows.flatMap f) = (rows.map f).filter (· ≠ []) := by
  induction rows with
  | nil => rfl
  | cons b rows ih =>
    rw [List.map_cons, List.nodup_cons] at hkey
    rw [List.flatMap_cons, List.map_cons]
    by_cases hb : f b = []
    · simpa [hb] using ih hkey.2
    · rw [groupBy_append hb (hf b) fun a ha => ?_, ih hkey.2,
        List.filter_cons_of_pos (by simpa using hb)]
      obtain ⟨b', hb', ha⟩ := List.mem_flatMap.mp ha
      rw [hf b' a ha]
      exact fun h => hkey.1 (List.mem_map.mpr ⟨b', hb', h⟩)

omit [DecidableEq κ] in
/-- `HAVING` and the select list over groups of which each row has one, where `WHERE` keeps it. -/
theorem map_filter_groups {γ : Type} {group : β → List α} {keep having : β → Bool}
    {p : List α → Bool} {f : List α → γ} {f' : β → γ} (hne : ∀ b, group b ≠ [])
    (hp : ∀ b, p (group b) = having b) (hf : ∀ b, f (group b) = f' b) (rows : List β) :
    (((rows.map fun b => if keep b then group b else []).filter (· ≠ [])).filter p).map f =
      (rows.filter fun b => keep b && having b).map f' := by
  induction rows with
  | nil => rfl
  | cons b rows ih =>
    rw [List.map_cons, List.filter_cons (p := fun b => keep b && having b)]
    by_cases hk : keep b
    · by_cases hh : having b <;> simpa [hk, hh, hne b, hp b, hf b] using ih
    · simpa [hk] using ih

/-- The groups have all the rows between them. -/
theorem sum_length_groupBy (l : List α) : ((groupBy key l).map List.length).sum = l.length := by
  have hlen : (l.map key).length = l.length := List.length_map key
  rw [groupBy, List.map_map, ← hlen, ← List.sum_map_count_dedup_eq_length (l.map key)]
  refine congrArg List.sum (List.map_congr_left fun k _ => ?_)
  rw [Function.comp, List.count, List.countP_map, List.countP_eq_length_filter]
  rfl

/-- A fold over the groups that reads a group's key off its first row and takes the number of
its rows is a fold over the keys. -/
theorem foldl_groupBy {σ : Type} (f : σ → κ → ℕ → σ) (l : List α) (s : σ) :
    (groupBy key l).foldl (fun s g => match g with | [] => s | a :: _ => f s (key a) g.length) s =
      (l.map key).dedup.foldl (fun s k => f s k ((l.map key).countP (· = k))) s := by
  rw [groupBy, List.foldl_map]
  refine List.foldl_ext _ _ s fun s k hk => ?_
  have hlen : (l.map key).countP (· = k) = (l.filter fun a => key a = k).length := by
    rw [List.countP_map, List.countP_eq_length_filter]
    rfl
  obtain ⟨a, ha, rfl⟩ := List.mem_map.mp (List.mem_dedup.mp hk)
  have hmem : a ∈ l.filter fun b => key b = key a := List.mem_filter.mpr ⟨ha, by simp⟩
  rw [hlen]
  cases hg : l.filter fun b => key b = key a with
  | nil => rw [hg] at hmem; cases hmem
  | cons b g =>
    have hb : b ∈ l.filter fun b => key b = key a := by rw [hg]; exact List.mem_cons_self
    rw [← of_decide_eq_true (List.mem_filter.mp hb).2]

end Groups

/-! ### Aggregates and results -/

/-- A column read into a nullable integer. -/
def Value.int? : Value → Option ℤ
  | .int n => some n
  | _ => none

/-- A column read into a string. -/
def Value.str : Value → GoString
  | .text s => s
  | .blob b => b
  | _ => []

theorem foldl_maxStep (a : ℤ) (vs : List Value) :
    vs.foldl maxStep (.int a) = .int ((vs.filterMap Value.int?).foldl max a) := by
  induction vs generalizing a with
  | nil => rfl
  | cons v vs ih =>
    cases v with
    | int b => exact ih (max a b)
    | null => exact ih a
    | text s => exact ih a
    | blob s => exact ih a

/-- **`MAX` is the maximum of the integers**, `NULL` where there are none. -/
theorem maxInt_eq (vs : List Value) :
    maxInt vs = (vs.filterMap Value.int?).max?.elim .null .int := by
  induction vs with
  | nil => rfl
  | cons v vs ih =>
    cases v with
    | int a => exact foldl_maxStep a vs
    | null => exact ih
    | text s => exact ih
    | blob s => exact ih

end HttpCatch.Sql
