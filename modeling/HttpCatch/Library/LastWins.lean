import Mathlib.Data.List.Forall2
import Mathlib.Data.List.Induction
import Mathlib.Data.Option.Basic
import Mathlib.Logic.Function.Basic

/-!
# The last one wins

A loop that assigns each element of a list to its key leaves a map that holds, for each key, the
last element with it.

* `lastOf_concat` — one more element.
* `lastOf_of_unique` — an element that is alone with its key.
* `lastOf_filterMap` — an edit of the elements that leaves the keys alone.
* `lastOf_rel` — two lists whose elements correspond.
-/

namespace HttpCatch.LastWins

variable {α β K : Type} [DecidableEq K] (key : α → K)

/-- The map after the loop. -/
def lastOf (l : List α) : K → Option α :=
  l.foldl (fun m a => Function.update m (key a) (some a)) fun _ => none

variable {key} {l : List α} {a : α} {k : K}

@[simp] theorem lastOf_nil (k : K) : lastOf key [] k = none := rfl

theorem lastOf_concat (l : List α) (a : α) (k : K) :
    lastOf key (l ++ [a]) k = if key a = k then some a else lastOf key l k := by
  rw [lastOf, List.foldl_append, List.foldl_cons, List.foldl_nil, Function.update_apply, ← lastOf]
  simp only [eq_comm]

theorem mem_of_lastOf (h : lastOf key l k = some a) : a ∈ l ∧ key a = k := by
  induction l using List.reverseRecOn with
  | nil => cases h
  | append_singleton l b ih =>
    rw [lastOf_concat] at h
    split_ifs at h with hb
    · obtain rfl := Option.some.inj h
      exact ⟨List.mem_append_right l List.mem_cons_self, hb⟩
    · exact ⟨List.mem_append_left _ (ih h).1, (ih h).2⟩

theorem lastOf_eq_none : lastOf key l k = none ↔ ∀ a ∈ l, key a ≠ k := by
  induction l using List.reverseRecOn with
  | nil => simp
  | append_singleton l b ih =>
    rw [lastOf_concat]
    split_ifs with hb
    · simp only [List.mem_append, List.mem_singleton, false_iff]
      exact fun h => h b (.inr rfl) hb
    · rw [ih]
      simp only [List.mem_append, List.mem_singleton]
      constructor
      · rintro h a (ha | rfl)
        · exact h a ha
        · exact hb
      · exact fun h a ha => h a (.inl ha)

theorem exists_lastOf (key : α → K) (ha : a ∈ l) : ∃ b, lastOf key l (key a) = some b := by
  cases hl : lastOf key l (key a) with
  | none => exact absurd rfl (lastOf_eq_none.1 hl a ha)
  | some b => exact ⟨b, rfl⟩

/-- An element that is alone with its key. -/
theorem lastOf_of_unique (key : α → K) (ha : a ∈ l) (h : ∀ b ∈ l, key b = key a → b = a) :
    lastOf key l (key a) = some a := by
  obtain ⟨b, hb⟩ := exists_lastOf key ha
  obtain ⟨hmem, hkey⟩ := mem_of_lastOf hb
  rw [hb, h b hmem hkey]

/-- An edit that keeps the keys, and drops all elements of a key or none of them. -/
theorem lastOf_filterMap {f : α → Option α} (hkey : ∀ a b, f a = some b → key b = key a)
    (hdrop : ∀ a b, key a = key b → f a = none → f b = none) (l : List α) (k : K) :
    lastOf key (l.filterMap f) k = (lastOf key l k).bind f := by
  induction l using List.reverseRecOn with
  | nil => rfl
  | append_singleton l a ih =>
    rw [List.filterMap_append, lastOf_concat]
    cases ha : f a with
    | some b =>
      rw [List.filterMap_cons_some ha, List.filterMap_nil, lastOf_concat, hkey a b ha, ih]
      split_ifs
      · exact ha.symm
      · rfl
    | none =>
      rw [List.filterMap_cons_none ha, List.filterMap_nil, List.append_nil, ih]
      split_ifs with hk
      · cases hl : lastOf key l k with
        | none => exact ha.symm
        | some b =>
          have hb := (mem_of_lastOf hl).2
          exact (hdrop a b (hk.trans hb.symm) ha).trans ha.symm
      · rfl

/-- Where the elements of two lists correspond, so do the last ones of a key. -/
theorem lastOf_rel (key : α → K) (key' : β → K) {R : α → β → Prop}
    (hkey : ∀ a b, R a b → key a = key' b)
    {l : List α} {l' : List β} (h : List.Forall₂ R l l') (k : K) :
    Option.Rel R (lastOf key l k) (lastOf key' l' k) := by
  -- the loops keep the maps in correspondence, from wherever they start
  have loop : ∀ {m : K → Option α} {m' : K → Option β}, (∀ k, Option.Rel R (m k) (m' k)) →
      Option.Rel R (l.foldl (fun m a => Function.update m (key a) (some a)) m k)
        (l'.foldl (fun m b => Function.update m (key' b) (some b)) m' k) := by
    induction h with
    | nil => exact fun hm => hm k
    | @cons a b l l' hab _ ih =>
      intro m m' hm
      refine ih fun k' => ?_
      simp only [Function.update_apply, hkey a b hab]
      split_ifs
      · exact .some hab
      · exact hm k'
  exact loop fun _ => .none

end HttpCatch.LastWins
