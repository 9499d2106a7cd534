import Mathlib.Data.List.Nodup
import Mathlib.Data.List.Perm.Basic
import Mathlib.Order.Lattice

/-!
# Keeping the newest

A table of rows that have a key and a time, and what is left when only the `n` newest may stay.
Rows of the same time may be taken in any order: all that is known of the order is `Descending`.

* `newestKept_keep` — the rows kept are the `n` newest.
* `keep_keep` — a second time there is nothing to remove.
-/

namespace HttpCatch.Retention

section

variable {α κ τ : Type} [DecidableEq κ] [LinearOrder τ]

/-- The rows in an order by falling time. -/
structure Descending (time : α → τ) (rows sorted : List α) : Prop where
  perm : sorted.Perm rows
  falling : sorted.Pairwise fun a b => time b ≤ time a

/-- The rows whose key is among those of the first `n`, in the order of the table. -/
def keep (key : α → κ) (n : ℕ) (sorted rows : List α) : List α :=
  rows.filter fun row => key row ∈ (sorted.take n).map key

/-- What is left of a table when its `n` newest rows are kept. -/
structure NewestKept (time : α → τ) (n : ℕ) (rows kept : List α) : Prop where
  sublist : kept.Sublist rows
  length : kept.length = min rows.length n
  newest : ∀ a ∈ kept, ∀ b ∈ rows, b ∉ kept → time b ≤ time a

variable {key : α → κ} {time : α → τ} {rows sorted : List α}

theorem mem_keep (hs : sorted.Perm rows) (hkey : (rows.map key).Nodup) {n : ℕ} {a : α} :
    a ∈ keep key n sorted rows ↔ a ∈ sorted.take n := by
  have hinj : ∀ b ∈ rows, ∀ a ∈ rows, key b = key a → b = a :=
    fun b hb a ha => List.inj_on_of_nodup_map hkey hb ha
  rw [keep, List.mem_filter, decide_eq_true_eq, List.mem_map]
  constructor
  · rintro ⟨ha, b, hb, hkeys⟩
    rwa [← hinj b (hs.mem_iff.mp (List.mem_of_mem_take hb)) a ha hkeys]
  · intro ha
    exact ⟨hs.mem_iff.mp (List.mem_of_mem_take ha), a, ha, rfl⟩

theorem length_keep (hs : sorted.Perm rows) (hkey : (rows.map key).Nodup) (n : ℕ) :
    (keep key n sorted rows).length = min rows.length n := by
  have hrows : rows.Nodup := List.Nodup.of_map key hkey
  have hperm : (keep key n sorted rows).Perm (sorted.take n) := by
    refine (List.perm_ext_iff_of_nodup (hrows.filter _) ?_).mpr fun a => mem_keep hs hkey
    exact (hs.nodup_iff.mpr hrows).sublist (List.take_sublist n sorted)
  rw [hperm.length_eq, List.length_take, hs.length_eq, Nat.min_comm]

/-- **The rows kept are the newest.** -/
theorem newestKept_keep (hs : Descending time rows sorted) (hkey : (rows.map key).Nodup) (n : ℕ) :
    NewestKept time n rows (keep key n sorted rows) where
  sublist := List.filter_sublist
  length := length_keep hs.perm hkey n
  newest := by
    intro a ha b hb hnot
    rw [mem_keep hs.perm hkey] at ha hnot
    -- the row removed stands behind the first `n`
    have hdrop : b ∈ sorted.drop n := by
      have hmem := hs.perm.mem_iff.mpr hb
      rw [← List.take_append_drop n sorted, List.mem_append] at hmem
      exact hmem.resolve_left hnot
    have hpair := hs.falling
    rw [← List.take_append_drop n sorted, List.pairwise_append] at hpair
    exact hpair.2.2 a ha b hdrop

/-- A table of at most `n` rows stays as it is. -/
theorem keep_of_length_le (hs : sorted.Perm rows) {n : ℕ} (h : rows.length ≤ n) :
    keep key n sorted rows = rows := by
  rw [keep, List.filter_eq_self]
  intro a ha
  rw [List.take_of_length_le (by rwa [hs.length_eq]), decide_eq_true_eq]
  exact List.mem_map_of_mem (hs.mem_iff.mpr ha)

/-- **A second time there is nothing to remove.** -/
theorem keep_keep (hs : sorted.Perm rows) (hkey : (rows.map key).Nodup) {n : ℕ} {sorted' : List α}
    (hs' : sorted'.Perm (keep key n sorted rows)) :
    keep key n sorted' (keep key n sorted rows) = keep key n sorted rows := by
  apply keep_of_length_le hs'
  rw [length_keep hs hkey]
  exact Nat.min_le_right _ _

end

end HttpCatch.Retention
