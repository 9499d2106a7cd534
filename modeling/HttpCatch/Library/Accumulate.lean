import Mathlib.Data.List.Dedup
import Mathlib.Data.List.Induction
import Mathlib.Data.List.Sort

/-!
# Accumulators under keys

The loop that groups records: a map from keys to accumulators, where an update of a key makes its
accumulator first if there is none, and the accumulators in the order of their keys at the end. An
accumulator knows its key, and updates keep it (`Update`), so the map is a list.

* `inOrder_accumulate` — the result has one accumulator for each key updated, in order, and each
  went through the updates of its key.
-/

namespace HttpCatch.Accumulate

section

variable {α κ : Type} (key : α → κ)

/-- An update of the accumulator of one key. -/
structure Update where
  target : κ
  run : α → α
  keeps : ∀ a, key (run a) = key a

variable [DecidableEq κ] (new : κ → α)

/-- Update the accumulator of a key, a new one if there is none. -/
def upsert (u : Update key) : List α → List α
  | [] => [u.run (new u.target)]
  | a :: m => if key a = u.target then u.run a :: m else a :: upsert u m

/-- The loop. -/
def accumulate (us : List (Update key)) : List α := us.foldl (fun m u => upsert key new u m) []

variable {key}

/-- What the updates make of an accumulator: those of its key are applied. -/
def updated (us : List (Update key)) (k : κ) (a : α) : α :=
  us.foldl (fun a u => if u.target = k then u.run a else a) a

variable {new}

theorem key_updated (us : List (Update key)) (k : κ) (a : α) : key (updated us k a) = key a := by
  induction us generalizing a with
  | nil => rfl
  | cons u us ih =>
    rw [updated, List.foldl_cons, ← updated, ih]
    split_ifs
    · exact u.keeps a
    · rfl

theorem updated_append (us us' : List (Update key)) (k : κ) (a : α) :
    updated (us ++ us') k a = updated us' k (updated us k a) :=
  List.foldl_append

theorem updated_of_notMem {us : List (Update key)} {k : κ} (h : k ∉ us.map Update.target) (a : α) :
    updated us k a = a := by
  induction us with
  | nil => rfl
  | cons u us ih =>
    rw [List.map_cons, List.mem_cons, not_or] at h
    rw [updated, List.foldl_cons, if_neg (Ne.symm h.1), ← updated, ih h.2]

/-- Of updates of distinct keys, at most one is applied. -/
theorem updated_map {l : List κ} (hl : l.Nodup) {f : κ → Update key} (hf : ∀ k, (f k).target = k)
    (k : κ) [Decidable (k ∈ l)] (a : α) :
    updated (l.map f) k a = if k ∈ l then (f k).run a else a := by
  have htargets : (l.map f).map Update.target = l := by simp [Function.comp_def, hf]
  by_cases hk : k ∈ l
  · obtain ⟨l₁, l₂, rfl⟩ := List.append_of_mem hk
    have hsplit := List.nodup_middle.mp hl
    rw [List.nodup_cons, List.mem_append, not_or] at hsplit
    have hnot : ∀ l' : List κ, k ∉ l' → k ∉ (l'.map f).map Update.target := by
      intro l' hl'
      simpa [Function.comp_def, hf] using hl'
    rw [if_pos hk, List.map_append, updated_append, List.map_cons, updated, List.foldl_cons,
      if_pos (hf k), ← updated, updated_of_notMem (hnot l₁ hsplit.1.1),
      updated_of_notMem (hnot l₂ hsplit.1.2)]
  · rw [if_neg hk, updated_of_notMem]
    rwa [htargets]

/-! ### The loop -/

theorem keys_upsert (hnew : ∀ k, key (new k) = k) (u : Update key) (m : List α) :
    (upsert key new u m).map key =
      if u.target ∈ m.map key then m.map key else m.map key ++ [u.target] := by
  induction m with
  | nil => simp [upsert, u.keeps, hnew]
  | cons a m ih =>
    rw [upsert]
    split_ifs with ha hmem hmem
    · simp [u.keeps]
    · exact absurd (ha ▸ List.mem_cons_self) hmem
    · have htail : u.target ∈ m.map key := (List.mem_cons.mp hmem).resolve_left (Ne.symm ha)
      rw [List.map_cons, ih, if_pos htail, List.map_cons]
    · have htail : u.target ∉ m.map key := fun h => hmem (List.mem_cons_of_mem _ h)
      rw [List.map_cons, ih, if_neg htail, List.map_cons, List.cons_append]

theorem mem_upsert {u : Update key} {m : List α} (hm : (m.map key).Nodup) {a : α} :
    a ∈ upsert key new u m ↔ (a ∈ m ∧ key a ≠ u.target) ∨
      (∃ b ∈ m, key b = u.target ∧ a = u.run b) ∨
      u.target ∉ m.map key ∧ a = u.run (new u.target) := by
  induction m with
  | nil => simp [upsert]
  | cons b m ih =>
    rw [List.map_cons, List.nodup_cons] at hm
    rw [upsert]
    split_ifs with hb
    · have hrest : ∀ c ∈ m, key c ≠ u.target := by
        intro c hc heq
        exact hm.1 (hb ▸ heq ▸ List.mem_map_of_mem hc)
      simp only [List.mem_cons, List.map_cons, hb]
      constructor
      · rintro (rfl | ha)
        · exact .inr (.inl ⟨b, .inl rfl, hb, rfl⟩)
        · exact .inl ⟨.inr ha, hrest a ha⟩
      · rintro (⟨rfl | ha, hne⟩ | ⟨c, rfl | hc, hkey, rfl⟩ | ⟨hnot, -⟩)
        · exact absurd hb hne
        · exact .inr ha
        · exact .inl rfl
        · exact absurd hkey (hrest c hc)
        · exact absurd (.inl trivial) hnot
    · rw [List.mem_cons, ih hm.2, List.map_cons]
      simp only [List.mem_cons, not_or]
      constructor
      · rintro (rfl | ⟨ha, hne⟩ | ⟨c, hc, hkey, rfl⟩ | ⟨hnot, rfl⟩)
        · exact .inl ⟨.inl rfl, hb⟩
        · exact .inl ⟨.inr ha, hne⟩
        · exact .inr (.inl ⟨c, .inr hc, hkey, rfl⟩)
        · exact .inr (.inr ⟨⟨Ne.symm hb, hnot⟩, rfl⟩)
      · rintro (⟨rfl | ha, hne⟩ | ⟨c, rfl | hc, hkey, rfl⟩ | ⟨⟨-, hnot⟩, rfl⟩)
        · exact .inl rfl
        · exact .inr (.inl ⟨ha, hne⟩)
        · exact absurd hkey hb
        · exact .inr (.inr (.inl ⟨c, hc, hkey, rfl⟩))
        · exact .inr (.inr (.inr ⟨hnot, rfl⟩))

/-- **One accumulator for each key updated**, which went through the updates of that key. -/
theorem mem_accumulate (hnew : ∀ k, key (new k) = k) (us : List (Update key)) :
    ((accumulate key new us).map key).Nodup ∧
      ∀ a, a ∈ accumulate key new us ↔
        ∃ k ∈ us.map Update.target, a = updated us k (new k) := by
  induction us using List.reverseRecOn with
  | nil => simp [accumulate]
  | append_singleton us u ih =>
    obtain ⟨hnodup, hmem⟩ := ih
    have hstep : accumulate key new (us ++ [u]) = upsert key new u (accumulate key new us) :=
      List.foldl_concat ..
    have hkeys : ∀ k, k ∈ (accumulate key new us).map key ↔ k ∈ us.map Update.target := by
      intro k
      rw [List.mem_map]
      constructor
      · rintro ⟨a, ha, rfl⟩
        obtain ⟨k, hk, rfl⟩ := (hmem a).mp ha
        rwa [key_updated us, hnew]
      · intro hk
        exact ⟨_, (hmem _).mpr ⟨k, hk, rfl⟩, by rw [key_updated us, hnew]⟩
    have hlast : ∀ k a, updated (us ++ [u]) k a =
        if u.target = k then u.run (updated us k a) else updated us k a :=
      fun k a => updated_append us [u] k a
    rw [hstep]
    constructor
    · rw [keys_upsert hnew]
      split_ifs with htarget
      · exact hnodup
      · exact List.nodup_append.mpr ⟨hnodup, List.nodup_singleton _, by
          rintro a ha b hb rfl
          exact htarget (List.mem_singleton.mp hb ▸ ha)⟩
    · intro a
      rw [mem_upsert hnodup, List.map_append, List.map_singleton]
      constructor
      · rintro (⟨ha, hne⟩ | ⟨b, hb, hkey, rfl⟩ | ⟨hnot, rfl⟩)
        · obtain ⟨k, hk, rfl⟩ := (hmem a).mp ha
          rw [key_updated us, hnew] at hne
          exact ⟨k, List.mem_append_left _ hk, by rw [hlast, if_neg (Ne.symm hne)]⟩
        · obtain ⟨k, hk, rfl⟩ := (hmem b).mp hb
          rw [key_updated us, hnew] at hkey
          exact ⟨k, List.mem_append_left _ hk, by rw [hlast, if_pos hkey.symm]⟩
        · -- a key that was not there gets a new accumulator
          refine ⟨u.target, List.mem_append_right _ (List.mem_singleton_self _), ?_⟩
          rw [hlast, if_pos rfl, updated_of_notMem (mt (hkeys _).mpr hnot)]
      · rintro ⟨k, hk, rfl⟩
        rw [hlast]
        by_cases htarget : u.target = k
        · subst htarget
          rw [if_pos rfl]
          by_cases hold : u.target ∈ us.map Update.target
          · exact .inr (.inl ⟨_, (hmem _).mpr ⟨_, hold, rfl⟩, by rw [key_updated us, hnew], rfl⟩)
          · refine .inr (.inr ⟨mt (hkeys _).mp hold, ?_⟩)
            rw [updated_of_notMem hold]
        · rw [if_neg htarget]
          have hold : k ∈ us.map Update.target :=
            (List.mem_append.mp hk).resolve_right fun h => htarget (List.mem_singleton.mp h).symm
          refine .inl ⟨(hmem _).mpr ⟨k, hold, rfl⟩, ?_⟩
          rw [key_updated us, hnew]
          exact Ne.symm htarget

end

/-! ### In order -/

section

variable {α κ : Type} [LinearOrder κ] (key : α → κ)

/-- The accumulators in the order of their keys. -/
def inOrder (m : List α) : List α := m.insertionSort fun a b => key a ≤ key b

variable {key}

/-- A list with distinct keys, sorted, is strictly increasing. -/
theorem pairwise_inOrder {m : List α} (hm : (m.map key).Nodup) :
    (inOrder key m).Pairwise fun a b => key a < key b := by
  have : Std.Total (fun a b : α => key a ≤ key b) := ⟨fun a b => le_total (key a) (key b)⟩
  have : IsTrans α (fun a b : α => key a ≤ key b) := ⟨fun _ _ _ hab hbc => hab.trans hbc⟩
  have hle : (inOrder key m).Pairwise fun a b => key a ≤ key b := List.pairwise_insertionSort _ m
  have hne : (inOrder key m).Pairwise fun a b => key a ≠ key b :=
    List.pairwise_map.mp (((List.perm_insertionSort _ m).map key).nodup_iff.mpr hm)
  exact hle.imp₂ (fun _ _ hle hne => lt_of_le_of_ne hle hne) hne

/-- Two strictly increasing lists with the same elements are equal. -/
theorem eq_of_pairwise {k : α → κ} {l l' : List α} (h : l.Pairwise fun a b => k a < k b)
    (h' : l'.Pairwise fun a b => k a < k b) (hmem : ∀ a, a ∈ l ↔ a ∈ l') : l = l' := by
  have : Std.Antisymm (fun a b : α => k a < k b) := ⟨fun _ _ h h' => absurd h (lt_asymm h')⟩
  have : Std.Irrefl (fun a b : α => k a < k b) := ⟨fun _ => lt_irrefl _⟩
  exact h.eq_of_mem_iff h' hmem

variable [DecidableEq κ]

/-- The keys of a list, once each and in order. -/
def distinct (l : List κ) : List κ := l.dedup.insertionSort (· ≤ ·)

theorem mem_distinct {l : List κ} {k : κ} : k ∈ distinct l ↔ k ∈ l := by
  rw [distinct, (List.perm_insertionSort _ _).mem_iff, List.mem_dedup]

theorem pairwise_distinct (l : List κ) : (distinct l).Pairwise fun a b => a < b := by
  have hkeys : (l.dedup.map id).Nodup := by
    rw [List.map_id]
    exact List.nodup_dedup l
  exact pairwise_inOrder hkeys

/-- Two lists have the same keys exactly when each key of one is a key of the other. -/
theorem distinct_eq_iff {l l' : List κ} : distinct l = distinct l' ↔ ∀ k, k ∈ l ↔ k ∈ l' := by
  constructor
  · intro h k
    rw [← mem_distinct, h, mem_distinct]
  · intro h
    have hmem : ∀ k, k ∈ distinct l ↔ k ∈ distinct l' := by
      intro k
      rw [mem_distinct, mem_distinct, h]
    exact eq_of_pairwise (k := id) (pairwise_distinct l) (pairwise_distinct l') hmem

/-- **The accumulators in order**: for each key that was updated, what its updates made. -/
theorem inOrder_accumulate {new : κ → α} (hnew : ∀ k, key (new k) = k) (us : List (Update key)) :
    inOrder key (accumulate key new us) =
      (distinct (us.map Update.target)).map fun k => updated us k (new k) := by
  obtain ⟨hnodup, hmem⟩ := mem_accumulate hnew us
  refine eq_of_pairwise (pairwise_inOrder hnodup) ?_ fun a => ?_
  · rw [List.pairwise_map]
    refine (pairwise_distinct _).imp fun {k k'} hlt => ?_
    rw [key_updated us, key_updated us, hnew, hnew]
    exact hlt
  · rw [inOrder, (List.perm_insertionSort _ _).mem_iff, hmem, List.mem_map]
    constructor
    · rintro ⟨k, hk, rfl⟩
      exact ⟨k, mem_distinct.mpr hk, rfl⟩
    · rintro ⟨k, hk, rfl⟩
      exact ⟨k, mem_distinct.mp hk, rfl⟩

end

end HttpCatch.Accumulate
