import HttpCatch.Library.Keyset

/-!
# Keyset paging while the rows change

`walk` pages one list of rows. Here every page is read from the rows that there are at that time:
`follow` takes one reader for each page. Rows may come and go between two reads, a row's key
stays. What is still true:

* `follow_newest` — the pages list rows newest first, so no key comes twice;
* `follow_from` — each page has rows of its own time only;
* `follow_complete` — a key that was there at every read is on some page, once paging ended;
* `follow_ends` — paging ends as soon as there were more reads than full pages of keys.

A row that appears behind the cursor is not seen and no row is seen twice for it; that is what
keyset paging is for.
-/

namespace HttpCatch.Keyset

section Follow

variable {α κ : Type}

/-- Follow the cursors from `c` on, the readers taking turns: the pages, and whether the last one
had no cursor. -/
def follow : List (Option κ → List α × Option κ) → Option κ → List (List α) × Bool
  | [], _ => ([], false)
  | fetch :: rest, c =>
    match fetch c with
    | (p, none) => ([p], true)
    | (p, some k) => (p :: (follow rest (some k)).1, (follow rest (some k)).2)

variable {fetch : Option κ → List α × Option κ} {rest : List (Option κ → List α × Option κ)}
  {c : Option κ}

theorem follow_last (h : (fetch c).2 = none) :
    follow (fetch :: rest) c = ([(fetch c).1], true) := by
  rw [follow, ← Prod.eta (fetch c), h]

theorem follow_next {k : κ} (h : (fetch c).2 = some k) :
    follow (fetch :: rest) c =
      ((fetch c).1 :: (follow rest (some k)).1, (follow rest (some k)).2) := by
  rw [follow, ← Prod.eta (fetch c), h]

/-- Readers that agree on the cursors they hand out are followed alike. -/
theorem follow_congr {fetches fetches' : List (Option κ → List α × Option κ)} (P : κ → Prop)
    (h : List.Forall₂ (fun f g => ∀ c, (∀ k ∈ c, P k) → f c = g c) fetches fetches')
    (hP : ∀ g ∈ fetches', ∀ c k, (g c).2 = some k → P k) (hc : ∀ k ∈ c, P k) :
    follow fetches c = follow fetches' c := by
  induction h generalizing c with
  | nil => rfl
  | @cons f g fs gs hfg _ ih =>
    have hsame : f c = g c := hfg c hc
    cases hk : (g c).2 with
    | none => rw [follow_last hk, follow_last (by rw [hsame, hk]), hsame]
    | some k =>
      have hPk : ∀ k' ∈ some k, P k' := by simpa using hP g List.mem_cons_self c k hk
      have hrest := ih (fun g' hg' => hP g' (List.mem_cons_of_mem _ hg')) hPk
      rw [follow_next hk, follow_next (by rw [hsame, hk]), hsame, hrest]

end Follow

section Views

variable {α κ : Type} [LinearOrder κ] {key : α → κ} {limit : ℕ}

variable (key limit) in
/-- The readers of pages of some rows, one for each view of them. -/
def readers (views : List (List α)) : List (Option κ → List α × Option κ) :=
  views.map fun rows c => page key limit (after key c rows)

variable {rows : List α} {views : List (List α)} {c : Option κ}

theorem follow_readers_last (h : (page key limit (after key c rows)).2 = none) :
    follow (readers key limit (rows :: views)) c =
      ([(page key limit (after key c rows)).1], true) :=
  follow_last h

theorem follow_readers_next {k : κ} (h : (page key limit (after key c rows)).2 = some k) :
    follow (readers key limit (rows :: views)) c =
      ((page key limit (after key c rows)).1 :: (follow (readers key limit views) (some k)).1,
        (follow (readers key limit views) (some k)).2) :=
  follow_next h

/-- What the cursor of a page selects is what the page leaves. -/
theorem after_next (h : Newest key rows) (hl : 0 < limit) {k : κ}
    (hk : (page key limit (after key c rows)).2 = some k) :
    after key (some k) rows = (after key c rows).drop limit := by
  obtain ⟨-, ⟨a, ha, rfl⟩, hdrop⟩ := page_next (h.after c) hl hk
  rw [← hdrop, after_after]
  intro k hk
  exact ((mem_after.mp (List.mem_of_getElem? ha)).2 k hk).le

/-- The rows of a page come before its cursor. -/
theorem page_before (h : Newest key rows) (hl : 0 < limit) {k : κ}
    (hk : (page key limit rows).2 = some k) : ∀ a ∈ (page key limit rows).1, k ≤ key a := by
  obtain ⟨hlt, ⟨b, hb, rfl⟩, -⟩ := page_next h hl hk
  intro a ha
  have hcut : (page key limit rows).1[limit - 1]? = some b := by
    rw [page, List.getElem?_take, if_pos (by omega), hb]
  have hpage : (page key limit rows).1.Pairwise fun a b => key b < key a :=
    (newest_iff.mp h).sublist (List.take_sublist _ _)
  obtain ⟨i, hi, rfl⟩ := List.getElem_of_mem ha
  obtain ⟨hj, hjb⟩ := List.getElem?_eq_some_iff.mp hcut
  have hlen : (page key limit rows).1.length ≤ limit := by
    rw [page]
    exact List.length_take_le _ _
  rcases Nat.lt_or_ge i (limit - 1) with hlast | hlast
  · rw [← hjb]
    exact (List.pairwise_iff_getElem.mp hpage i (limit - 1) hi hj hlast).le
  · have : i = limit - 1 := by omega
    subst this
    rw [hjb]

/-- Everything that is read from a cursor on comes after it. -/
theorem follow_after (hv : ∀ rows ∈ views, Newest key rows) (hl : 0 < limit) :
    ∀ a ∈ (follow (readers key limit views) c).1.flatten, ∀ k ∈ c, key a < k := by
  induction views generalizing c with
  | nil => simp [readers, follow]
  | cons rows views ih =>
    have hrows : Newest key rows := hv rows List.mem_cons_self
    have hhead : ∀ a ∈ (page key limit (after key c rows)).1, ∀ k ∈ c, key a < k :=
      fun a ha => (mem_after.mp (List.mem_of_mem_take ha)).2
    cases hk : (page key limit (after key c rows)).2 with
    | none =>
      rw [follow_readers_last hk]
      simpa using hhead
    | some k =>
      rw [follow_readers_next hk]
      intro a ha k' hk'
      rw [List.flatten_cons, List.mem_append] at ha
      rcases ha with ha | ha
      · exact hhead a ha k' hk'
      · -- the cursor of the page is the key of one of its rows
        have hbelow : key a < k :=
          ih (fun r hr => hv r (List.mem_cons_of_mem _ hr)) a ha k rfl
        obtain ⟨-, ⟨b, hb, rfl⟩, -⟩ := page_next (hrows.after c) hl hk
        exact hbelow.trans ((mem_after.mp (List.mem_of_getElem? hb)).2 k' hk')

/-- **The pages list rows newest first**, no key twice. -/
theorem follow_newest (hv : ∀ rows ∈ views, Newest key rows) (hl : 0 < limit) :
    Newest key (follow (readers key limit views) c).1.flatten := by
  induction views generalizing c with
  | nil => exact newest_iff.mpr .nil
  | cons rows views ih =>
    have hrows : Newest key rows := hv rows List.mem_cons_self
    have hpage : Newest key (page key limit (after key c rows)).1 :=
      newest_iff.mpr ((newest_iff.mp (hrows.after c)).sublist (List.take_sublist _ _))
    cases hk : (page key limit (after key c rows)).2 with
    | none =>
      rw [follow_readers_last hk]
      simpa using hpage
    | some k =>
      have hviews : ∀ r ∈ views, Newest key r := fun r hr => hv r (List.mem_cons_of_mem _ hr)
      rw [follow_readers_next hk, List.flatten_cons, newest_iff, List.pairwise_append]
      refine ⟨newest_iff.mp hpage, newest_iff.mp (ih hviews), fun a ha b hb => ?_⟩
      exact (follow_after hviews hl b hb k rfl).trans_le (page_before (hrows.after c) hl hk a ha)

/-- **Each page has rows of its own view only.** -/
theorem follow_from (limit : ℕ) (views : List (List α)) (c : Option κ) :
    List.Forall₂ (fun p rows => ∀ a ∈ p, a ∈ rows) (follow (readers key limit views) c).1
      (views.take (follow (readers key limit views) c).1.length) := by
  induction views generalizing c with
  | nil => simp [readers, follow]
  | cons rows views ih =>
    have hhead : ∀ a ∈ (page key limit (after key c rows)).1, a ∈ rows :=
      fun a ha => (mem_after.mp (List.mem_of_mem_take ha)).1
    cases hk : (page key limit (after key c rows)).2 with
    | none =>
      rw [follow_readers_last hk]
      simpa using hhead
    | some k =>
      rw [follow_readers_next hk]
      exact .cons hhead (ih (some k))

/-- **A key that was there at every read is on some page**, when paging came to its end. -/
theorem follow_complete (hv : ∀ rows ∈ views, Newest key rows) (hl : 0 < limit)
    (hend : (follow (readers key limit views) c).2 = true) {x : κ} (hx : ∀ k ∈ c, x < k)
    (hall : ∀ rows ∈ views.take (follow (readers key limit views) c).1.length,
      x ∈ rows.map key) :
    x ∈ (follow (readers key limit views) c).1.flatten.map key := by
  induction views generalizing c with
  | nil => cases hend
  | cons rows views ih =>
    have hrows : Newest key rows := hv rows List.mem_cons_self
    cases hk : (page key limit (after key c rows)).2 with
    | none =>
      rw [follow_readers_last hk] at hall ⊢
      obtain ⟨a, ha, rfl⟩ := List.mem_map.mp (hall rows (by simp))
      rw [List.flatten_singleton, (page_none hl hk).2]
      exact List.mem_map_of_mem (mem_after.mpr ⟨ha, hx⟩)
    | some k =>
      rw [follow_readers_next hk] at hend hall ⊢
      rw [List.flatten_cons, List.map_append, List.mem_append]
      rcases lt_or_ge x k with hlt | hge
      · -- it is behind the cursor, for the reads that follow
        right
        refine ih (fun r hr => hv r (List.mem_cons_of_mem _ hr)) hend ?_ ?_
        · simpa using hlt
        · intro r hr
          exact hall r (List.mem_cons_of_mem _ hr)
      · -- it is on this page: what the page leaves out is behind the cursor
        left
        obtain ⟨a, ha, rfl⟩ := List.mem_map.mp (hall rows List.mem_cons_self)
        have hmem : a ∈ after key c rows := mem_after.mpr ⟨ha, hx⟩
        apply List.mem_map_of_mem
        rw [← List.take_append_drop limit (after key c rows), List.mem_append] at hmem
        refine hmem.resolve_right fun hdrop => ?_
        rw [← (page_next (hrows.after c) hl hk).2.2] at hdrop
        exact absurd ((mem_after.mp hdrop).2 k rfl) (not_lt.mpr hge)

/-- While paging has not ended every read gave a full page. -/
theorem follow_unended (hend : (follow (readers key limit views) c).2 = false) :
    (follow (readers key limit views) c).1.flatten.length = limit * views.length := by
  induction views generalizing c with
  | nil => simp [readers, follow]
  | cons rows views ih =>
    cases hk : (page key limit (after key c rows)).2 with
    | none =>
      rw [follow_readers_last hk] at hend
      cases hend
    | some k =>
      rw [follow_readers_next hk] at hend ⊢
      rw [List.flatten_cons, List.length_append, page_full hk, ih hend, List.length_cons,
        Nat.mul_succ, Nat.add_comm]

/-- **Paging ends** when there were more reads than the keys that ever were fill pages. -/
theorem follow_ends (hv : ∀ rows ∈ views, Newest key rows) (hl : 0 < limit) {keys : List κ}
    (hkeys : ∀ rows ∈ views, ∀ a ∈ rows, key a ∈ keys) (hlen : keys.length < limit * views.length) :
    (follow (readers key limit views) c).2 = true := by
  by_contra hend
  rw [Bool.not_eq_true] at hend
  have hnodup : ((follow (readers key limit views) c).1.flatten.map key).Nodup :=
    (follow_newest hv hl).nodup
  have hsub : (follow (readers key limit views) c).1.flatten.map key ⊆ keys := by
    intro x hx
    obtain ⟨a, ha, rfl⟩ := List.mem_map.mp hx
    obtain ⟨p, hp, hap⟩ := List.mem_flatten.mp ha
    obtain ⟨i, hi, rfl⟩ := List.getElem_of_mem hp
    have hfrom := @follow_from _ _ _ key limit views c
    have hi' := hfrom.length_eq ▸ hi
    have hrow := hfrom.get hi hi' a hap
    exact hkeys _ (List.mem_of_mem_take (List.get_mem _ ⟨i, hi'⟩)) a hrow
  have hle : ((follow (readers key limit views) c).1.flatten.map key).length ≤ keys.length :=
    (List.subperm_of_subset hnodup hsub).length_le
  rw [List.length_map, follow_unended hend] at hle
  omega

/-- While the rows stay, some reads return as many of them as fit. -/
theorem follow_replicate (h : Newest key rows) (hl : 0 < limit) (n : ℕ) :
    (follow (readers key limit (List.replicate n rows)) c).1.flatten =
      (after key c rows).take (limit * n) := by
  induction n generalizing c with
  | zero => simp [readers, follow]
  | succ n ih =>
    rw [List.replicate_succ]
    cases hk : (page key limit (after key c rows)).2 with
    | none =>
      obtain ⟨hlen, hpage⟩ := page_none hl hk
      rw [follow_readers_last hk, List.flatten_singleton, hpage, List.take_of_length_le]
      exact hlen.trans (Nat.le_mul_of_pos_right _ n.succ_pos)
    | some k =>
      rw [follow_readers_next hk, List.flatten_cons, ih, after_next h hl hk, Nat.mul_succ,
        Nat.add_comm, List.take_add]
      rfl

end Views

end HttpCatch.Keyset
