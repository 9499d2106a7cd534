import Mathlib

/-!
# Keyset paging

A reader that returns rows newest first can be paged by a cursor: the key of the last row
returned, after which the next page starts. `page` is one page of such a list of rows and
`walk` follows the cursors until there is none; its first argument is fuel.

* `walk_page` — paging one list to the end returns it, whatever the page size.

The second half pages the union of two lists of keys, read by two readers that are each
limited to a page: the first list alone answers as long as it fills a page, otherwise its
rows are merged with a page of the second list (`mergedPage`). The pages come out newest
first and paging ends (`walkTwo_ends`, `walkTwo_sorted`), but rows of the second list can
be left out; `walkTwo_complete_iff` is the exact condition (`Covered`) under which none
is.
-/

namespace HttpCatch.Keyset

section Rows

variable {α κ : Type} [LinearOrder κ] (key : α → κ)

/-- Rows sorted by key, newest (greatest) first; equal keys stay in order. -/
def newestFirst (rows : List α) : List α := rows.insertionSort fun a b => key b ≤ key a

/-- The rows strictly after a cursor; all of them when there is none. -/
def after (c : Option κ) (rows : List α) : List α :=
  rows.filter fun a => c.all fun k => decide (key a < k)

/-- A page of rows, and the cursor for the next one where rows are left. -/
def page (limit : ℕ) (rows : List α) : List α × Option κ :=
  (rows.take limit, if limit < rows.length then rows[limit - 1]?.map key else none)

/-- Follow the cursors from `c` to the end. -/
def walk (fetch : Option κ → List α × Option κ) : ℕ → Option κ → Option (List (List α))
  | 0, _ => none
  | n + 1, c =>
    match fetch c with
    | (p, none) => some [p]
    | (p, some k) => (walk fetch n (some k)).map (p :: ·)

/-- The rows are listed newest first, no key twice. -/
def Newest (rows : List α) : Prop := (rows.map key).SortedGT

variable {key}

variable {rows : List α} {c : Option κ} {a : α} {n limit : ℕ} {k : κ}
  {fetch : Option κ → List α × Option κ} {pages : List (List α)}

theorem newest_iff : Newest key rows ↔ rows.Pairwise fun a b => key b < key a := by
  rw [Newest, List.sortedGT_iff_pairwise, List.pairwise_map]

theorem Newest.filter (h : Newest key rows) (p : α → Bool) : Newest key (rows.filter p) :=
  newest_iff.mpr ((newest_iff.mp h).sublist List.filter_sublist)

theorem Newest.nodup (h : Newest key rows) : (rows.map key).Nodup :=
  List.SortedGT.nodup h

theorem Newest.after (h : Newest key rows) (c : Option κ) :
    Newest key (after key c rows) := h.filter _

theorem mem_after : a ∈ after key c rows ↔ a ∈ rows ∧ ∀ k ∈ c, key a < k := by
  cases c <;> simp [after]

theorem after_none (rows : List α) : after key none rows = rows := by simp [after]

/-- Two lists of the same rows, both newest first, are equal. -/
theorem Newest.eq_of_mem_iff {rows' : List α} (h : Newest key rows) (h' : Newest key rows')
    (hmem : ∀ a, a ∈ rows ↔ a ∈ rows') : rows = rows' := by
  have : Std.Antisymm (fun a b : α => key b < key a) := ⟨fun _ _ h h' => absurd h (lt_asymm h')⟩
  have : Std.Irrefl (fun a b : α => key b < key a) := ⟨fun _ => lt_irrefl _⟩
  exact (newest_iff.mp h).eq_of_mem_iff (newest_iff.mp h') hmem

theorem newestFirst_perm (rows : List α) : (newestFirst key rows).Perm rows :=
  List.perm_insertionSort _ rows

theorem mem_newestFirst : a ∈ newestFirst key rows ↔ a ∈ rows :=
  (newestFirst_perm rows).mem_iff

/-- Rows with distinct keys, sorted, are listed newest first. -/
theorem newest_newestFirst (h : (rows.map key).Nodup) : Newest key (newestFirst key rows) := by
  have : Std.Total (fun a b : α => key b ≤ key a) := ⟨fun a b => le_total (key b) (key a)⟩
  have : IsTrans α (fun a b : α => key b ≤ key a) := ⟨fun _ _ _ hab hbc => hbc.trans hab⟩
  have hle : (newestFirst key rows).Pairwise fun a b => key b ≤ key a :=
    List.pairwise_insertionSort _ rows
  have hne : (newestFirst key rows).Pairwise fun a b => key a ≠ key b :=
    List.pairwise_map.mp (((newestFirst_perm rows).map key).nodup_iff.mpr h)
  exact newest_iff.mpr (hle.imp₂ (fun _ _ hle hne => lt_of_le_of_ne hle (Ne.symm hne)) hne)

/-- The first `n` rows are those with fewer than `n` newer ones. -/
theorem Newest.mem_take (h : Newest key rows) :
    a ∈ rows.take n ↔ a ∈ rows ∧ rows.countP (fun b => key a < key b) < n := by
  induction rows generalizing n with
  | nil => simp
  | cons b rows ih =>
    obtain ⟨hb, hrows⟩ := List.pairwise_cons.mp (newest_iff.mp h)
    cases n with
    | zero => simp
    | succ n =>
      rw [List.take_succ_cons, List.mem_cons, List.mem_cons, ih (newest_iff.mpr hrows),
        List.countP_cons]
      by_cases ha : a ∈ rows
      · simp [ha, hb a ha, ne_of_apply_ne key (hb a ha).ne]
      · -- nothing is newer than the first row
        have hzero : rows.countP (fun c => key b < key c) = 0 :=
          List.countP_eq_zero.mpr fun c hc => by simpa using (hb c hc).le
        simp only [ha, false_and, or_false]
        exact ⟨fun hab => ⟨hab, by simp [hab, hzero]⟩, fun hab => hab.1⟩

theorem mem_take_newestFirst (h : (rows.map key).Nodup) :
    a ∈ (newestFirst key rows).take n ↔ a ∈ rows ∧ rows.countP (fun b => key a < key b) < n := by
  rw [(newest_newestFirst h).mem_take, mem_newestFirst, (newestFirst_perm rows).countP_eq]

/-- Filtering and sorting commute, keys being distinct. -/
theorem newestFirst_filter (h : (rows.map key).Nodup) (p : α → Bool) :
    newestFirst key (rows.filter p) = (newestFirst key rows).filter p := by
  have hp : ((rows.filter p).map key).Nodup := (List.filter_sublist.map key).nodup h
  refine (newest_newestFirst hp).eq_of_mem_iff ((newest_newestFirst h).filter p) fun a => ?_
  simp [mem_newestFirst]

/-- What comes after the `n`-th row is what the cursor of that row selects. -/
theorem after_getElem? (h : Newest key rows) (ha : rows[n]? = some a) :
    after key (some (key a)) rows = rows.drop (n + 1) := by
  rw [newest_iff] at h
  induction rows generalizing n with
  | nil => simp at ha
  | cons r rows ih =>
    obtain ⟨hr, hrows⟩ := List.pairwise_cons.mp h
    cases n with
    | zero =>
      obtain rfl : r = a := by simpa using ha
      simpa [after] using hr
    | succ n =>
      have ha' : rows[n]? = some a := by simpa using ha
      have har : key a < key r := hr a (List.mem_of_getElem? ha')
      rw [List.drop_succ_cons, ← ih hrows ha']
      simp [after, har.le]

/-- A cursor further down overrides one further up. -/
theorem after_after (hk : ∀ k' ∈ c, k ≤ k') :
    after key (some k) (after key c rows) = after key (some k) rows := by
  simp only [after, List.filter_filter]
  refine List.filter_congr fun a _ => ?_
  cases c with
  | none => simp
  | some k' =>
    have hkk : k ≤ k' := hk k' rfl
    by_cases h : key a < k <;> simp [h]
    exact h.trans_le hkk

/-- The cursor of a page that is not the last is the key of its last row, and what the cursor
selects is what is left. -/
theorem page_next (h : Newest key rows) (hl : 0 < limit) (hk : (page key limit rows).2 = some k) :
    limit < rows.length ∧ (∃ a, rows[limit - 1]? = some a ∧ key a = k) ∧
      after key (some k) rows = rows.drop limit := by
  unfold page at hk
  simp only at hk
  split_ifs at hk with hlt
  obtain ⟨a, ha, rfl⟩ := Option.map_eq_some_iff.mp hk
  refine ⟨hlt, ⟨a, ha, rfl⟩, ?_⟩
  rw [after_getElem? h ha, Nat.sub_add_cancel hl]

omit [LinearOrder κ] in
/-- One row more than a page is enough to cut a page off. -/
theorem page_take_succ (limit : ℕ) (rows : List α) :
    page key limit (rows.take (limit + 1)) = page key limit rows := by
  have hcut : (rows.take (limit + 1))[limit - 1]? = rows[limit - 1]? := by
    rw [List.getElem?_take, if_pos (by omega)]
  have hmore : limit < (rows.take (limit + 1)).length ↔ limit < rows.length := by
    rw [List.length_take]
    omega
  simp only [page, List.take_take, min_eq_left (Nat.le_succ limit), hcut, hmore]

omit [LinearOrder κ] in
theorem page_short (h : rows.length ≤ limit) : page key limit rows = (rows, none) := by
  rw [page, List.take_of_length_le h, if_neg (by omega)]

omit [LinearOrder κ] in
theorem page_none (hl : 0 < limit) (hk : (page key limit rows).2 = none) :
    rows.length ≤ limit ∧ (page key limit rows).1 = rows := by
  unfold page at hk ⊢
  simp only at hk ⊢
  split_ifs at hk with hlt
  · have : limit - 1 < rows.length := by omega
    simp [List.getElem?_eq_getElem this] at hk
  · exact ⟨by omega, List.take_of_length_le (by omega)⟩

/-- **Paging a list to the end returns it**: with fuel for each row left, the pages from a
cursor on are the rows after it. -/
theorem walk_page (h : Newest key rows) (hl : 0 < limit) (n : ℕ) (c : Option κ)
    (hn : (after key c rows).length < n) :
    ∃ pages, walk (fun c => page key limit (after key c rows)) n c = some pages ∧
      pages.flatten = after key c rows := by
  induction n generalizing c with
  | zero => omega
  | succ n ih =>
    cases hk : (page key limit (after key c rows)).2 with
    | none =>
      refine ⟨[(page key limit (after key c rows)).1], ?_, by simp [(page_none hl hk).2]⟩
      rw [walk, ← Prod.eta (page key limit (after key c rows)), hk]
    | some k =>
      obtain ⟨hlt, ⟨a, ha', rfl⟩, hdrop⟩ := page_next (h.after c) hl hk
      have ha := List.mem_of_getElem? ha'
      have hka : after key (some (key a)) rows = (after key c rows).drop limit := by
        rw [← hdrop, after_after fun k' hk' => ((mem_after.mp ha).2 k' hk').le]
      obtain ⟨pages, hw, hflat⟩ := ih (some (key a)) (by rw [hka, List.length_drop]; omega)
      refine ⟨(page key limit (after key c rows)).1 :: pages, ?_, ?_⟩
      · rw [walk, ← Prod.eta (page key limit (after key c rows)), hk]
        simp [hw]
      · rw [List.flatten_cons, hflat, hka]
        exact List.take_append_drop limit _

omit [LinearOrder κ] in
/-- A page with a cursor is full. -/
theorem page_full (hk : (page key limit rows).2 = some k) :
    (page key limit rows).1.length = limit := by
  unfold page at hk ⊢
  simp only at hk ⊢
  split_ifs at hk with hlt
  rw [List.length_take]
  omega

omit [LinearOrder κ] in
/-- Where every page with a cursor is full, all pages but the last are. -/
theorem walk_full (h : ∀ c k, (fetch c).2 = some k → (fetch c).1.length = limit)
    (hw : walk fetch n c = some pages) : ∀ p ∈ pages.dropLast, p.length = limit := by
  induction n generalizing c pages with
  | zero => simp [walk] at hw
  | succ n ih =>
    have hfull := h c
    rw [walk] at hw
    rcases hf : fetch c with ⟨p, _ | k⟩ <;> rw [hf] at hw hfull
    · obtain rfl : [p] = pages := by simpa using hw
      simp
    · obtain ⟨rest, hrest, rfl⟩ := Option.map_eq_some_iff.mp hw
      cases rest with
      | nil => simp
      | cons p' rest =>
        intro x hx
        rw [List.dropLast_cons_cons, List.mem_cons] at hx
        rcases hx with rfl | hx
        · exact hfull k rfl
        · exact ih hrest x hx

omit [LinearOrder κ] in
/-- Two readers that agree on the cursors they hand out are paged alike. -/
theorem walk_congr {fetch' : Option κ → List α × Option κ} (P : κ → Prop)
    (h : ∀ c, (∀ k ∈ c, P k) → fetch c = fetch' c) (hP : ∀ c k, (fetch' c).2 = some k → P k)
    (n : ℕ) (c : Option κ) (hc : ∀ k ∈ c, P k) : walk fetch n c = walk fetch' n c := by
  induction n generalizing c with
  | zero => rfl
  | succ n ih =>
    have hnext := hP c
    rw [walk, walk, h c hc]
    rcases hf : fetch' c with ⟨p, _ | k⟩
    · rfl
    · have hk : ∀ k' ∈ some k, P k' := by simpa using hnext k (by rw [hf])
      simp only [ih (some k) hk]

omit [LinearOrder κ] in
/-- Paging commutes with a map of the rows. -/
theorem walk_map {β : Type} (f : α → β) {fetch' : Option κ → List β × Option κ}
    (h : ∀ c, fetch' c = ((fetch c).1.map f, (fetch c).2)) (n : ℕ) (c : Option κ) :
    walk fetch' n c = (walk fetch n c).map (List.map (List.map f)) := by
  induction n generalizing c with
  | zero => rfl
  | succ n ih =>
    rw [walk, walk, h]
    rcases fetch c with ⟨p, _ | k⟩
    · rfl
    · simp only [ih (some k), Option.map_map]
      rfl

/-! ### Rules for paging -/

omit [LinearOrder κ] in
/-- What holds of every row of every page holds of all rows listed. -/
theorem walk_forall {P : α → Prop} (h : ∀ c, ∀ a ∈ (fetch c).1, P a)
    (hw : walk fetch n c = some pages) : ∀ a ∈ pages.flatten, P a := by
  induction n generalizing c pages with
  | zero => simp [walk] at hw
  | succ n ih =>
    have hpage := h c
    rw [walk] at hw
    rcases hf : fetch c with ⟨p, _ | k⟩ <;> rw [hf] at hw hpage
    · obtain rfl : [p] = pages := by simpa using hw
      simpa using hpage
    · obtain ⟨rest, hrest, rfl⟩ := Option.map_eq_some_iff.mp hw
      intro a ha
      rcases List.mem_append.mp ha with ha | ha
      · exact hpage a ha
      · exact ih hrest a ha

/-- A row that every page before it either lists or leaves behind its cursor is listed. -/
theorem walk_lists
    (h : ∀ c, (∀ k ∈ c, key a < k) → a ∈ (fetch c).1 ∨ ∃ k ∈ (fetch c).2, key a < k)
    (hc : ∀ k ∈ c, key a < k) (hw : walk fetch n c = some pages) : a ∈ pages.flatten := by
  induction n generalizing c pages with
  | zero => simp [walk] at hw
  | succ n ih =>
    have hpage := h c hc
    rw [walk] at hw
    rcases hf : fetch c with ⟨p, _ | k⟩ <;> rw [hf] at hw hpage
    · obtain rfl : [p] = pages := by simpa using hw
      simpa using hpage
    · obtain ⟨rest, hrest, rfl⟩ := Option.map_eq_some_iff.mp hw
      rw [List.flatten_cons, List.mem_append]
      refine hpage.imp_right fun ⟨k', hk', hlt⟩ => ih (fun k'' hk'' => ?_) hrest
      obtain rfl : k = k'' := by simpa using hk''
      obtain rfl : k = k' := by simpa using hk'
      exact hlt

omit key in
/-- Paging ends where the cursors go down a list of keys. -/
theorem walk_ends (P : κ → Prop) (keys : List κ)
    (h : ∀ c k, (∀ k' ∈ c, P k') → (fetch c).2 = some k →
      P k ∧ k ∈ keys ∧ ∀ k' ∈ c, k < k') (hc : ∀ k ∈ c, P k) (hn : (after id c keys).length < n) :
    ∃ pages, walk fetch n c = some pages := by
  induction n generalizing c with
  | zero => omega
  | succ n ih =>
    have hnext := h c
    rw [walk]
    rcases hf : fetch c with ⟨p, _ | k⟩ <;> rw [hf] at hnext
    · exact ⟨[p], rfl⟩
    · obtain ⟨hk, hmem, hlt⟩ := hnext k hc rfl
      -- the key of this cursor is behind the last cursor and not behind this one
      have hless : (after id (some k) keys).length < (after id c keys).length := by
        rw [← after_after fun k' hk' => (hlt k' hk').le]
        exact List.length_filter_lt_length_iff_exists.mpr
          ⟨k, mem_after.mpr ⟨hmem, hlt⟩, by simp⟩
      obtain ⟨pages, hpages⟩ := ih (by simpa using hk) (hless.trans_le (Nat.le_of_lt_succ hn))
      exact ⟨p :: pages, by simp [hpages]⟩

/-! ### Rows and their keys -/

theorem newestFirst_map (rows : List α) :
    (newestFirst key rows).map key = newestFirst id (rows.map key) :=
  List.map_insertionSort _ _ key rows fun _ _ _ _ => Iff.rfl

theorem after_map (c : Option κ) (rows : List α) :
    (after key c rows).map key = after id c (rows.map key) := by
  rw [after, after, List.filter_map]
  rfl

omit [LinearOrder κ] in
theorem page_map (limit : ℕ) (rows : List α) :
    ((page key limit rows).1.map key, (page key limit rows).2) = page id limit (rows.map key) := by
  simp only [page, List.map_take, List.length_map, List.getElem?_map, Option.map_map]
  rfl

end Rows

/-! ### Two readers -/

section Two

variable {κ : Type} [LinearOrder κ]

/-- The union of two lists of keys, newest first. -/
def merge (M Q : List κ) : List κ := newestFirst id (M ++ Q.filter fun q => q ∉ M)

/-- A page of two lists: of the first alone where it fills the page, and otherwise of a page of
each, merged. -/
def mergedPage (limit : ℕ) (M Q : List κ) : List κ × Option κ :=
  if limit ≤ (M.take limit).length then page id limit M
    else page id limit (merge (M.take limit) (Q.take limit))

/-- Follow the cursors to the end, keeping what is left of the two lists. -/
def walkTwo (limit : ℕ) : ℕ → List κ → List κ → Option (List (List κ))
  | 0, _, _ => none
  | n + 1, M, Q =>
    match mergedPage limit M Q with
    | (p, none) => some [p]
    | (p, some k) => (walkTwo limit n (after id (some k) M) (after id (some k) Q)).map (p :: ·)

variable {M Q l : List κ} {x k : κ} {n limit : ℕ} {pages : List (List κ)}

theorem mem_merge : x ∈ merge M Q ↔ x ∈ M ∨ x ∈ Q := by
  rw [merge, mem_newestFirst, List.mem_append, List.mem_filter]
  by_cases h : x ∈ M <;> simp [h]

theorem newest_id : Newest id l ↔ l.SortedGT := by rw [Newest, List.map_id]

theorem sorted_merge (hM : M.SortedGT) (hQ : Q.SortedGT) : (merge M Q).SortedGT := by
  rw [← newest_id]
  refine newest_newestFirst ?_
  rw [List.map_id, List.nodup_append]
  refine ⟨hM.nodup, hQ.nodup.filter _, ?_⟩
  rintro a ha b hb rfl
  simpa [ha] using List.of_mem_filter hb

theorem sorted_filter (h : l.SortedGT) (p : κ → Bool) : (l.filter p).SortedGT :=
  newest_id.mp ((newest_id.mpr h).filter p)

theorem sorted_after (h : l.SortedGT) (c : Option κ) : (after id c l).SortedGT :=
  sorted_filter h _

/-- Two lists of the same keys, both newest first, are equal. -/
theorem sorted_ext {l' : List κ} (h : l.SortedGT) (h' : l'.SortedGT) (hmem : ∀ x, x ∈ l ↔ x ∈ l') :
    l = l' :=
  (newest_id.mpr h).eq_of_mem_iff (newest_id.mpr h') hmem

theorem sorted_take (h : l.SortedGT) (n : ℕ) : (l.take n).SortedGT :=
  (h.pairwise.sublist (List.take_sublist n l)).sortedGT

theorem sorted_drop (h : l.SortedGT) (n : ℕ) : (l.drop n).SortedGT :=
  (h.pairwise.sublist (List.drop_sublist n l)).sortedGT

/-- A key is among the first `n` when fewer than `n` keys are greater. -/
theorem mem_take_iff (h : l.SortedGT) :
    x ∈ l.take n ↔ x ∈ l ∧ (l.filter fun y => x < y).length < n := by
  rw [List.sortedGT_iff_pairwise] at h
  induction l generalizing n with
  | nil => simp
  | cons a l ih =>
    obtain ⟨ha, hl⟩ := List.pairwise_cons.mp h
    cases n with
    | zero => simp
    | succ n =>
      rw [List.take_succ_cons, List.mem_cons, List.mem_cons, ih hl]
      by_cases hx : x = a
      · subst hx
        have : l.filter (fun y => x < y) = [] := by
          simpa [List.filter_eq_nil_iff] using fun y hy => (ha y hy).le
        simp [this]
      · constructor
        · rintro (h | ⟨hxl, hn⟩)
          · exact absurd h hx
          · exact ⟨.inr hxl, by simpa [ha x hxl] using hn⟩
        · rintro ⟨h | hxl, hn⟩
          · exact absurd h hx
          · exact .inr ⟨hxl, by simpa [ha x hxl] using hn⟩

/-- The first `n` keys of a list are those of any part of it that has them. -/
theorem take_eq_of_subset {d : List κ} (hl : l.SortedGT) (hd : d.SortedGT) (hdl : d ⊆ l)
    (hn : l.take n ⊆ d) : d.take n = l.take n := by
  have hlen : ∀ p : κ → Bool, (d.filter p).length ≤ (l.filter p).length := fun p =>
    (List.subperm_of_subset (hd.nodup.filter p) (List.filter_subset p hdl)).length_le
  have hsub : l.take n ⊆ d.take n := fun x hx =>
    (mem_take_iff hd).mpr ⟨hn hx, (hlen _).trans_lt ((mem_take_iff hl).mp hx).2⟩
  -- neither list has more keys among its first `n` than the other
  have hperm :=
    (List.subperm_of_subset (hl.nodup.sublist (List.take_sublist n l)) hsub).perm_of_length_le
    (by have := hlen fun _ => true; simp only [List.filter_true, List.length_take] at this ⊢; omega)
  exact sorted_ext (sorted_take hd n) (sorted_take hl n) fun x => hperm.mem_iff.symm

/-- The first `n` keys of a union need only the first `n` keys of the second list. -/
theorem take_merge (hM : M.SortedGT) (hQ : Q.SortedGT) (n : ℕ) :
    (merge M (Q.take n)).take n = (merge M Q).take n := by
  have hU := sorted_merge hM hQ
  refine take_eq_of_subset hU (sorted_merge hM (sorted_take hQ n)) (fun x hx => ?_) fun x hx => ?_
  · exact mem_merge.mpr ((mem_merge.mp hx).imp_right List.mem_of_mem_take)
  · obtain ⟨hxU, hrank⟩ := (mem_take_iff hU).mp hx
    refine mem_merge.mpr ((mem_merge.mp hxU).imp_right fun hxQ => (mem_take_iff hQ).mpr
      ⟨hxQ, lt_of_le_of_lt ?_ hrank⟩)
    exact (List.subperm_of_subset (hQ.nodup.filter _)
      (List.filter_subset _ fun y hy => mem_merge.mpr (.inr hy))).length_le

/-- The keys after the `n`-th are those below it. -/
theorem lt_getElem?_iff (h : l.SortedGT) (hk : l[n]? = some k) (hx : x ∈ l) :
    x < k ↔ x ∈ l.drop (n + 1) := by
  have := after_getElem? (newest_id.mpr h) hk
  rw [← this, mem_after]
  simp [hx]

/-! ### What a page is -/

/-- The second list, a page of it, and the first list make up a page of the union. -/
theorem mergedPage_short (h : M.length < limit) :
    mergedPage limit M Q = page id limit (merge M (Q.take limit)) := by
  rw [mergedPage, if_neg (by simpa using h), List.take_of_length_le h.le]

theorem mergedPage_full (h : limit ≤ M.length) : mergedPage limit M Q = page id limit M := by
  rw [mergedPage, if_pos (by simpa using h)]

/-- A page holds keys of the lists, newest first, and its cursor is the key of its last row. -/
theorem mergedPage_spec (hl : 0 < limit) (hM : M.SortedGT) (hQ : Q.SortedGT) :
    (mergedPage limit M Q).1.SortedGT ∧ (∀ x ∈ (mergedPage limit M Q).1, x ∈ M ∨ x ∈ Q) ∧
      ∀ k, (mergedPage limit M Q).2 = some k → (k ∈ M ∨ k ∈ Q) ∧ ∀ x ∈ (mergedPage limit M Q).1,
        k ≤ x := by
  -- in both cases it is the page of one sorted list of such keys
  obtain ⟨d, hpage, hd, hsub⟩ : ∃ d : List κ, mergedPage limit M Q = page id limit d ∧ d.SortedGT ∧
      ∀ x ∈ d, x ∈ M ∨ x ∈ Q := by
    by_cases h : limit ≤ M.length
    · exact ⟨M, mergedPage_full h, hM, fun x => .inl⟩
    · exact ⟨_, mergedPage_short (by omega), sorted_merge hM (sorted_take hQ limit),
        fun x hx => (mem_merge.mp hx).imp_right List.mem_of_mem_take⟩
  rw [hpage]
  refine ⟨sorted_take hd limit, fun x hx => hsub x (List.mem_of_mem_take hx), fun k hk => ?_⟩
  obtain ⟨-, ⟨a, ha, rfl⟩, hdrop⟩ := page_next (newest_id.mpr hd) hl hk
  refine ⟨hsub a (List.mem_of_getElem? ha), fun x hx => not_lt.mp fun hlt => ?_⟩
  have hx' : x ∈ d.drop limit := by
    rw [← hdrop, mem_after]
    exact ⟨List.mem_of_mem_take hx, by simpa using hlt⟩
  exact (List.disjoint_take_drop hd.nodup le_rfl) hx hx'

theorem walk_mergedPage (hl : 0 < limit) (hM : M.SortedGT) (hQ : Q.SortedGT) (n : ℕ)
    (c : Option κ) :
    walk (fun c => mergedPage limit (after id c M) (after id c Q)) n c =
      walkTwo limit n (after id c M) (after id c Q) := by
  induction n generalizing c with
  | zero => rfl
  | succ n ih =>
    have hspec := (mergedPage_spec hl (sorted_after hM c) (sorted_after hQ c)).2.2
    rw [walk, walkTwo]
    rcases hp : mergedPage limit (after id c M) (after id c Q) with ⟨p, _ | k⟩
    · rfl
    · have hk : ∀ k' ∈ c, k ≤ k' := fun k' hk' => by
        rcases (hspec k (by rw [hp])).1 with hkM | hkQ
        · exact ((mem_after.mp hkM).2 k' hk').le
        · exact ((mem_after.mp hkQ).2 k' hk').le
      simp only [ih, after_after hk]

/-- **Paging two lists ends**, with fuel for each key of either. -/
theorem walkTwo_ends (hl : 0 < limit) (hM : M.SortedGT) (hQ : Q.SortedGT)
    (hn : M.length + Q.length < n) : ∃ pages, walkTwo limit n M Q = some pages := by
  induction n generalizing M Q with
  | zero => omega
  | succ n ih =>
    rw [walkTwo]
    rcases hp : mergedPage limit M Q with ⟨p, _ | k⟩
    · exact ⟨_, rfl⟩
    · have hk := ((mergedPage_spec hl hM hQ).2.2 k (by rw [hp])).1
      have hle : ∀ l : List κ, (after id (some k) l).length ≤ l.length :=
        fun l => List.length_filter_le _ _
      have hlt : ∀ l : List κ, k ∈ l → (after id (some k) l).length < l.length := fun l hkl =>
        List.length_filter_lt_length_iff_exists.mpr ⟨k, hkl, by simp⟩
      have hfuel : (after id (some k) M).length + (after id (some k) Q).length < n := by
        rcases hk with hk | hk
        · have := hlt M hk; have := hle Q; omega
        · have := hlt Q hk; have := hle M; omega
      obtain ⟨pages, hpages⟩ := ih (sorted_after hM (some k)) (sorted_after hQ (some k)) hfuel
      exact ⟨p :: pages, by simp [hpages]⟩

/-- **The pages of two lists come newest first**, and hold nothing else than their keys. -/
theorem walkTwo_sorted (hl : 0 < limit) (hM : M.SortedGT) (hQ : Q.SortedGT)
    (h : walkTwo limit n M Q = some pages) :
    pages.flatten.SortedGT ∧ ∀ x ∈ pages.flatten, x ∈ M ∨ x ∈ Q := by
  induction n generalizing M Q pages with
  | zero => simp [walkTwo] at h
  | succ n ih =>
    rw [walkTwo] at h
    obtain ⟨hsort, hmem, hcur⟩ := mergedPage_spec hl hM hQ
    rcases hp : mergedPage limit M Q with ⟨p, _ | k⟩ <;> rw [hp] at h hsort hmem hcur
    · obtain rfl : [p] = pages := by simpa using h
      simpa using ⟨hsort, hmem⟩
    · obtain ⟨rest, hrest, rfl⟩ := Option.map_eq_some_iff.mp h
      obtain ⟨hrs, hrm⟩ := ih (sorted_after hM (some k)) (sorted_after hQ (some k)) hrest
      have hlt : ∀ x ∈ rest.flatten, (x ∈ M ∨ x ∈ Q) ∧ x < k := fun x hx => by
        rcases hrm x hx with hx | hx
        · exact ⟨.inl (mem_after.mp hx).1, (mem_after.mp hx).2 k rfl⟩
        · exact ⟨.inr (mem_after.mp hx).1, (mem_after.mp hx).2 k rfl⟩
      refine ⟨?_, fun x hx => ?_⟩
      · rw [List.flatten_cons, List.sortedGT_iff_pairwise, List.pairwise_append]
        exact ⟨hsort.pairwise, hrs.pairwise,
          fun x hx y hy => (hlt y hy).2.trans_le ((hcur k rfl).2 x hx)⟩
      · rcases List.mem_append.mp hx with hx | hx
        · exact hmem x hx
        · exact (hlt x hx).1

/-! ### When nothing is left out -/

/-- Where more than a page of the second list is left, some key of the first list is not on
that page: so the two make up more than a page, and paging goes on. -/
def Fills (limit : ℕ) (M Q : List κ) : Prop := limit < Q.length → ∃ m ∈ M, m ∉ Q.take limit

/-- The keys of a list that are left when the first `n` keys of the union are gone. -/
def left (M Q : List κ) (n : ℕ) (l : List κ) : List κ :=
  l.filter fun x => decide (x ∈ (merge M Q).drop n)

/-- Paging goes on at every page boundary of the union. -/
def FillsAll (limit : ℕ) (M Q : List κ) : Prop :=
  ∀ j : ℕ, Fills limit (left M Q (j * limit) M) (left M Q (j * limit) Q)

/-- The number of keys of the first list that fill pages of their own. -/
def whole (limit : ℕ) (M : List κ) : ℕ := M.length / limit * limit

/-- The key comes after all keys of a list. -/
def Older (l : List κ) (x : κ) : Prop := ∀ y ∈ l, x < y

instance (l : List κ) (x : κ) : Decidable (Older l x) :=
  inferInstanceAs (Decidable (∀ y ∈ l, x < y))

/-- **When paging two lists leaves out no key of the second.** Where the first list is a
whole number of pages, it ends paging and must hold every key. Otherwise its whole pages
must hold every key of the second list down to their end, and paging the rest of the two
lists must go on at every page boundary. -/
def Covered (limit : ℕ) (M Q : List κ) : Prop :=
  if M ≠ [] ∧ M.length % limit = 0 then ∀ q ∈ Q, q ∈ M
  else (∀ q ∈ Q, q ∈ M ∨ Older (M.take (whole limit M)) q) ∧
    FillsAll limit (M.drop (whole limit M)) (Q.filter fun q => Older (M.take (whole limit M)) q)

/-- A page that is the last one though it is short of a key of the second list. -/
theorem subset_page_iff (hQ : Q.SortedGT) (h : (merge M (Q.take limit)).length ≤ limit) :
    (∀ q ∈ Q, q ∈ merge M (Q.take limit)) ↔ Q.length ≤ limit := by
  constructor
  · intro hall
    exact (List.subperm_of_subset hQ.nodup hall).length_le.trans h
  · intro hlen q hq
    rw [List.take_of_length_le hlen]
    exact mem_merge.mpr (.inr hq)

/-- Some key of the first list is not among the first `limit` keys of the second exactly when
the two make up more than `limit` keys, the second having that many. -/
theorem fills_iff (hM : M.SortedGT) (hQ : Q.SortedGT) :
    Fills limit M Q ↔ (limit < Q.length → limit < (merge M (Q.take limit)).length) := by
  refine imp_congr_right fun hlen => ?_
  have htake : (Q.take limit).length = limit := by simpa using hlen.le
  constructor
  · rintro ⟨m, hm, hmQ⟩
    have hnd : (m :: Q.take limit).Nodup := List.nodup_cons.mpr ⟨hmQ, (sorted_take hQ limit).nodup⟩
    have hsub : (m :: Q.take limit) ⊆ merge M (Q.take limit) := fun x hx => by
      rcases List.mem_cons.mp hx with rfl | hx
      · exact mem_merge.mpr (.inl hm)
      · exact mem_merge.mpr (.inr hx)
    have := (List.subperm_of_subset hnd hsub).length_le
    simpa [htake] using this
  · intro hlt
    by_contra hno
    push Not at hno
    have hsub : merge M (Q.take limit) ⊆ Q.take limit :=
      fun x hx => (mem_merge.mp hx).elim (hno x) id
    have := (List.subperm_of_subset (sorted_merge hM (sorted_take hQ limit)).nodup hsub).length_le
    omega

theorem left_zero : left M Q 0 M = M ∧ left M Q 0 Q = Q := by
  constructor <;>
    simpa [left, List.filter_eq_self] using fun x hx => mem_merge.mpr (by simp [hx])

/-- What is left after a page is what the cursor of the page selects. -/
theorem left_step (hM : M.SortedGT) (hQ : Q.SortedGT) (hk : (merge M Q)[n]? = some k) :
    merge (after id (some k) M) (after id (some k) Q) = (merge M Q).drop (n + 1) := by
  refine sorted_ext (sorted_merge (sorted_after hM _) (sorted_after hQ _))
    (sorted_drop (sorted_merge hM hQ) _) fun x => ?_
  rw [← after_getElem? (newest_id.mpr (sorted_merge hM hQ)) hk]
  simp only [mem_merge, mem_after]
  tauto

/-- The keys of one of the lists that are left after a page and more. -/
theorem left_after (hM : M.SortedGT) (hQ : Q.SortedGT) {m : ℕ} (hk : (merge M Q)[n]? = some k) :
    left (after id (some k) M) (after id (some k) Q) m (after id (some k) l) =
      left M Q (n + 1 + m) l := by
  unfold left
  rw [left_step hM hQ hk, List.drop_drop, after, List.filter_filter]
  refine List.filter_congr fun x _ => ?_
  by_cases hx : x ∈ (merge M Q).drop (n + 1 + m)
  · have hx' : x ∈ (merge M Q).drop (n + 1) := by
      rw [← List.drop_drop] at hx
      exact List.mem_of_mem_drop hx
    have := (lt_getElem?_iff (sorted_merge hM hQ) hk (List.mem_of_mem_drop hx)).mpr hx'
    simp [hx, this]
  · simp [hx]

/-- Paging goes on at every boundary when it does at the first and from there on. -/
theorem fillsAll_step (hl : 0 < limit) (hM : M.SortedGT) (hQ : Q.SortedGT)
    (hk : (merge M Q)[limit - 1]? = some k) :
    FillsAll limit M Q ↔
      Fills limit M Q ∧ FillsAll limit (after id (some k) M) (after id (some k) Q) := by
  have hj : ∀ j, limit - 1 + 1 + j * limit = (j + 1) * limit := fun j => by
    rw [Nat.sub_add_cancel hl]; ring
  constructor
  · intro h
    refine ⟨by simpa [left_zero] using h 0, fun j => ?_⟩
    rw [left_after hM hQ hk, left_after hM hQ hk, hj]
    exact h (j + 1)
  · rintro ⟨h0, h⟩ j
    cases j with
    | zero => simpa [left_zero] using h0
    | succ j =>
      have := h j
      rwa [left_after hM hQ hk, left_after hM hQ hk, hj] at this

/-- Paging where the first list is shorter than a page. -/
theorem walkTwo_short_iff (hl : 0 < limit) (hM : M.SortedGT) (hQ : Q.SortedGT)
    (hlen : M.length < limit) (h : walkTwo limit n M Q = some pages) :
    (∀ q ∈ Q, q ∈ pages.flatten) ↔ FillsAll limit M Q := by
  induction n generalizing M Q pages with
  | zero => simp [walkTwo] at h
  | succ n ih =>
    rw [walkTwo, mergedPage_short hlen] at h
    have hU := sorted_merge hM hQ
    have hD := sorted_merge hM (sorted_take hQ limit)
    rcases hp : page id limit (merge M (Q.take limit)) with ⟨p, _ | k⟩ <;> rw [hp] at h
    · -- the last page: it holds the second list exactly when that is no longer than a page
      obtain rfl : [p] = pages := by simpa using h
      obtain ⟨hle, hpd⟩ := page_none hl (by rw [hp])
      rw [hp] at hpd
      simp only at hpd
      subst hpd
      rw [List.flatten_singleton, subset_page_iff hQ hle]
      constructor
      · intro hQl j
        rw [List.take_of_length_le hQl] at hle
        intro hlt
        cases j with
        | zero =>
          rw [zero_mul, left_zero.2] at hlt
          omega
        | succ j =>
          have : (merge M Q).drop ((j + 1) * limit) = [] := List.drop_eq_nil_of_le (by nlinarith)
          simp [left, this] at hlt
      · intro hall
        have h0 := hall 0
        rw [zero_mul, left_zero.1, left_zero.2, fills_iff hM hQ] at h0
        omega
    · obtain ⟨rest, hrest, rfl⟩ := Option.map_eq_some_iff.mp h
      obtain ⟨hlt, ⟨a, ha, rfl⟩, -⟩ := page_next (newest_id.mpr hD) hl (by rw [hp])
      have hpt : p = (merge M Q).take limit := by
        rw [← take_merge hM hQ, ← show (page id limit (merge M (Q.take limit))).1 = p by rw [hp]]
        rfl
      have hk : (merge M Q)[limit - 1]? = some a := by
        have hi : limit - 1 < limit := by omega
        rw [← List.getElem?_take_of_lt hi, ← take_merge hM hQ, List.getElem?_take_of_lt hi, ha]
      have hbelow : ∀ q ∈ Q, (q < a ↔ q ∉ p) := fun q hq => by
        have hqU : q ∈ merge M Q := mem_merge.mpr (.inr hq)
        have hdisj := List.disjoint_take_drop hU.nodup (le_refl limit)
        rw [lt_getElem?_iff hU hk hqU, Nat.sub_add_cancel hl, hpt]
        rw [← List.take_append_drop limit (merge M Q), List.mem_append] at hqU
        exact ⟨fun h h' => hdisj h' h, hqU.resolve_left⟩
      rw [id_eq] at hrest
      rw [fillsAll_step hl hM hQ hk, ← ih (sorted_after hM _) (sorted_after hQ _)
        ((List.length_filter_le _ _).trans_lt hlen) hrest]
      constructor
      · intro hall
        refine ⟨(fills_iff hM hQ).mpr fun _ => hlt, fun q hq => ?_⟩
        obtain ⟨hqQ, hqa⟩ := mem_after.mp hq
        have := hall q hqQ
        rw [List.flatten_cons, List.mem_append] at this
        exact this.resolve_left ((hbelow q hqQ).mp (hqa a rfl))
      · rintro ⟨-, hall⟩ q hq
        rw [List.flatten_cons, List.mem_append]
        by_cases hqp : q ∈ p
        · exact .inl hqp
        · exact .inr (hall q (mem_after.mpr ⟨hq, by simpa using (hbelow q hq).mpr hqp⟩))

theorem covered_short (hlen : M.length < limit) : Covered limit M Q ↔ FillsAll limit M Q := by
  have hw : whole limit M = 0 := by simp [whole, Nat.div_eq_of_lt hlen]
  have hmod : ¬(M ≠ [] ∧ M.length % limit = 0) := by
    rintro ⟨hne, hmod⟩
    rw [Nat.mod_eq_of_lt hlen] at hmod
    exact hne (List.length_eq_zero_iff.mp hmod)
  simp [Covered, if_neg hmod, hw, Older]

omit [LinearOrder κ] in
theorem whole_drop (hl : 0 < limit) (hlen : limit ≤ M.length) :
    whole limit M = limit + whole limit (M.drop limit) := by
  obtain ⟨d, hd⟩ := Nat.exists_eq_add_of_le hlen
  rw [whole, whole, List.length_drop, hd, Nat.add_sub_cancel_left, Nat.add_div_left _ hl]
  ring

/-- The keys that come after the first page are those below its last. -/
theorem older_take_iff (hM : M.SortedGT) (hl : 0 < limit) (hk : M[limit - 1]? = some k) (q : κ) :
    Older (M.take limit) q ↔ q < k := by
  have hkt : k ∈ M.take limit := by
    rw [← List.getElem?_take_of_lt (show limit - 1 < limit by omega)] at hk
    exact List.mem_of_getElem? hk
  refine ⟨fun h => h k hkt, fun hq x hx => hq.trans_le (not_lt.mp fun hxk => ?_)⟩
  have hxd := (lt_getElem?_iff hM hk (List.mem_of_mem_take hx)).mp hxk
  rw [Nat.sub_add_cancel hl] at hxd
  exact List.disjoint_take_drop hM.nodup le_rfl hx hxd

theorem covered_step (hl : 0 < limit) (hM : M.SortedGT) (hlen : limit < M.length)
    (hk : M[limit - 1]? = some k) :
    Covered limit M Q ↔
      (∀ q ∈ Q, ¬q < k → q ∈ M) ∧ Covered limit (M.drop limit) (after id (some k) Q) := by
  have hmem : ∀ q, q < k → (q ∈ M ↔ q ∈ M.drop limit) := fun q hq =>
    ⟨fun hqM => by simpa [Nat.sub_add_cancel hl] using (lt_getElem?_iff hM hk hqM).mp hq,
      List.mem_of_mem_drop⟩
  have hQk : ∀ q, q ∈ after id (some k) Q ↔ q ∈ Q ∧ q < k := fun q => by simp [mem_after]
  have hne : M ≠ [] ∧ M.drop limit ≠ [] := by
    constructor <;> intro h0
    · simp [h0] at hlen
    · rw [List.drop_eq_nil_iff] at h0
      omega
  have hmod : (M.drop limit).length % limit = M.length % limit := by
    rw [List.length_drop, Nat.mod_eq_sub_mod hlen.le]
  unfold Covered
  rw [hmod]
  by_cases hm : M.length % limit = 0
  · -- whole pages only
    rw [if_pos ⟨hne.1, hm⟩, if_pos ⟨hne.2, hm⟩]
    constructor
    · exact fun h => ⟨fun q hq _ => h q hq,
        fun q hq => (hmem q ((hQk q).mp hq).2).mp (h q ((hQk q).mp hq).1)⟩
    · rintro ⟨h₁, h₂⟩ q hq
      by_cases hqk : q < k
      · exact (hmem q hqk).mpr (h₂ q ((hQk q).mpr ⟨hq, hqk⟩))
      · exact h₁ q hq hqk
  · rw [if_neg fun h => hm h.2, if_neg fun h => hm h.2, whole_drop hl hlen.le]
    -- the whole pages are the first one and those of the rest
    have hold : ∀ q, Older (M.take (limit + whole limit (M.drop limit))) q ↔
        q < k ∧ Older ((M.drop limit).take (whole limit (M.drop limit))) q := fun q => by
      rw [List.take_add, ← older_take_iff hM hl hk]
      simp only [Older, List.mem_append, or_imp, forall_and]
    have hfilter : (Q.filter fun q => Older (M.take (limit + whole limit (M.drop limit))) q) =
        (after id (some k) Q).filter fun q =>
          Older ((M.drop limit).take (whole limit (M.drop limit))) q := by
      rw [after, List.filter_filter]
      refine List.filter_congr fun q _ => ?_
      rw [Bool.eq_iff_iff]
      simp [hold, and_comm]
    rw [hfilter, ← List.drop_drop, ← and_assoc]
    refine and_congr_left fun _ => ?_
    constructor
    · intro h
      refine ⟨fun q hq hqk => (h q hq).resolve_right fun ho => hqk ((hold q).mp ho).1,
        fun q hq => ?_⟩
      obtain ⟨hqQ, hqk⟩ := (hQk q).mp hq
      exact (h q hqQ).imp (hmem q hqk).mp fun ho => ((hold q).mp ho).2
    · rintro ⟨h₁, h₂⟩ q hq
      by_cases hqk : q < k
      · exact (h₂ q ((hQk q).mpr ⟨hq, hqk⟩)).imp (hmem q hqk).mpr fun ho => (hold q).mpr ⟨hqk, ho⟩
      · exact .inl (h₁ q hq hqk)

/-- **The exact condition under which paging two lists leaves out no key of the second.** -/
theorem walkTwo_complete_iff (hl : 0 < limit) (hM : M.SortedGT) (hQ : Q.SortedGT)
    (h : walkTwo limit n M Q = some pages) : (∀ q ∈ Q, q ∈ pages.flatten) ↔ Covered limit M Q := by
  induction n generalizing M Q pages with
  | zero => simp [walkTwo] at h
  | succ n ih =>
    by_cases hlen : M.length < limit
    · rw [covered_short hlen]
      exact walkTwo_short_iff hl hM hQ hlen h
    · rw [walkTwo, mergedPage_full (by omega)] at h
      rcases hp : page id limit M with ⟨p, _ | k⟩ <;> rw [hp] at h
      · -- the first list ends on this page
        obtain rfl : [p] = pages := by simpa using h
        obtain ⟨hle, hpM⟩ := page_none hl (by rw [hp])
        rw [hp] at hpM
        simp only at hpM
        subst hpM
        have hfull : p.length = limit := by omega
        have hc : p ≠ [] ∧ p.length % limit = 0 :=
          ⟨fun h0 => by simp [h0] at hfull; omega, by simp [hfull]⟩
        rw [Covered, if_pos hc, List.flatten_singleton]
      · obtain ⟨rest, hrest, rfl⟩ := Option.map_eq_some_iff.mp h
        obtain ⟨hlt, ⟨a, ha, rfl⟩, hdrop⟩ := page_next (newest_id.mpr hM) hl (by rw [hp])
        rw [id_eq] at hrest hdrop
        have hpt : p = M.take limit := by rw [← show (page id limit M).1 = p by rw [hp]]; rfl
        rw [hdrop] at hrest
        obtain ⟨-, hsub⟩ := walkTwo_sorted hl (sorted_drop hM limit) (sorted_after hQ _) hrest
        rw [covered_step hl hM hlt ha, ← ih (sorted_drop hM limit) (sorted_after hQ _) hrest]
        simp only [List.flatten_cons, List.mem_append, hpt]
        constructor
        · intro hall
          refine ⟨fun q hq hqa => (hall q hq).elim List.mem_of_mem_take fun hqr => ?_,
            fun q hq => ?_⟩
          · exact (hsub q hqr).elim List.mem_of_mem_drop fun hqQ => absurd
              ((mem_after.mp hqQ).2 a rfl) hqa
          · obtain ⟨hqQ, hqa⟩ := mem_after.mp hq
            refine (hall q hqQ).resolve_left fun hqp => ?_
            exact lt_irrefl q ((older_take_iff hM hl ha q).mpr (hqa a rfl) q hqp)
        · rintro ⟨h₁, h₂⟩ q hq
          by_cases hqa : q < a
          · exact .inr (h₂ q (mem_after.mpr ⟨hq, by simpa using hqa⟩))
          · have hqM := h₁ q hq hqa
            have hnd : q ∉ M.drop limit := fun hqd => hqa <| by
              rw [← Nat.sub_add_cancel hl] at hqd
              exact (lt_getElem?_iff hM ha hqM).mpr hqd
            rw [← List.take_append_drop limit M, List.mem_append] at hqM
            exact .inl (hqM.resolve_right hnd)

end Two

end HttpCatch.Keyset
