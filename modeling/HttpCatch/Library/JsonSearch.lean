import HttpCatch.Library.Json

/-!
# Searching the JSON text of a string map

A map that is stored as JSON text is searched by looking for a needle in the text, after
ASCII letters are folded. The text has punctuation, the word `null` and escapes that the
map has not, so the search finds needles that are in no key and in no value.

* `occurs_marshal` — where keys and values have nothing to escape (`PlainText`) and the
  needle is none of the syntax (`BareNeedle`), the text has the needle exactly when a key or
  a value has it.
-/

namespace HttpCatch.Json

open HttpCatch.Go

/-- The needle is in the text, with ASCII letters of the text folded. -/
def Occurs (n s : GoString) : Prop := n <:+: s.map lowerByte

instance (n s : GoString) : Decidable (Occurs n s) := inferInstanceAs (Decidable (_ <:+: _))

/-- A byte that stands for itself in a string literal. -/
def plainByte (b : UInt8) : Bool :=
  0x20 ≤ b && b < 0x80 && b ∉ ([0x22, 0x5C, 0x3C, 0x3E, 0x26] : GoString)

/-- A text that stands for itself in a string literal. -/
def PlainText (s : GoString) : Prop := ∀ b ∈ s, plainByte b

/-- The punctuation of an object of arrays of strings: quotes, braces, brackets, colon, comma. -/
def syntaxBytes : GoString := [0x22, 0x7B, 0x7D, 0x5B, 0x5D, 0x3A, 0x2C]

/-- A needle that is no part of the syntax. -/
structure BareNeedle (n : GoString) : Prop where
  nonempty : n ≠ []
  punct : ∀ b ∈ syntaxBytes, b ∉ n
  null : ¬n <:+: str "null"

section Needle

variable {n : GoString}

variable {a b : GoString} {s : UInt8}

theorem isPrefix_of_sep (hs : s ∉ n) (h : n <+: a ++ s :: b) : n <+: a := by
  have ha : a ++ [s] <+: a ++ s :: b := ⟨b, by simp⟩
  rcases List.prefix_or_prefix_of_prefix h ha with h | h
  · rcases List.prefix_concat_iff.mp h with rfl | h
    · simp at hs
    · exact h
  · exact absurd (h.subset (by simp)) hs

/-- A needle without a separator is on one side of it. -/
theorem infix_sep (hs : s ∉ n) : n <:+: a ++ s :: b ↔ n <:+: a ∨ n <:+: b := by
  induction a with
  | nil =>
    rw [List.nil_append, List.infix_cons_iff]
    refine or_congr_left ⟨fun h => ?_, fun h => ?_⟩
    · exact (isPrefix_of_sep (a := []) hs h).isInfix
    · rw [List.infix_nil.mp h]
      exact List.nil_prefix
  | cons c a ih =>
    rw [List.cons_append, List.infix_cons_iff, List.infix_cons_iff, ih, or_assoc]
    refine or_congr_left ⟨fun h => ?_, fun h => ?_⟩
    · exact isPrefix_of_sep (a := c :: a) hs h
    · exact h.trans ⟨s :: b, by simp⟩

theorem occurs_sep (hn : BareNeedle n) (hs : s ∈ syntaxBytes) :
    Occurs n (a ++ s :: b) ↔ Occurs n a ∨ Occurs n b := by
  have hlow : ∀ s ∈ syntaxBytes, lowerByte s = s := by simp [syntaxBytes, lowerByte]
  rw [Occurs, List.map_append, List.map_cons, hlow s hs]
  exact infix_sep (hn.punct s hs)

theorem occurs_nil (hn : BareNeedle n) : ¬Occurs n [] := fun h => hn.nonempty (List.infix_nil.mp h)

theorem occurs_cons_sep (hn : BareNeedle n) (hs : s ∈ syntaxBytes) :
    Occurs n (s :: b) ↔ Occurs n b := by
  have := occurs_sep hn (a := []) (b := b) hs
  simpa [occurs_nil hn] using this

end Needle

variable {s : GoString}

theorem pieces_of_plain (h : PlainText s) : pieces s = s.map .ascii := by
  induction s with
  | nil => rfl
  | cons b s ih =>
    have hb := h b List.mem_cons_self
    simp only [plainByte, Bool.and_eq_true, decide_eq_true_iff] at hb
    rw [pieces_ascii hb.1.2, ih fun c hc => h c (List.mem_cons_of_mem b hc), List.map_cons]

theorem escapeAscii_of_plain {b : UInt8} (h : plainByte b) : escapeAscii b = [b] := by
  simp only [plainByte, Bool.and_eq_true, decide_eq_true_iff, List.mem_cons, List.not_mem_nil,
    or_false, not_or] at h
  obtain ⟨⟨hge, -⟩, hq, hb, hl, hg, ha⟩ := h
  have hctl : ∀ c : UInt8, c < 0x20 → b ≠ c := fun c hc hbc => absurd (hbc ▸ hge) (not_le.mpr hc)
  rw [escapeAscii, if_neg (by simp [hq, hb]), if_neg (hctl _ (by decide)),
    if_neg (hctl _ (by decide)), if_neg (hctl _ (by decide)), if_neg (hctl _ (by decide)),
    if_neg (hctl _ (by decide)), if_neg (by simp [hl, hg, ha, hge])]

/-- A plain text is written between quotes as it is. -/
theorem marshalString_of_plain (h : PlainText s) : marshalString s = 0x22 :: (s ++ [0x22]) := by
  rw [marshalString, pieces_of_plain h, List.flatMap_map]
  congr 2
  induction s with
  | nil => rfl
  | cons b s ih =>
    rw [List.flatMap_cons, ih fun c hc => h c (List.mem_cons_of_mem b hc)]
    simp only [escapePiece]
    rw [escapeAscii_of_plain (h b List.mem_cons_self)]
    rfl

theorem toValidUTF8_of_plain (h : PlainText s) : toValidUTF8 s = s := by
  rw [toValidUTF8, pieces_of_plain h, List.flatMap_map]
  exact List.flatMap_singleton' s

/-- Keys and values stand for themselves in string literals. -/
def PlainMap (m : List (GoString × Option (List GoString))) : Prop :=
  ∀ kv ∈ m, PlainText kv.1 ∧ ∀ v ∈ kv.2.getD [], PlainText v

/-- The needle is in the key or in a value of a member. -/
def OccursIn (n : GoString) (kv : GoString × Option (List GoString)) : Prop :=
  Occurs n kv.1 ∨ ∃ v ∈ kv.2.getD [], Occurs n v

section Search

variable {n : GoString} (hn : BareNeedle n)

include hn

theorem occurs_marshalString {s rest : GoString} (h : PlainText s) :
    Occurs n (marshalString s ++ rest) ↔ Occurs n s ∨ Occurs n rest := by
  rw [marshalString_of_plain h, List.cons_append, occurs_cons_sep hn (by decide), List.append_assoc]
  exact occurs_sep hn (by decide)

theorem occurs_values {vs : List GoString} {rest : GoString} (h : ∀ v ∈ vs, PlainText v) :
    Occurs n ((vs.map marshalString).flatMap (0x2C :: ·) ++ rest) ↔
      (∃ v ∈ vs, Occurs n v) ∨ Occurs n rest := by
  induction vs with
  | nil => simp
  | cons v vs ih =>
    rw [List.map_cons, List.flatMap_cons, List.append_assoc, List.cons_append,
      occurs_cons_sep hn (by decide), occurs_marshalString hn (h v List.mem_cons_self),
      ih fun w hw => h w (List.mem_cons_of_mem v hw)]
    simp [or_assoc]

theorem occurs_marshalSlice {vs : Option (List GoString)} {rest : GoString} {s : UInt8}
    (hs : s ∈ syntaxBytes) (h : ∀ v ∈ vs.getD [], PlainText v) :
    Occurs n (marshalSlice vs ++ s :: rest) ↔ (∃ v ∈ vs.getD [], Occurs n v) ∨ Occurs n rest := by
  match vs with
  | none =>
    have hnull : ¬Occurs n (str "null") := hn.null
    rw [marshalSlice, occurs_sep hn hs]
    simp [hnull]
  | some [] =>
    rw [marshalSlice, List.cons_append, occurs_cons_sep hn (by decide)]
    simp only [commaJoin, List.map_nil, List.nil_append, List.cons_append]
    rw [occurs_cons_sep hn (by decide), occurs_cons_sep hn hs]
    simp
  | some (v :: vs) =>
    simp only [marshalSlice, List.map_cons, commaJoin, List.cons_append, List.append_assoc,
      Option.getD_some] at h ⊢
    rw [occurs_cons_sep hn (by decide), occurs_marshalString hn (h v List.mem_cons_self),
      occurs_values hn fun w hw => h w (List.mem_cons_of_mem v hw), List.nil_append,
      occurs_cons_sep hn (by decide), occurs_cons_sep hn hs]
    simp [or_assoc]

theorem occurs_marshalMember {kv : GoString × Option (List GoString)} {rest : GoString} {s : UInt8}
    (hs : s ∈ syntaxBytes) (h : PlainText kv.1 ∧ ∀ v ∈ kv.2.getD [], PlainText v) :
    Occurs n (marshalMember kv ++ s :: rest) ↔ OccursIn n kv ∨ Occurs n rest := by
  rw [marshalMember, List.append_assoc, occurs_marshalString hn h.1, List.cons_append,
    occurs_cons_sep hn (by decide), occurs_marshalSlice hn hs h.2, OccursIn, or_assoc]

theorem occurs_members {kv : GoString × Option (List GoString)}
    {kvs : List (GoString × Option (List GoString))} (h : PlainMap (kv :: kvs)) :
    Occurs n (commaJoin ((kv :: kvs).map marshalMember) ++ [0x7D]) ↔
      ∃ kv' ∈ kv :: kvs, OccursIn n kv' := by
  have hkv := h kv List.mem_cons_self
  induction kvs generalizing kv with
  | nil =>
    have := @occurs_marshalMember n hn kv [] 0x7D (by decide) hkv
    simpa [commaJoin, occurs_nil hn] using this
  | cons kv' kvs ih =>
    have hrest := ih (fun x hx => h x (List.mem_cons_of_mem kv hx)) (h kv' (by simp))
    simp only [List.map_cons, commaJoin, List.flatMap_cons, List.append_assoc,
      List.cons_append] at hrest ⊢
    refine (occurs_marshalMember hn (by decide) hkv).trans ((or_congr_right hrest).trans ?_)
    simp

/-- **A bare needle is in the text of a plain map exactly when it is in a key or in a value.** -/
theorem occurs_marshal {m : Option (List (GoString × Option (List GoString)))}
    (h : PlainMap (m.getD [])) :
    Occurs n (marshal m) ↔ ∃ kv ∈ m.getD [], OccursIn n kv := by
  cases m with
  | none =>
    have hnull : ¬Occurs n (str "null") := hn.null
    simpa [marshal] using hnull
  | some m =>
    have hmem : ∀ kv, kv ∈ sortMembers m ↔ kv ∈ m := fun kv => List.mem_insertionSort _
    rw [marshal, occurs_cons_sep hn (by decide), Option.getD_some]
    simp only [← hmem]
    cases hs : sortMembers m with
    | nil =>
      have := (occurs_cons_sep hn (s := 0x7D) (b := []) (by decide)).not.mpr (occurs_nil hn)
      simpa [commaJoin] using this
    | cons kv kvs =>
      exact occurs_members hn fun x hx => h x ((hmem x).mp (hs ▸ hx))

end Search

/-! ### What the text is made of -/

/-- Printable ASCII. -/
def Printable (s : GoString) : Prop := ∀ b ∈ s, 0x20 ≤ b ∧ b < 0x80

theorem printable_append {t : GoString} (hs : Printable s) (ht : Printable t) :
    Printable (s ++ t) := List.forall_mem_append.2 ⟨hs, ht⟩

theorem printable_cons {b : UInt8} (hb : 0x20 ≤ b ∧ b < 0x80) (hs : Printable s) :
    Printable (b :: s) := List.forall_mem_cons.2 ⟨hb, hs⟩

theorem printable_of_plain (h : PlainText s) : Printable s := by
  intro b hb
  have := h b hb
  simp only [plainByte, Bool.and_eq_true, decide_eq_true_iff] at this
  exact this.1

theorem printable_marshalString (h : PlainText s) : Printable (marshalString s) := by
  have hquote : (0x20 : UInt8) ≤ 0x22 ∧ (0x22 : UInt8) < 0x80 := by decide
  rw [marshalString_of_plain h]
  exact printable_cons hquote
    (printable_append (printable_of_plain h) (List.forall_mem_singleton.2 hquote))

theorem printable_commaJoin {xs : List GoString} (h : ∀ x ∈ xs, Printable x) :
    Printable (commaJoin xs) := by
  cases xs with
  | nil => exact fun b hb => absurd hb List.not_mem_nil
  | cons x xs =>
    obtain ⟨hx, hxs⟩ := List.forall_mem_cons.1 h
    refine printable_append hx fun b hb => ?_
    obtain ⟨y, hy, hb⟩ := List.mem_flatMap.1 hb
    exact printable_cons (by decide) (hxs y hy) b hb

/-- The text of a plain map is printable ASCII. -/
theorem printable_marshal {m : Option (List (GoString × Option (List GoString)))}
    (h : PlainMap (m.getD [])) : Printable (marshal m) := by
  have hnull : Printable (str "null") := by
    have hbytes : str "null" = [0x6E, 0x75, 0x6C, 0x6C] := rfl
    simp [Printable, hbytes]
  have hclose : ∀ c : UInt8, (0x20 ≤ c ∧ c < 0x80) → Printable [c] := fun _ hc =>
    List.forall_mem_singleton.2 hc
  cases m with
  | none => exact hnull
  | some m =>
    refine printable_cons (by decide) (printable_append (printable_commaJoin ?_)
      (hclose 0x7D (by decide)))
    intro x hx
    obtain ⟨kv, hkv, rfl⟩ := List.mem_map.1 hx
    obtain ⟨hkey, hvalues⟩ := h kv ((List.mem_insertionSort _).1 hkv)
    refine printable_append (printable_marshalString hkey) (printable_cons (by decide) ?_)
    cases hvs : kv.2 with
    | none => exact hnull
    | some vs =>
      refine printable_cons (by decide) (printable_append (printable_commaJoin fun x hx => ?_)
        (hclose 0x5D (by decide)))
      obtain ⟨v, hv, rfl⟩ := List.mem_map.1 hx
      exact printable_marshalString (hvalues v (by rwa [hvs]))

/-! ### Any needle -/

theorem Occurs.mono {n s' : GoString} (h : Occurs n s) (hs : s <:+: s') : Occurs n s' :=
  List.IsInfix.trans h (hs.map lowerByte)

theorem infix_commaJoin {x : GoString} {xs : List GoString} (h : x ∈ xs) : x <:+: commaJoin xs := by
  cases xs with
  | nil => cases h
  | cons y ys =>
    rcases List.mem_cons.mp h with rfl | h
    · exact List.infix_append' [] x _
    · obtain ⟨l₁, l₂, rfl⟩ := List.append_of_mem h
      exact ⟨y ++ l₁.flatMap (0x2C :: ·) ++ [0x2C], l₂.flatMap (0x2C :: ·),
        by simp [commaJoin, List.flatMap_append]⟩

theorem infix_marshalString (h : PlainText s) : s <:+: marshalString s := by
  rw [marshalString_of_plain h]
  exact ⟨[0x22], [0x22], by simp⟩

/-- A needle in a key or in a value of a plain map is in its text, whatever the needle. -/
theorem occurs_marshal_of_mem {n : GoString} {m : List (GoString × Option (List GoString))}
    (h : PlainMap m) {kv : GoString × Option (List GoString)} (hkv : kv ∈ m) (hn : OccursIn n kv) :
    Occurs n (marshal (some m)) := by
  have hmember : marshalMember kv <:+: marshal (some m) := by
    have hmem : kv ∈ sortMembers m := (List.mem_insertionSort _).mpr hkv
    exact (infix_commaJoin (List.mem_map_of_mem hmem)).trans ⟨[0x7B], [0x7D], by simp [marshal]⟩
  rcases hn with hn | ⟨v, hv, hn⟩
  · have hkey : marshalString kv.1 <:+: marshalMember kv := List.infix_append' [] _ _
    exact hn.mono (((infix_marshalString (h kv hkv).1).trans hkey).trans hmember)
  · obtain ⟨vs, hvs⟩ : ∃ vs, kv.2 = some vs := by
      cases hvs : kv.2 with
      | none => simp [hvs] at hv
      | some vs => exact ⟨vs, rfl⟩
    have hslice : marshalString v <:+: marshalSlice kv.2 := by
      rw [hvs] at hv ⊢
      exact (infix_commaJoin (List.mem_map_of_mem hv)).trans
        ⟨[0x5B], [0x5D], by simp [marshalSlice]⟩
    have hvalue : marshalSlice kv.2 <:+: marshalMember kv :=
      ⟨marshalString kv.1 ++ [0x3A], [], by simp [marshalMember]⟩
    exact hn.mono ((((infix_marshalString ((h kv hkv).2 v hv)).trans hslice).trans hvalue).trans
      hmember)

end HttpCatch.Json
