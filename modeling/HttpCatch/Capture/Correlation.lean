import HttpCatch.Library.Text
import HttpCatch.Capture.Record
import HttpCatch.SearchQL.Query

/-!
# Correlation keys

`internal/capture/correlation.go` and `deriveCorrelation` of `internal/admin/events.go`: the
key under which a captured request and the events that belong to it are found together. The
capture port takes it from the request's headers. An event may name the key or carry headers
it is taken from.

## Main result

* `deriveCorrelation_linked`: an event that echoes the key of a captured request gets that key
  just when the key came from `traceparent` or passes the limits of the Events API.
-/

namespace HttpCatch.Capture

open HttpCatch.Go HttpCatch.SearchQL

/-! ### Headers of a request -/

/-- `http.Header.Get`. -/
def Headers.get (h : Headers) (key : GoString) : GoString :=
  (h.values (canonicalMIMEHeaderKey key)).headD []

/-- `h[key] = append(h[key], v)`, on the entries of a map. -/
def appendValue (key v : GoString) :
    List (GoString × Option (List GoString)) → List (GoString × Option (List GoString))
  | [] => [(key, some [v])]
  | e :: es =>
    if e.1 = key then (e.1, some (e.2.getD [] ++ [v])) :: es else e :: appendValue key v es

theorem mem_keys_appendValue {key v k : GoString} {es : List (GoString × Option (List GoString))}
    (h : k ∈ (appendValue key v es).map Prod.fst) : k = key ∨ k ∈ es.map Prod.fst := by
  induction es with
  | nil => exact Or.inl (List.mem_singleton.1 h)
  | cons e es ih =>
    rw [appendValue] at h
    split_ifs at h
    · exact Or.inr h
    · rcases List.mem_cons.1 h with rfl | h
      · exact Or.inr List.mem_cons_self
      · exact (ih h).imp_right (List.mem_cons_of_mem _)

theorem nodup_appendValue {key v : GoString} {es : List (GoString × Option (List GoString))}
    (h : (es.map Prod.fst).Nodup) : ((appendValue key v es).map Prod.fst).Nodup := by
  induction es with
  | nil => exact List.nodup_singleton _
  | cons e es ih =>
    rw [appendValue]
    split_ifs with he
    · exact h
    · rw [List.map_cons, List.nodup_cons] at h ⊢
      exact ⟨fun hm => (mem_keys_appendValue hm).elim he h.1, ih h.2⟩

/-- `http.Header.Add`. -/
def addValue (m : StringMap) (kv : GoString × GoString) : StringMap :=
  ⟨appendValue (canonicalMIMEHeaderKey kv.1) kv.2 m.entries, nodup_appendValue m.nodup⟩

/-- The `http.Header` that `deriveCorrelation` makes of the headers of an event. -/
def toHTTPHeader (h : Headers) : Headers := some (h.pairs.foldl addValue StringMap.empty)

/-- A header map as `net/http` hands it out: every name in canonical form. -/
def Canonical (h : Headers) : Prop := ∀ kv ∈ h.entries, canonicalMIMEHeaderKey kv.1 = kv.1

instance (h : Headers) : Decidable (Canonical h) :=
  inferInstanceAs (Decidable (∀ kv ∈ h.entries, _))

/-! ### Keys -/

/-- A digit of a trace id. The loop of `parseTraceparent` goes over characters, but only these
pass it. -/
def isTraceDigit (b : UInt8) : Bool := (0x30 ≤ b && b ≤ 0x39) || (0x61 ≤ b && b ≤ 0x66)

/-- `uuid.NewString()`: 36 digits and dashes. -/
structure UUID where
  /-- The text. -/
  text : GoString
  /-- Its length. -/
  length_eq : text.length = 36
  /-- Its digits. -/
  digits : text.all fun b => b == 0x2D || isTraceDigit b

/-- `CorrelationSourceTraceparent`. -/
def sourceTraceparent : GoString := str "traceparent"

/-- `CorrelationSourceRequestID`. -/
def sourceRequestID : GoString := str "request_id"

/-- `CorrelationSourceSynthesized`. -/
def sourceSynthesized : GoString := str "synthesized"

/-- `CorrelationSourceExplicit`. -/
def sourceExplicit : GoString := str "explicit"

/-- `TraceparentHeader`. -/
def traceparentHeader : GoString := str "traceparent"

/-- `RequestIDHeader`. -/
def requestIDHeader : GoString := str "X-Request-ID"

variable (U : Unicode)

/-- `parseTraceparent`. -/
def parseTraceparent (s : GoString) : Option GoString :=
  match split s 0x2D with
  | version :: id :: _ :: _ :: _ =>
    let traceID := toLower U id
    if version ≠ str "00" then none
    else if traceID.length ≠ 32 then none
    else if !traceID.all isTraceDigit then none
    else if traceID = List.replicate 32 0x30 then none
    else some traceID
  | _ => none

/-- `IdentifyCorrelation`, with the identifier it makes up if it must. -/
def identifyCorrelation (fresh : UUID) (headers : Headers) : GoString × GoString :=
  let tp := trimSpace (headers.get traceparentHeader)
  match if tp = [] then none else parseTraceparent U tp with
  | some traceID => (traceID, sourceTraceparent)
  | none =>
    let rid := trimSpace (headers.get requestIDHeader)
    if rid = [] then (fresh.text, sourceSynthesized) else (rid, sourceRequestID)

/-- `maxExplicitCorrelationID`. -/
def maxExplicitCorrelationID : ℕ := 256

/-- `isPrintableASCII`. -/
def isPrintableASCII (s : GoString) : Bool := s.all fun b => 0x20 ≤ b && b ≤ 0x7E

/-- `deriveCorrelation`, for the explicit key and the headers of an event. -/
def deriveCorrelation (fresh : UUID) (correlationID : GoString) (headers : Headers) :
    GoString × GoString :=
  let c := trimSpace correlationID
  if c ≠ [] ∧ c.length ≤ maxExplicitCorrelationID ∧ isPrintableASCII c then (c, sourceExplicit)
  else identifyCorrelation U fresh (toHTTPHeader headers)

/-! ### Headers made anew -/

theorem values_addValue (m : StringMap) (kv : GoString × GoString) (key : GoString) :
    Headers.values (some (addValue m kv)) key =
      Headers.values (some m) key ++ if canonicalMIMEHeaderKey kv.1 = key then [kv.2] else [] := by
  show (((appendValue (canonicalMIMEHeaderKey kv.1) kv.2 m.entries).lookup key).getD none).getD [] =
    ((m.entries.lookup key).getD none).getD [] ++ _
  generalize canonicalMIMEHeaderKey kv.1 = k
  induction m.entries with
  | nil =>
    rw [appendValue, List.lookup_cons, List.lookup_nil]
    by_cases hk : k = key
    · rw [if_pos hk, beq_iff_eq.2 hk.symm]
      rfl
    · rw [if_neg hk, beq_eq_false_iff_ne.2 (Ne.symm hk)]
      rfl
  | cons e es ih =>
    rw [appendValue]
    by_cases he : e.1 = k
    · rw [if_pos he, List.lookup_cons, List.lookup_cons, he]
      by_cases hk : k = key
      · rw [if_pos hk, beq_iff_eq.2 hk.symm]
        rfl
      · rw [if_neg hk, beq_eq_false_iff_ne.2 (Ne.symm hk), List.append_nil]
    · rw [if_neg he, List.lookup_cons, List.lookup_cons]
      cases hk : key == e.1 with
      | true =>
        rw [if_neg (fun hkk => he ((beq_iff_eq.1 hk).symm.trans hkk.symm)), List.append_nil]
      | false => exact ih

/-- The values under a name are those added under it, in order. -/
theorem values_foldl_addValue (ps : List (GoString × GoString)) (m : StringMap) (key : GoString) :
    Headers.values (some (ps.foldl addValue m)) key =
      Headers.values (some m) key ++ (ps.filter fun p => canonicalMIMEHeaderKey p.1 =
        key).map Prod.snd := by
  induction ps generalizing m with
  | nil => exact (List.append_nil _).symm
  | cons p ps ih =>
    rw [List.foldl_cons, ih, values_addValue, List.filter_cons, List.append_assoc]
    by_cases hp : canonicalMIMEHeaderKey p.1 = key
    · simp [hp]
    · simp [hp]

/-- Adding the values of a canonical header map to an empty one changes none of them. -/
theorem values_toHTTPHeader {h : Headers} (hc : Canonical h) (key : GoString) :
    (toHTTPHeader h).values key = h.values key := by
  have hnodup : (h.entries.map Prod.fst).Nodup := by
    cases h with
    | none => exact List.nodup_nil
    | some m => exact m.nodup
  have hempty : Headers.values (some StringMap.empty) key = [] := rfl
  rw [toHTTPHeader, values_foldl_addValue, hempty, List.nil_append]
  show ((h.entries.flatMap fun kv => (kv.2.getD []).map fun v => (kv.1, v)).filter _).map Prod.snd =
    ((h.entries.lookup key).getD none).getD []
  rw [Canonical] at hc
  generalize h.entries = entries at hc hnodup ⊢
  induction entries with
  | nil => rfl
  | cons e es ih =>
    rw [List.map_cons, List.nodup_cons] at hnodup
    have hrest := ih (fun kv hkv => hc kv (List.mem_cons_of_mem e hkv)) hnodup.2
    have he : canonicalMIMEHeaderKey e.1 = e.1 := hc e List.mem_cons_self
    rw [List.flatMap_cons, List.filter_append, List.map_append, hrest, List.lookup_cons]
    by_cases hk : key = e.1
    · -- no other entry has this key
      have hno : es.lookup key = none := by
        rw [List.lookup_eq_none_iff]
        intro e' he'
        refine bne_iff_ne.2 fun hke => hnodup.1 ?_
        rw [← hk, hke]
        exact List.mem_map_of_mem he'
      rw [hno, beq_iff_eq.2 hk]
      simp [List.filter_map, Function.comp_def, he, hk]
    · rw [beq_eq_false_iff_ne.2 hk]
      simp [List.filter_map, Function.comp_def, he, Ne.symm hk]

theorem get_toHTTPHeader {h : Headers} (hc : Canonical h) (key : GoString) :
    (toHTTPHeader h).get key = h.get key := by
  rw [Headers.get, values_toHTTPHeader hc, ← Headers.get]

/-- What is identified depends on two headers only. -/
theorem identifyCorrelation_congr {fresh : UUID} {h h' : Headers}
    (ht : h.get traceparentHeader = h'.get traceparentHeader)
    (hr : h.get requestIDHeader = h'.get requestIDHeader) :
    identifyCorrelation U fresh h = identifyCorrelation U fresh h' := by
  rw [identifyCorrelation, ht, hr, ← identifyCorrelation]

/-! ### Limits -/

/-- A trace id is 32 visible characters. -/
theorem parseTraceparent_ok {s traceID : GoString} (h : parseTraceparent U s = some traceID) :
    traceID.length = 32 ∧ ∀ b ∈ traceID, isTraceDigit b := by
  unfold parseTraceparent at h
  split at h
  · dsimp only at h
    split_ifs at h with _ hlen hall
    obtain rfl := Option.some.inj h
    refine ⟨not_not.1 hlen, ?_⟩
    simpa using hall
  · cases h

theorem visible_of_isTraceDigit {b : UInt8} (h : isTraceDigit b) : 0x20 < b ∧ b ≤ 0x7E := by
  simp only [isTraceDigit, Bool.or_eq_true, Bool.and_eq_true, decide_eq_true_eq,
    UInt8.le_iff_toNat_le, UInt8.reduceToNat] at h
  simp only [UInt8.lt_iff_toNat_lt, UInt8.le_iff_toNat_le, UInt8.reduceToNat]
  omega

theorem UUID.isPrintableASCII (fresh : UUID) : isPrintableASCII fresh.text := by
  rw [Capture.isPrintableASCII, List.all_eq_true]
  intro b hb
  have hd := List.all_eq_true.1 fresh.digits b hb
  rw [Bool.or_eq_true, beq_iff_eq] at hd
  rcases hd with rfl | hd
  · decide
  · have hv := visible_of_isTraceDigit hd
    simpa using ⟨le_of_lt hv.1, hv.2⟩

/-- The key passes the limits that the Events API sets for an explicit one. -/
def WithinLimits (id : GoString) : Prop :=
  id.length ≤ maxExplicitCorrelationID ∧ isPrintableASCII id

instance (id : GoString) : Decidable (WithinLimits id) := inferInstanceAs (Decidable (_ ∧ _))

/-- The request has a `traceparent` that parses. -/
def Traced (headers : Headers) : Prop :=
  ∃ traceID, parseTraceparent U (trimSpace (headers.get traceparentHeader)) = some traceID

/-- An explicit key is taken, whatever the event's headers are, just when it is within the limits.
-/
theorem deriveCorrelation_explicit (u : UUID) {id : GoString} (hne : id ≠ [])
    (htrim : trimSpace id = id) :
    (∀ (fresh : UUID) (own : Headers), (deriveCorrelation U fresh id own).1 = id) ↔
      WithinLimits id := by
  constructor
  · intro h
    by_contra hlimits
    -- an event without headers is given a new key, and a new key is within the limits
    have htext : (deriveCorrelation U u id none).1 = id := h u none
    rw [deriveCorrelation, htrim, if_neg fun hc => hlimits hc.2] at htext
    replace htext : u.text = id := htext
    refine hlimits ⟨?_, htext ▸ u.isPrintableASCII⟩
    rw [← htext, u.length_eq]
    decide
  · intro hlimits fresh own
    rw [deriveCorrelation, htrim, if_pos ⟨hne, hlimits⟩]

/-- What a key that was not made up is. -/
theorem identifyCorrelation_cases {fresh : UUID} {h : Headers} {id source : GoString}
    (hid : identifyCorrelation U fresh h = (id, source)) (hs : source ≠ sourceSynthesized) :
    parseTraceparent U (trimSpace (h.get traceparentHeader)) = some id ∨
      ¬ Traced U h ∧ trimSpace (h.get requestIDHeader) = id ∧ id ≠ [] := by
  unfold identifyCorrelation at hid
  dsimp only at hid
  split at hid
  · case h_1 traceID ht =>
    obtain ⟨rfl, -⟩ := Prod.mk.inj hid
    split_ifs at ht
    exact Or.inl ht
  · case h_2 ht =>
    refine Or.inr ?_
    split_ifs at hid with hrid
    · exact absurd (Prod.mk.inj hid).2.symm hs
    · obtain ⟨rfl, -⟩ := Prod.mk.inj hid
      refine ⟨?_, rfl, hrid⟩
      rintro ⟨traceID, htrace⟩
      split_ifs at ht with htp
      · rw [htp] at htrace
        cases htrace
      · rw [htrace] at ht
        cases ht

/-- **When an echoed key links.** An event with the headers of a captured request and no key of
its own always has the request's key. An event that names the key has it, whatever its headers,
just when the request was traced or its `X-Request-ID` is at most 256 bytes of printable ASCII. -/
theorem deriveCorrelation_linked {fresh : UUID} {h : Headers} (hc : Canonical h)
    {id source : GoString} (hid : identifyCorrelation U fresh h = (id, source))
    (hs : source ≠ sourceSynthesized) :
    ((∀ (fresh' : UUID) (own : Headers), (deriveCorrelation U fresh' id own).1 = id) ↔
        Traced U h ∨ WithinLimits (trimSpace (h.get requestIDHeader))) ∧
      ∀ (fresh' : UUID) (blank : GoString), trimSpace blank = [] →
        deriveCorrelation U fresh' blank h = (id, source) := by
  -- the same headers give the same key: it does not depend on the identifier held ready
  have hecho : ∀ (fresh' : UUID) (blank : GoString), trimSpace blank = [] →
      deriveCorrelation U fresh' blank h = (id, source) := by
    intro fresh' blank hblank
    rw [deriveCorrelation, if_neg fun hcond => hcond.1 hblank,
      identifyCorrelation_congr U (get_toHTTPHeader hc _) (get_toHTTPHeader hc _), ← hid]
    unfold identifyCorrelation at hid ⊢
    dsimp only at hid ⊢
    split
    · rfl
    · case h_2 ht =>
      rw [ht] at hid
      split_ifs at hid ⊢
      · exact absurd (Prod.mk.inj hid).2.symm hs
      · rfl
  refine ⟨?_, hecho⟩
  rcases identifyCorrelation_cases U hid hs with ht | ⟨hno, hrid, hne⟩
  · -- a trace id is always within the limits
    obtain ⟨hlen, hdigits⟩ := parseTraceparent_ok U ht
    have hvisible : ∀ b ∈ id, 0x20 < b ∧ b ≤ 0x7E :=
      fun b hb => visible_of_isTraceDigit (hdigits b hb)
    have htrim : trimSpace id = id := by
      refine trimSpace_pad ⟨[], [], nofun, nofun, by simp⟩ fun b hb => ⟨(hvisible b hb).1, ?_⟩
      exact lt_of_le_of_lt (hvisible b hb).2 (by decide)
    have hne : id ≠ [] := fun he => by simp [he] at hlen
    refine iff_of_true ((deriveCorrelation_explicit U fresh hne htrim).2 ⟨?_, ?_⟩) (Or.inl ⟨id, ht⟩)
    · rw [hlen]
      decide
    · rw [isPrintableASCII, List.all_eq_true]
      intro b hb
      simpa using ⟨le_of_lt (hvisible b hb).1, (hvisible b hb).2⟩
  · have htrim : trimSpace id = id := by rw [← hrid, trimSpace_idem]
    rw [deriveCorrelation_explicit U fresh hne htrim, hrid]
    exact ⟨Or.inr, fun h => h.resolve_left hno⟩

/-- A UUID for examples. -/
def UUID.zero : UUID :=
  ⟨str "00000000-0000-0000-0000-000000000000", rfl, rfl⟩

/-- A short `X-Request-ID` links. -/
theorem deriveCorrelation_linked_short :
    (deriveCorrelation .asciiOnly UUID.zero (str "a1") none).1 = str "a1" :=
  (@deriveCorrelation_linked .asciiOnly UUID.zero
    (some ⟨[(str "X-Request-Id", some [str "a1"])], by decide⟩)
    (by decide) (str "a1") sourceRequestID rfl (by decide)).1.2 (Or.inr (by decide)) UUID.zero none

/-- An `X-Request-ID` of one letter that is not ASCII is a key on the capture port and none in an
event. -/
theorem deriveCorrelation_unlinked :
    identifyCorrelation .asciiOnly UUID.zero
      (some ⟨[(str "X-Request-Id", some [[0xC3, 0xA9]])], by decide⟩) =
        ([0xC3, 0xA9], sourceRequestID) ∧
      deriveCorrelation .asciiOnly UUID.zero [0xC3, 0xA9] none =
        (UUID.zero.text, sourceSynthesized) := by
  decide

end HttpCatch.Capture
