import HttpCatch.Library.UrlEncoded
import HttpCatch.Redact.Uniform

/-!
# The query of a request

What a browser writes into a URL with `URLSearchParams`, the server reads with `url.ParseQuery`.
The reader drops what it cannot read; the writer escapes all that it could drop.

* `urlQuery_serialize` — the parameters that a browser writes are those that the server reads, byte
  for byte.
-/

namespace HttpCatch.Admin

open HttpCatch.Go HttpCatch.Url HttpCatch.Redact

/-- `r.URL.Query()`: the parameters of a raw query in their order. -/
def urlQuery (rawQuery : GoString) : List (GoString × GoString) :=
  (split rawQuery 0x26).filterMap parseParam

/-! ### Bytes -/

theorem queryUnescape_plain {b : UInt8} (hpercent : b ≠ 0x25) (hplus : b ≠ 0x2B) (s : GoString) :
    queryUnescape (b :: s) = (queryUnescape s).map (b :: ·) := by
  rw [queryUnescape, if_neg hpercent, if_neg hplus]
  rintro a c t rfl
  exact absurd rfl hpercent

theorem queryUnescape_plus (s : GoString) :
    queryUnescape (0x2B :: s) = (queryUnescape s).map (0x20 :: ·) := by
  rw [queryUnescape, if_neg (by decide), if_pos rfl]
  rintro a c t ⟨⟩

theorem unhex_upperHex {n : UInt8} (h : n < 16) : unhex (upperHex n) = some n := by
  obtain ⟨-, hdigit, hval⟩ := upperHex_spec h
  rw [isHexDigit] at hdigit
  rw [hexValue] at hval
  rw [unhex]
  grind

theorem queryUnescape_percent (b : UInt8) (s : GoString) :
    queryUnescape (0x25 :: upperHex (b / 16) :: upperHex (b % 16) :: s) =
      (queryUnescape s).map (b :: ·) := by
  obtain ⟨hlt₁, hlt₂, hval⟩ := nibbles b
  rw [queryUnescape, unhex_upperHex hlt₁, unhex_upperHex hlt₂]
  simp only [Option.bind_eq_bind, Option.bind_some, Option.pure_def]
  rw [show b / 16 * 16 + b % 16 = b by rw [UInt8.mul_comm, hval]]
  cases queryUnescape s <;> rfl

theorem queryUnescape_encodeByte (b : UInt8) (s : GoString) :
    queryUnescape (encodeByte b ++ s) = (queryUnescape s).map (b :: ·) := by
  rw [encodeByte]
  split_ifs with hb hspace
  · obtain ⟨hplus, hpercent, -⟩ := isFormByte_plain hb
    refine queryUnescape_plain hpercent ?_ s
    rintro rfl
    exact absurd hplus (by decide)
  · rw [hspace]
    exact queryUnescape_plus s
  · exact queryUnescape_percent b s

/-- What the browser escapes. -/
theorem queryUnescape_encode (s : GoString) : queryUnescape (encode s) = some s := by
  induction s with
  | nil => rfl
  | cons b s ih =>
    rw [encode, List.flatMap_cons, queryUnescape_encodeByte, ← encode, ih, Option.map_some]

/-! ### Parameters -/

/-- A semicolon is escaped, so that the reader does not drop the parameter for one. -/
theorem semicolon_not_mem_encode (s : GoString) : (0x3B : UInt8) ∉ encode s := by
  have hform : ∀ {b : UInt8}, isFormByte b = true → 0x3B ≠ b := by
    rintro b h rfl
    exact absurd h (by decide)
  intro hmem
  obtain ⟨b, -, hb⟩ := List.mem_flatMap.1 hmem
  obtain ⟨hlt₁, hlt₂, -⟩ := nibbles b
  rw [encodeByte] at hb
  split_ifs at hb with hb' hspace
  · exact hform hb' (List.mem_singleton.1 hb)
  · exact absurd (List.mem_singleton.1 hb) (by decide)
  · simp only [List.mem_cons, List.not_mem_nil, or_false] at hb
    rcases hb with hb | hb | hb
    · exact absurd hb (by decide)
    · exact hform (upperHex_spec hlt₁).1 hb
    · exact hform (upperHex_spec hlt₂).1 hb

theorem parseParam_serializeEntry (entry : GoString × GoString) :
    parseParam (serializeEntry entry) = some entry := by
  have hfree : (0x3D : UInt8) ∉ encode entry.1 := not_mem_encode (by decide) _
  have hsemi : (0x3B : UInt8) ∉ serializeEntry entry := by
    rw [serializeEntry, List.mem_append, List.mem_cons]
    rintro (h | h | h)
    · exact semicolon_not_mem_encode _ h
    · exact absurd h (by decide)
    · exact semicolon_not_mem_encode _ h
  have hskip : ¬ (serializeEntry entry = [] ∨ (serializeEntry entry).contains 0x3B) := by
    simp [serializeEntry] at hsemi ⊢
    exact hsemi
  rw [parseParam, if_neg hskip, serializeEntry, before_append_of_not_mem hfree, before_cons_self,
    List.append_nil, afterByte_append hfree, queryUnescape_encode, queryUnescape_encode]
  rfl

/-- **What a browser writes is what the server reads.** -/
theorem urlQuery_serialize (entries : List (GoString × GoString)) :
    urlQuery (serialize entries) = entries := by
  cases entries with
  | nil => rfl
  | cons entry entries =>
    rw [urlQuery, split_serialize (List.cons_ne_nil _ _), List.filterMap_map]
    have hall : parseParam ∘ serializeEntry = some := funext parseParam_serializeEntry
    rw [hall, List.filterMap_some]

end HttpCatch.Admin
