import HttpCatch.Library.HostPort
import HttpCatch.Library.LowerCase
import HttpCatch.Capture.Correlation

/-!
# Service labels

`internal/capture/service.go`: the label under which a record is filed. A captured request gets it
from the configured header or from its host, an event names it itself.

A label is checked first and put into lower case afterwards, which may make it longer: every byte
that is not part of a character becomes the three bytes of `U+FFFD`, and a few letters have a lower
case of more bytes. `CanonicalLabel` is what a label should be, `Accepts` what the check lets
through and `Fits` what it does not look at.

* `canonicalLabel_iff` — an accepted text gives a canonical label just when it fits.
-/

namespace HttpCatch.Capture

open HttpCatch.Go

/-- `DefaultServiceHeader`. -/
def defaultServiceHeader : GoString := str "X-Httpcatch-Service"

/-- `UnknownService`. -/
def unknownService : GoString := str "unknown"

/-- `ServiceSourceHeader`. -/
def serviceSourceHeader : GoString := str "header"

/-- `ServiceSourceHost`. -/
def serviceSourceHost : GoString := str "host"

/-- `ServiceSourceUnknown`. -/
def serviceSourceUnknown : GoString := str "unknown"

/-- `maxServiceLabelBytes`. -/
def maxServiceLabelBytes : ℕ := 256

/-- `r < 0x20 || r == 0x7f`, for the character of a piece. -/
def isControl : Piece → Bool
  | .ascii b => b < 0x20 || b == 0x7F
  | _ => false

variable (U : Unicode)

/-- `SanitiseServiceLabel`. -/
def sanitiseServiceLabel (s : GoString) : GoString :=
  let s := trimSpace s
  if s = [] ∨ maxServiceLabelBytes < s.length then []
  else if (pieces s).any isControl then []
  else toLower U s

/-- The host of the request without its port. -/
def hostLabel (headers : Headers) : GoString :=
  match splitHostPort (headers.get hostHeader) with
  | .ok (host, _) => host
  | .error _ => headers.get hostHeader

/-- The value of the configured header. -/
def headerLabel (headers : Headers) (configuredHeader : GoString) : GoString :=
  headers.get (if configuredHeader = [] then defaultServiceHeader else configuredHeader)

/-- `IdentifyService`: label and source. -/
def identifyService (headers : Headers) (configuredHeader : GoString) : GoString × GoString :=
  let raw := headerLabel headers configuredHeader
  if raw ≠ [] ∧ sanitiseServiceLabel U raw ≠ [] then
    (sanitiseServiceLabel U raw, serviceSourceHeader)
  else
    let host := sanitiseServiceLabel U (hostLabel headers)
    if host ≠ [] then (host, serviceSourceHost) else (unknownService, serviceSourceUnknown)

/-! ### What the check lets through -/

/-- The text passes the check. -/
def Accepts (s : GoString) : Prop :=
  trimSpace s ≠ [] ∧ (trimSpace s).length ≤ maxServiceLabelBytes ∧
    ∀ p ∈ pieces (trimSpace s), ¬ isControl p = true

instance (s : GoString) : Decidable (Accepts s) := inferInstanceAs (Decidable (_ ∧ _ ∧ _))

/-- The text is not too long in lower case either. -/
def Fits (s : GoString) : Prop :=
  ((trimSpace s).length : ℤ) + growth U (trimSpace s) ≤ maxServiceLabelBytes

instance (s : GoString) : Decidable (Fits U s) := inferInstanceAs (Decidable (_ ≤ _))

/-- A label that a record may carry. -/
structure CanonicalLabel (label : GoString) : Prop where
  nonempty : label ≠ []
  bounded : label.length ≤ 256
  /-- No byte of it is a control character. Those above `0x7F` are part of others. -/
  printable : ∀ b ∈ label, ¬ (b ≤ 0x1F ∨ b = 0x7F)
  fixed : sanitiseServiceLabel U label = label

variable {U : Unicode} {s : GoString}

theorem sanitiseServiceLabel_of_accepts (h : Accepts s) :
    sanitiseServiceLabel U s = toLower U (trimSpace s) := by
  obtain ⟨hne, hlen, hctl⟩ := h
  have hany : ¬ (pieces (trimSpace s)).any isControl = true := by
    rw [List.any_eq_true]
    rintro ⟨p, hp, hc⟩
    exact hctl p hp hc
  rw [sanitiseServiceLabel, if_neg (not_or.mpr ⟨hne, not_lt.mpr hlen⟩), if_neg hany]

theorem sanitiseServiceLabel_of_not_accepts (h : ¬ Accepts s) : sanitiseServiceLabel U s = [] := by
  rw [sanitiseServiceLabel]
  split_ifs with hlen hctl
  · rfl
  · rfl
  · obtain ⟨hne, hle⟩ := not_or.mp hlen
    refine absurd ⟨hne, not_lt.mp hle, ?_⟩ h
    intro p hp hc
    exact hctl (List.any_eq_true.mpr ⟨p, hp, hc⟩)

theorem toLower_ne_nil (hU : U.SimpleCase) (h : s ≠ []) : toLower U s ≠ [] := by
  intro hnil
  have hmap := pieces_toLower hU s
  rw [hnil] at hmap
  have hpieces : pieces s = [] := List.map_eq_nil_iff.mp hmap.symm
  rw [← pieces_flatten s, hpieces] at h
  exact h rfl

/-- A text is refused just when nothing is left of it. -/
theorem sanitiseServiceLabel_ne_nil (hU : U.SimpleCase) :
    sanitiseServiceLabel U s ≠ [] ↔ Accepts s := by
  constructor
  · intro h
    by_contra hno
    exact h (sanitiseServiceLabel_of_not_accepts hno)
  · intro h
    rw [sanitiseServiceLabel_of_accepts h]
    exact toLower_ne_nil hU h.1

/-! ### Lower case of an accepted text -/

theorem isControl_lowered (hU : U.SimpleCase) {p : Piece} (hp : p ∈ pieces s)
    (h : ¬ isControl p = true) : ¬ isControl (p.lowered U) = true := by
  have hletter : ∀ b : UInt8, 0x61 ≤ b → b ≤ 0x7A → ¬ isControl (.ascii b) = true := by
    intro b h₁ h₂
    simp only [isControl, Bool.or_eq_true, decide_eq_true_eq, beq_iff_eq,
      UInt8.le_iff_toNat_le, UInt8.lt_iff_toNat_lt, ← UInt8.toNat_inj, UInt8.reduceToNat] at h₁ h₂ ⊢
    omega
  cases p with
  | ascii b =>
    by_cases hc : 0x41 ≤ b && b ≤ 0x5A
    · have hl : lowerByte b = b + 0x20 := if_pos hc
      rw [Piece.lowered, hl]
      simp only [Bool.and_eq_true, decide_eq_true_eq, UInt8.le_iff_toNat_le,
        UInt8.reduceToNat] at hc
      apply hletter
      · rw [UInt8.le_iff_toNat_le, UInt8.toNat_add]
        simp only [UInt8.reduceToNat]
        omega
      · rw [UInt8.le_iff_toNat_le, UInt8.toNat_add]
        simp only [UInt8.reduceToNat]
        omega
    · have hl : lowerByte b = b := if_neg hc
      rwa [Piece.lowered, hl]
  | multi bs =>
    rcases lowered_multi hU (isChar_of_mem hp) with ⟨b, h₁, h₂, -, hb⟩ | ⟨-, -, hb⟩
    · rw [hb]
      exact hletter b h₁ h₂
    · rw [hb]
      exact Bool.false_ne_true
  | bad b => exact Bool.false_ne_true

/-- The label made of an accepted text passes the check again, but for its length. -/
theorem accepts_sanitise_iff (hU : U.SimpleCase) (h : Accepts s) :
    Accepts (sanitiseServiceLabel U s) ↔ Fits U s := by
  have htrim : trimSpace (toLower U (trimSpace s)) = toLower U (trimSpace s) :=
    trimSpace_toLower hU (trimSpace_idem s)
  have hlen : (toLower U (trimSpace s)).length ≤ maxServiceLabelBytes ↔ Fits U s := by
    rw [Fits, ← length_toLower]
    exact Nat.cast_le.symm
  rw [sanitiseServiceLabel_of_accepts h, Accepts, htrim, hlen]
  refine ⟨fun h' => h'.2.1, fun hfits => ⟨toLower_ne_nil hU h.1, hfits, ?_⟩⟩
  rw [pieces_toLower hU]
  intro q hq
  obtain ⟨p, hp, rfl⟩ := List.mem_map.mp hq
  exact isControl_lowered hU hp (h.2.2 p hp)

/-- **Checking a label again changes nothing just when the text fits**, or was refused at once. -/
theorem sanitise_idem_iff (hU : U.SimpleCase) (s : GoString) :
    sanitiseServiceLabel U (sanitiseServiceLabel U s) = sanitiseServiceLabel U s ↔
      (Accepts s → Fits U s) := by
  by_cases h : Accepts s
  · have hagain := accepts_sanitise_iff hU h
    constructor
    · intro heq _
      rw [← hagain, ← sanitiseServiceLabel_ne_nil hU, heq, sanitiseServiceLabel_ne_nil hU]
      exact h
    · intro hfits
      rw [sanitiseServiceLabel_of_accepts (hagain.mpr (hfits h)), sanitiseServiceLabel_of_accepts h,
        trimSpace_toLower hU (trimSpace_idem s), toLower_idem hU]
  · rw [sanitiseServiceLabel_of_not_accepts h]
    exact iff_of_true rfl fun h' => absurd h' h

/-- A byte below `0x80` is a character. -/
theorem ascii_mem_pieces {b : UInt8} (hb : b ∈ s) (hlt : b < 0x80) : .ascii b ∈ pieces s := by
  rw [← pieces_flatten s] at hb
  obtain ⟨p, hp, hbp⟩ := List.mem_flatMap.mp hb
  rwa [← eq_ascii_of_mem_bytes hp hbp hlt]

/-- **An accepted text gives a canonical label just when it fits.** -/
theorem canonicalLabel_iff (hU : U.SimpleCase) (h : Accepts s) :
    CanonicalLabel U (sanitiseServiceLabel U s) ↔ Fits U s := by
  constructor
  · intro hlabel
    exact (sanitise_idem_iff hU s).mp hlabel.fixed h
  · intro hfits
    have hagain := (accepts_sanitise_iff hU h).mpr hfits
    have htrim : trimSpace (sanitiseServiceLabel U s) = sanitiseServiceLabel U s := by
      rw [sanitiseServiceLabel_of_accepts h]
      exact trimSpace_toLower hU (trimSpace_idem s)
    rw [Accepts, htrim] at hagain
    obtain ⟨hne, hlen, hctl⟩ := hagain
    refine ⟨hne, hlen, ?_, (sanitise_idem_iff hU s).mpr fun _ => hfits⟩
    intro b hb hbad
    have hlt : b < 0x80 := by
      rcases hbad with hle | rfl
      · exact lt_of_le_of_lt hle (by decide)
      · decide
    have hcontrol : isControl (.ascii b) = true := by
      rcases hbad with hle | rfl
      · simp only [isControl, Bool.or_eq_true, decide_eq_true_eq]
        exact .inl (lt_of_le_of_lt hle (by decide))
      · rfl
    exact hctl _ (ascii_mem_pieces hb hlt) hcontrol

/-! ### Captured requests -/

theorem canonicalLabel_unknown : CanonicalLabel U unknownService where
  nonempty := List.cons_ne_nil _ _
  bounded := Nat.le_of_ble_eq_true rfl
  printable := by decide +kernel
  fixed := rfl

/-- **The label of a captured request is canonical just when the text it comes from fits**: the
header if that is accepted, else the host. -/
theorem identifyService_iff (hU : U.SimpleCase) (headers : Headers) (configuredHeader : GoString) :
    CanonicalLabel U (identifyService U headers configuredHeader).1 ↔
      if Accepts (headerLabel headers configuredHeader) then
        Fits U (headerLabel headers configuredHeader)
      else Accepts (hostLabel headers) → Fits U (hostLabel headers) := by
  have hne : Accepts (headerLabel headers configuredHeader) →
      headerLabel headers configuredHeader ≠ [] := by
    intro h heq
    rw [heq] at h
    exact h.1 rfl
  by_cases hheader : Accepts (headerLabel headers configuredHeader)
  · rw [identifyService, if_pos ⟨hne hheader, (sanitiseServiceLabel_ne_nil hU).mpr hheader⟩,
      if_pos hheader]
    exact canonicalLabel_iff hU hheader
  · rw [identifyService, if_neg fun h => hheader ((sanitiseServiceLabel_ne_nil hU).mp h.2),
      if_neg hheader]
    by_cases hhost : Accepts (hostLabel headers)
    · rw [if_pos ((sanitiseServiceLabel_ne_nil hU).mpr hhost), forall_prop_of_true hhost]
      exact canonicalLabel_iff hU hhost
    · rw [if_neg (mt (sanitiseServiceLabel_ne_nil hU).mp hhost)]
      exact iff_of_true canonicalLabel_unknown fun h => absurd h hhost

end HttpCatch.Capture
