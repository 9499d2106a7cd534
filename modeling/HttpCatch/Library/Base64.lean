import HttpCatch.Library.GoString

/-!
# Base64

`base64.StdEncoding`: three bytes are four symbols, and what is left over at the end is padded.
The decoder passes over line ends. `decodeString_encode` is the round trip.
-/

namespace HttpCatch.Go.Base64

/-- The symbols, in the order of their values. -/
def alphabet : GoString := str "ABCDEFGHIJKLMNOPQRSTUVWXYZabcdefghijklmnopqrstuvwxyz0123456789+/"

/-- The symbol of a value below 64. -/
def symbol (n : ℕ) : UInt8 := alphabet.getD n 0

/-- The value of a symbol. -/
def value (b : UInt8) : Option ℕ := indexByte alphabet b

/-- `=`. -/
def pad : UInt8 := 0x3D

/-- `StdEncoding.EncodeToString`. -/
def encode : GoString → GoString
  | [] => []
  | [a] => [symbol (a.toNat / 4), symbol (a.toNat % 4 * 16), pad, pad]
  | [a, b] =>
    [symbol (a.toNat / 4), symbol (a.toNat % 4 * 16 + b.toNat / 16), symbol (b.toNat % 16 * 4), pad]
  | a :: b :: c :: s =>
    symbol (a.toNat / 4) :: symbol (a.toNat % 4 * 16 + b.toNat / 16) ::
      symbol (b.toNat % 16 * 4 + c.toNat / 64) ::
      symbol (c.toNat % 64) :: encode s

/-- The three bytes of four values. -/
def byte₁ (a b : ℕ) : UInt8 := UInt8.ofNat (a * 4 + b / 16)

@[inherit_doc byte₁] def byte₂ (b c : ℕ) : UInt8 := UInt8.ofNat (b % 16 * 16 + c / 4)

@[inherit_doc byte₁] def byte₃ (c d : ℕ) : UInt8 := UInt8.ofNat (c % 4 * 64 + d)

/-- The groups of four symbols; only the last one may be padded. -/
def decodeGroups : GoString → Option GoString
  | [] => some []
  | a :: b :: c :: d :: s => do
    let a ← value a
    let b ← value b
    if c = pad then
      if d = pad ∧ s = [] then some [byte₁ a b] else none
    else
      let c ← value c
      if d = pad then
        if s = [] then some [byte₁ a b, byte₂ b c] else none
      else
        let d ← value d
        let rest ← decodeGroups s
        some (byte₁ a b :: byte₂ b c :: byte₃ c d :: rest)
  | _ => none

/-- `StdEncoding.DecodeString`; none is a `CorruptInputError`. -/
def decodeString (s : GoString) : Option GoString :=
  decodeGroups (s.filter fun b => b ≠ 0x0A && b ≠ 0x0D)

/-! ### The round trip -/

theorem value_symbol {n : ℕ} (h : n < 64) : value (symbol n) = some n := by
  have hall : ∀ n : Fin 64, value (symbol n) = some n.val := by decide +kernel
  exact hall ⟨n, h⟩

/-- No symbol is the padding or a line end. -/
theorem symbol_ne {n : ℕ} (h : n < 64) : symbol n ≠ pad ∧ symbol n ≠ 0x0A ∧ symbol n ≠ 0x0D := by
  have hall : ∀ n : Fin 64, symbol n ≠ pad ∧ symbol n ≠ 0x0A ∧ symbol n ≠ 0x0D := by decide +kernel
  exact hall ⟨n, h⟩

theorem byte₁_eq (a : UInt8) {n : ℕ} (hn : n < 16) :
    byte₁ (a.toNat / 4) (a.toNat % 4 * 16 + n) = a := by
  rw [byte₁, show a.toNat / 4 * 4 + (a.toNat % 4 * 16 + n) / 16 = a.toNat by omega,
    UInt8.ofNat_toNat]

theorem byte₂_eq (b : UInt8) {m n : ℕ} (hn : n < 4) :
    byte₂ (m * 16 + b.toNat / 16) (b.toNat % 16 * 4 + n) = b := by
  have hb := b.toNat_lt
  rw [byte₂, show (m * 16 + b.toNat / 16) % 16 * 16 + (b.toNat % 16 * 4 + n) / 4 = b.toNat by omega,
    UInt8.ofNat_toNat]

theorem byte₃_eq (c : UInt8) {m : ℕ} : byte₃ (m * 4 + c.toNat / 64) (c.toNat % 64) = c := by
  have hc := c.toNat_lt
  rw [byte₃, show (m * 4 + c.toNat / 64) % 4 * 64 + c.toNat % 64 = c.toNat by omega,
    UInt8.ofNat_toNat]

theorem decodeGroups_encode (s : GoString) : decodeGroups (encode s) = some s := by
  fun_induction encode s with
  | case1 => rfl
  | case2 a =>
    have ha := a.toNat_lt
    have h₁ : a.toNat / 4 < 64 := by omega
    have h₂ : a.toNat % 4 * 16 < 64 := by omega
    simpa [decodeGroups, value_symbol h₁, value_symbol h₂] using byte₁_eq a (show 0 < 16 by decide)
  | case3 a b =>
    have ha := a.toNat_lt
    have hb := b.toNat_lt
    have h₁ : a.toNat / 4 < 64 := by omega
    have h₂ : a.toNat % 4 * 16 + b.toNat / 16 < 64 := by omega
    have h₃ : b.toNat % 16 * 4 < 64 := by omega
    have hb₂ : byte₂ (a.toNat % 4 * 16 + b.toNat / 16) (b.toNat % 16 * 4) = b :=
      byte₂_eq b (show 0 < 4 by decide)
    simp [decodeGroups, value_symbol h₁, value_symbol h₂, value_symbol h₃, (symbol_ne h₃).1,
      byte₁_eq a (show b.toNat / 16 < 16 by omega), hb₂]
  | case4 a b c s ih =>
    have ha := a.toNat_lt
    have hb := b.toNat_lt
    have hc := c.toNat_lt
    have h₁ : a.toNat / 4 < 64 := by omega
    have h₂ : a.toNat % 4 * 16 + b.toNat / 16 < 64 := by omega
    have h₃ : b.toNat % 16 * 4 + c.toNat / 64 < 64 := by omega
    have h₄ : c.toNat % 64 < 64 := by omega
    simp [decodeGroups, value_symbol h₁, value_symbol h₂, value_symbol h₃, value_symbol h₄,
      (symbol_ne h₃).1, (symbol_ne h₄).1, ih, byte₁_eq a (show b.toNat / 16 < 16 by omega),
      byte₂_eq b (show c.toNat / 64 < 4 by omega), byte₃_eq c]

/-- The encoder makes no line ends. -/
theorem encode_lines (s : GoString) : ∀ b ∈ encode s, b ≠ 0x0A ∧ b ≠ 0x0D := by
  have hsym : ∀ n, n < 64 → symbol n ≠ 0x0A ∧ symbol n ≠ 0x0D := fun n h => (symbol_ne h).2
  have hpad : pad ≠ 0x0A ∧ pad ≠ 0x0D := by decide
  fun_induction encode s with
  | case1 => simp
  | case2 a =>
    have ha := a.toNat_lt
    simp only [List.forall_mem_cons, List.not_mem_nil, false_imp_iff, implies_true, and_true]
    exact ⟨hsym _ (by omega), hsym _ (by omega), hpad, hpad⟩
  | case3 a b =>
    have ha := a.toNat_lt
    have hb := b.toNat_lt
    simp only [List.forall_mem_cons, List.not_mem_nil, false_imp_iff, implies_true, and_true]
    exact ⟨hsym _ (by omega), hsym _ (by omega), hsym _ (by omega), hpad⟩
  | case4 a b c s ih =>
    have ha := a.toNat_lt
    have hb := b.toNat_lt
    have hc := c.toNat_lt
    simp only [List.forall_mem_cons]
    exact ⟨hsym _ (by omega), hsym _ (by omega), hsym _ (by omega), hsym _ (by omega), ih⟩

/-- **What was encoded is decoded again.** -/
theorem decodeString_encode (s : GoString) : decodeString (encode s) = some s := by
  rw [decodeString, List.filter_eq_self.mpr, decodeGroups_encode]
  intro b hb
  simpa using encode_lines s b hb

end HttpCatch.Go.Base64
