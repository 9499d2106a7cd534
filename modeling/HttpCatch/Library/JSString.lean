import Mathlib.Data.List.DropRight
import Mathlib.Data.List.Infix
import Mathlib.Data.Nat.Notation

/-!
# JavaScript strings

A string of JavaScript is a list of 16-bit code units. The functions here are those of
`String.prototype` that look at single units or search for a text; where a function of the language
returns `-1`, these return `none`.

* `solid` — a string without its white space, and what the functions leave of it.
-/

namespace HttpCatch.JS

/-- A string: its code units. -/
abbrev JSString := List UInt16

/-- A string literal. -/
def js (s : String) : JSString := s.toList.map fun c => c.toNat.toUInt16

/-- White space and line terminators: what `trim` takes off and `\s` matches. -/
def isSpace (c : UInt16) : Bool :=
  (0x09 ≤ c && c ≤ 0x0D) || c == 0x20 || c == 0xA0 || c == 0x1680 || (0x2000 ≤ c && c ≤ 0x200A) ||
    c == 0x2028 || c == 0x2029 || c == 0x202F || c == 0x205F || c == 0x3000 || c == 0xFEFF

/-- `s.trim()`. -/
def trim (s : JSString) : JSString := (s.dropWhile isSpace).rdropWhile isSpace

/-- `s.indexOf(pat)`. -/
def indexOf (pat : JSString) : JSString → Option ℕ
  | [] => if pat = [] then some 0 else none
  | c :: s => if pat <+: c :: s then some 0 else (indexOf pat s).map (· + 1)

/-- `parts.join(sep)`. -/
def join (sep : JSString) (parts : List JSString) : JSString := sep.intercalate parts

/-- The names of the properties that every object inherits from `Object.prototype`. -/
def prototypeNames : List String :=
  ["constructor", "__proto__", "hasOwnProperty", "isPrototypeOf", "propertyIsEnumerable",
    "toLocaleString", "toString", "valueOf", "__defineGetter__", "__defineSetter__",
    "__lookupGetter__", "__lookupSetter__"]

/-- The object literal whose keys are `keys` has a truthy value under `key`: its own, or one that it
inherits. -/
def truthyAt (keys : List JSString) (key : JSString) : Bool :=
  key ∈ keys || key ∈ prototypeNames.map js

/-! ### White space -/

/-- The string without its white space. -/
def solid (s : JSString) : JSString := s.filter fun c => !isSpace c

@[simp] theorem solid_append (s t : JSString) : solid (s ++ t) = solid s ++ solid t :=
  List.filter_append s t

theorem solid_eq_nil {s : JSString} (h : ∀ c ∈ s, isSpace c = true) : solid s = [] := by
  rw [solid, List.filter_eq_nil_iff]
  intro c hc
  simp [h c hc]

theorem solid_dropWhile (s : JSString) : solid (s.dropWhile isSpace) = solid s := by
  have hsplit : solid s = solid (s.takeWhile isSpace) ++ solid (s.dropWhile isSpace) := by
    rw [← solid_append, List.takeWhile_append_dropWhile]
  rw [hsplit, solid_eq_nil fun c hc => List.mem_takeWhile_imp hc, List.nil_append]

theorem solid_reverse (s : JSString) : solid s.reverse = (solid s).reverse := List.filter_reverse

/-- Trimming takes white space only. -/
@[simp] theorem solid_trim (s : JSString) : solid (trim s) = solid s := by
  rw [trim, List.rdropWhile, solid_reverse, solid_dropWhile, solid_reverse, List.reverse_reverse,
    solid_dropWhile]

/-- Joining with white space adds white space only. -/
theorem solid_join {sep : JSString} (h : solid sep = []) (parts : List JSString) :
    solid (join sep parts) = solid parts.flatten := by
  induction parts with
  | nil => rfl
  | cons p parts ih =>
    cases parts with
    | nil => simp [join]
    | cons q parts =>
      have hjoin : join sep (p :: q :: parts) = p ++ sep ++ join sep (q :: parts) := by
        simp [join, List.intercalate_cons_cons]
      rw [hjoin, solid_append, solid_append, h, List.append_nil, ih, ← solid_append,
        ← List.flatten_cons]

/-! ### Searching -/

/-- The length of the text up to and with the first `pat` that starts at `start` or later, or of the
whole text where there is none. -/
def endOf (pat : JSString) (start : ℕ) (s : JSString) : ℕ :=
  match indexOf pat (s.drop start) with
  | none => s.length
  | some k => start + k + pat.length

theorem endOf_pos {pat s : JSString} (hpat : pat ≠ []) (hs : s ≠ []) (start : ℕ) :
    0 < endOf pat start s := by
  have hp := List.length_pos_iff.mpr hpat
  have hl := List.length_pos_iff.mpr hs
  rw [endOf]
  split <;> omega

end HttpCatch.JS
