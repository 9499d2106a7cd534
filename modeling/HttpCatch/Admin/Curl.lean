import HttpCatch.Library.Base64
import HttpCatch.Library.Shell

/-!
# Copy as cURL

`initCurlCopy` in `internal/admin/ui/app.js` puts a shell command on the clipboard that repeats a
captured request. Method, path, headers and body are what a client sent, so that they may hold any
character that means something to a shell; each of them is put in single quotes, and the single
quotes in it are taken out, escaped, of these (`shellEscape`).

* `curl_words` — the shell reads the command as the words it was made of, whatever they are.
-/

namespace HttpCatch.Admin

open HttpCatch.JS HttpCatch.Shell

/-! ### The body -/

/-- `ASCII whitespace`, which `atob` passes over. -/
def isAsciiWhitespace (c : UInt16) : Bool :=
  c == 0x09 || c == 0x0A || c == 0x0C || c == 0x0D || c == 0x20

/-- One or two `=` at the end of a text. -/
def dropPadding (s : JSString) : JSString :=
  if js "==" <:+ s then s.dropLast.dropLast else if js "=" <:+ s then s.dropLast else s

/-- The value of a symbol of the alphabet of base64. -/
def symbolValue (c : UInt16) : Option ℕ := if c < 0x80 then Go.Base64.value c.toUInt8 else none

/-- The bytes of groups of four values, the last of which may have two or three. -/
def bytesOf : List ℕ → Option (List UInt8)
  | [] => some []
  | [_] => none
  | [a, b] => some [Go.Base64.byte₁ a b]
  | [a, b, c] => some [Go.Base64.byte₁ a b, Go.Base64.byte₂ b c]
  | a :: b :: c :: d :: s =>
    (bytesOf s).map ([Go.Base64.byte₁ a b, Go.Base64.byte₂ b c, Go.Base64.byte₃ c d] ++ ·)

/-- `atob`: a string of the bytes; `none` when it throws. -/
def atob (s : JSString) : Option JSString := do
  let s := s.filter fun c => !isAsciiWhitespace c
  let values ← (if s.length % 4 = 0 then dropPadding s else s).mapM symbolValue
  let bytes ← bytesOf values
  return bytes.map fun b => b.toUInt16

/-! ### The command -/

/-- `shellEscape`. -/
def shellEscape (s : JSString) : JSString :=
  js "'" ++ s.flatMap (fun c => if c = 0x27 then js "'\\''" else [c]) ++ js "'"

/-- `value || fallback`, for a string that may be `null`. -/
def orElse (value : Option JSString) (fallback : JSString) : JSString :=
  match value with
  | none => fallback
  | some [] => fallback
  | some s => s

/-- The attributes of the button. -/
structure CurlButton where
  /-- `data-method`. -/
  method : Option JSString
  /-- `data-path`. -/
  path : Option JSString
  /-- The object in `data-headers`, in the order of `Object.keys`; `none` is no array. -/
  headers : List (JSString × Option (List JSString))
  /-- `data-body`. -/
  body : Option JSString

namespace CurlButton

variable (btn : CurlButton)

/-- The body of the request. -/
def bodyText : JSString :=
  match orElse btn.body [] with
  | [] => []
  | bodyB64 => (atob bodyB64).getD []

/-- The header lines. -/
def headerLines : List JSString :=
  btn.headers.flatMap fun h => (h.2.getD []).map fun v => h.1 ++ js ": " ++ v

/-- The `parts` of the command. -/
def parts : List JSString :=
  [js "curl", js "-X", shellEscape (orElse btn.method (js "GET"))] ++
    (btn.headerLines.flatMap fun line => [js "-H", shellEscape line]) ++
    (if btn.bodyText = [] then [] else [js "--data-raw", shellEscape btn.bodyText]) ++
    [shellEscape (orElse btn.path (js "/"))]

/-- The text on the clipboard. -/
def command : JSString := join (js " ") btn.parts

/-- The words that the command is meant to have. -/
def words : List JSString :=
  [js "curl", js "-X", orElse btn.method (js "GET")] ++
    (btn.headerLines.flatMap fun line => [js "-H", line]) ++
    (if btn.bodyText = [] then [] else [js "--data-raw", btn.bodyText]) ++
    [orElse btn.path (js "/")]

end CurlButton

/-! ### The words of the command -/

/-- Inside single quotes, each escaped character is read back. -/
theorem wordsFrom_escaped (s acc rest : JSString) :
    wordsFrom .single (some acc)
        (s.flatMap (fun c => if c = 0x27 then js "'\\''" else [c]) ++ (js "'" ++ rest)) =
      wordsFrom .none (some (acc ++ s)) rest := by
  induction s generalizing acc with
  | nil =>
    rw [List.flatMap_nil, List.append_nil]
    rfl
  | cons c s ih =>
    have happ : acc ++ c :: s = (acc ++ [c]) ++ s := List.append_cons acc c s
    rw [List.flatMap_cons, List.append_assoc, happ, ← ih (acc ++ [c])]
    by_cases hc : c = 0x27
    · -- the quotes are closed, the character is escaped, and they are opened again
      subst hc
      rfl
    · rw [if_neg hc]
      simp [wordsFrom, hc]

theorem reads_shellEscape (s : JSString) : Reads (shellEscape s) s := by
  intro word rest
  have hopen : ∀ t, wordsFrom .none word (js "'" ++ t) =
      wordsFrom .single (some (word.getD [])) t := fun _ => rfl
  rw [shellEscape, List.append_assoc, List.append_assoc, hopen, wordsFrom_escaped]

/-- The words that stand unquoted. -/
theorem reads_fixed : ∀ w ∈ [js "curl", js "-X", js "-H", js "--data-raw"], Reads w w := by
  have hall : ∀ w ∈ [js "curl", js "-X", js "-H", js "--data-raw"],
      w ≠ [] ∧ w.all isPlain = true := by
    decide +kernel
  exact fun w hw => reads_plain (hall w hw).1 (hall w hw).2

theorem reads_parts (btn : CurlButton) : List.Forall₂ Reads btn.parts btn.words := by
  obtain ⟨hcurl, hX, hH, hdata⟩ : Reads (js "curl") (js "curl") ∧ Reads (js "-X") (js "-X") ∧
      Reads (js "-H") (js "-H") ∧ Reads (js "--data-raw") (js "--data-raw") := by
    simpa using reads_fixed
  have hlines : List.Forall₂ Reads
      (btn.headerLines.flatMap fun line => [js "-H", shellEscape line])
      (btn.headerLines.flatMap fun line => [js "-H", line]) := by
    induction btn.headerLines with
    | nil => exact .nil
    | cons line lines ih => exact .cons hH (.cons (reads_shellEscape line) ih)
  have hbody : List.Forall₂ Reads
      (if btn.bodyText = [] then [] else [js "--data-raw", shellEscape btn.bodyText])
      (if btn.bodyText = [] then [] else [js "--data-raw", btn.bodyText]) := by
    split_ifs
    · exact .nil
    · exact .cons hdata (.cons (reads_shellEscape _) .nil)
  have hstart : List.Forall₂ Reads
      [js "curl", js "-X", shellEscape (orElse btn.method (js "GET"))]
      [js "curl", js "-X", orElse btn.method (js "GET")] :=
    .cons hcurl (.cons hX (.cons (reads_shellEscape _) .nil))
  exact List.rel_append (List.rel_append (List.rel_append hstart hlines) hbody)
    (.cons (reads_shellEscape _) .nil)

/-- **The command cannot be broken out of.** The shell splits it into `curl`, `-X`, the method, `-H`
and a line for each value of each header, `--data-raw` and the body if there is one, and the path,
without any operator or expansion. -/
theorem curl_words (btn : CurlButton) : shellWords btn.command = some btn.words :=
  shellWords_join (reads_parts btn)

/-- A path that closes the quotes and goes on with a command. -/
example : (CurlButton.mk none (some (js "/'; rm x")) [] none).command =
    js "curl -X 'GET' '/'\\''; rm x'" := by
  decide +kernel

end HttpCatch.Admin
