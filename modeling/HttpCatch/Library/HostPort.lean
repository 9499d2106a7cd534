import HttpCatch.Library.GoString

/-!
# Addresses of hosts

`net.SplitHostPort`: `host:port`, or `[host]:port` for a host with colons in it.
`splitHostPort_text` says that what it accepts has one of these two forms.
-/

namespace HttpCatch.Go

/-- The reasons of an `net.AddrError` of `SplitHostPort`. -/
inductive AddrError where
  /-- `missing port in address`. -/
  | missingPort
  /-- `too many colons in address`. -/
  | tooManyColons
  /-- `missing ']' in address`. -/
  | missingBracket
  /-- `unexpected '[' in address`. -/
  | unexpectedOpen
  /-- `unexpected ']' in address`. -/
  | unexpectedClose
  deriving DecidableEq

/-- `strings.LastIndexByte`. -/
def lastIndexByte (s : GoString) (b : UInt8) : Option ℕ :=
  (indexByte s.reverse b).map fun i => s.length - 1 - i

/-- The end of `SplitHostPort`: no brackets from `j` and `k` on. -/
def checkBrackets (hostport host : GoString) (i j k : ℕ) : Except AddrError (GoString × GoString) :=
  if 0x5B ∈ hostport.drop j then .error .unexpectedOpen
  else if 0x5D ∈ hostport.drop k then .error .unexpectedClose
  else .ok (host, hostport.drop (i + 1))

/-- `net.SplitHostPort`. -/
def splitHostPort (hostport : GoString) : Except AddrError (GoString × GoString) :=
  match lastIndexByte hostport 0x3A with
  | none => .error .missingPort
  | some i =>
    if hostport.head? = some 0x5B then
      match indexByte hostport 0x5D with
      | none => .error .missingBracket
      | some fin =>
        if fin + 1 = hostport.length then .error .missingPort
        else if fin + 1 = i then checkBrackets hostport ((hostport.take fin).drop 1) i 1 (fin + 1)
        else if hostport[fin + 1]? = some 0x3A then .error .tooManyColons
        else .error .missingPort
    else if 0x3A ∈ hostport.take i then .error .tooManyColons
    else checkBrackets hostport (hostport.take i) i 0 0

variable {s : GoString} {b : UInt8} {i : ℕ}

theorem lastIndexByte_get (h : lastIndexByte s b = some i) : s[i]? = some b := by
  obtain ⟨j, hj, rfl⟩ := Option.map_eq_some_iff.mp h
  obtain ⟨hlt, hb, -⟩ := List.findIdx?_eq_some_iff_getElem.mp hj
  have hlen : j < s.length := by simpa using hlt
  rw [List.getElem_reverse] at hb
  rw [List.getElem?_eq_getElem (by omega), beq_iff_eq.mp hb]

theorem indexByte_get (h : indexByte s b = some i) : s[i]? = some b := by
  obtain ⟨hlt, hb, -⟩ := List.findIdx?_eq_some_iff_getElem.mp h
  rw [List.getElem?_eq_getElem hlt, beq_iff_eq.mp hb]

theorem drop_of_get (h : s[i]? = some b) : s.drop i = b :: s.drop (i + 1) := by
  obtain ⟨hlt, hb⟩ := List.getElem?_eq_some_iff.mp h
  rw [List.drop_eq_getElem_cons hlt, hb]

theorem checkBrackets_ok {hostport host : GoString} {j k : ℕ} {r : GoString × GoString}
    (h : checkBrackets hostport host i j k = .ok r) : r = (host, hostport.drop (i + 1)) := by
  rw [checkBrackets] at h
  split_ifs at h
  exact (Except.ok.inj h).symm

/-- **What `SplitHostPort` accepts** is a host, a colon and a port; the host may be in brackets. -/
theorem splitHostPort_text {hostport host port : GoString}
    (h : splitHostPort hostport = .ok (host, port)) :
    hostport = host ++ 0x3A :: port ∨ hostport = 0x5B :: (host ++ 0x5D :: 0x3A :: port) := by
  rw [splitHostPort] at h
  split at h
  · cases h
  · rename_i i hi
    have hcolon := lastIndexByte_get hi
    split_ifs at h with hopen hmany
    · -- in brackets: the bracket is closed just before the colon
      split at h
      · cases h
      · rename_i fin hfin
        split_ifs at h with h₁ h₂ h₃
        cases checkBrackets_ok h
        right
        subst h₂
        obtain ⟨rest, rfl⟩ := List.head?_eq_some_iff.mp hopen
        have hclose := indexByte_get hfin
        cases fin with
        | zero => simp at hclose
        | succ n =>
          rw [List.getElem?_cons_succ] at hclose hcolon
          have hsplit : rest = rest.take n ++ 0x5D :: 0x3A :: rest.drop (n + 2) := by
            conv_lhs => rw [← List.take_append_drop n rest, drop_of_get hclose, drop_of_get hcolon]
          conv_lhs => rw [hsplit]
          rfl
    · cases checkBrackets_ok h
      left
      conv_lhs => rw [← List.take_append_drop i hostport, drop_of_get hcolon]

end HttpCatch.Go
