import HttpCatch.Library.JSString

/-!
# Shell words

How a POSIX shell splits a command into words, for commands that are words and nothing else. Blanks
separate words; a backslash keeps the next character, single quotes keep everything up to the next
single quote, and double quotes keep all but `$`, the backquote and some uses of the backslash; the
quotes themselves go. A character that would start an operator, a comment or an expansion is
`active`, and a command that has one outside quotes is no list of words.

* `Reads` — a piece of text is read as a part of a word, whatever comes after it.
* `shellWords_join` — pieces that are read as words, joined by spaces, are split into these words.
-/

namespace HttpCatch.Shell

open HttpCatch.JS

/-- Which quotes are open. -/
inductive Quoting where
  | none
  | single
  | double
  deriving DecidableEq

/-- Space or tab. -/
def isBlank (c : UInt16) : Bool := c == 0x20 || c == 0x09

/-- The characters that mean more than themselves outside quotes: those of operators and newline,
expansions, patterns, comments and assignments. -/
def active (c : UInt16) : Bool :=
  -- newline, then the rest in the order of their codes
  c == 0x0A || c == 0x21 || (0x23 ≤ c && c ≤ 0x26) || (0x28 ≤ c && c ≤ 0x2A) || c == 0x2C ||
    (0x3B ≤ c && c ≤ 0x3F) || c == 0x5B || c == 0x5D || c == 0x5E || c == 0x60 ||
    (0x7B ≤ c && c ≤ 0x7E)

/-- A character that stands for itself outside quotes. -/
def isPlain (c : UInt16) : Bool :=
  !isBlank c && !active c && c != 0x27 && c != 0x22 && c != 0x5C

/-- The characters that a backslash keeps inside double quotes. -/
def keptInDouble (c : UInt16) : Bool := c == 0x24 || c == 0x60 || c == 0x22 || c == 0x5C

/-- The words of a text, where `word` is what was read of the current one. -/
def wordsFrom : Quoting → Option JSString → JSString → Option (List JSString)
  | .none, word, [] => some word.toList
  | .single, _, [] => none
  | .double, _, [] => none
  | .none, word, 0x5C :: c :: s =>
    -- a backslash before a newline joins two lines
    if c = 0x0A then wordsFrom .none word s else wordsFrom .none (some (word.getD [] ++ [c])) s
  | .none, _, [0x5C] => none
  | .none, word, c :: s =>
    if isBlank c then (wordsFrom .none none s).map (word.toList ++ ·)
    else if c = 0x27 then wordsFrom .single (some (word.getD [])) s
    else if c = 0x22 then wordsFrom .double (some (word.getD [])) s
    else if active c then none
    else wordsFrom .none (some (word.getD [] ++ [c])) s
  | .single, word, c :: s =>
    if c = 0x27 then wordsFrom .none word s
    else wordsFrom .single (some (word.getD [] ++ [c])) s
  | .double, word, 0x5C :: c :: s =>
    if c = 0x0A then wordsFrom .double word s
    else if keptInDouble c then wordsFrom .double (some (word.getD [] ++ [c])) s
    else wordsFrom .double (some (word.getD [] ++ [0x5C, c])) s
  | .double, word, c :: s =>
    if c = 0x22 then wordsFrom .none word s
    else if c = 0x24 ∨ c = 0x60 then none
    else wordsFrom .double (some (word.getD [] ++ [c])) s

/-- The words of a command; `none` when it has an operator, an expansion or an open quote. -/
def shellWords (s : JSString) : Option (List JSString) := wordsFrom .none none s

/-! ### Pieces -/

/-- Read outside quotes, the text adds `w` to the current word. -/
def Reads (p w : JSString) : Prop :=
  ∀ word rest, wordsFrom .none word (p ++ rest) = wordsFrom .none (some (word.getD [] ++ w)) rest

theorem wordsFrom_plain {c : UInt16} (h : isPlain c = true) (word : Option JSString)
    (s : JSString) :
    wordsFrom .none word (c :: s) = wordsFrom .none (some (word.getD [] ++ [c])) s := by
  simp only [isPlain, Bool.and_eq_true, Bool.not_eq_true', bne_iff_ne] at h
  obtain ⟨⟨⟨⟨hb, ha⟩, h₁⟩, h₂⟩, h₃⟩ := h
  rw [wordsFrom, hb, if_neg Bool.false_ne_true, if_neg h₁, if_neg h₂, ha, if_neg Bool.false_ne_true]
  · exact fun _ _ hc _ => h₃ hc
  · exact fun hc _ => h₃ hc

/-- A text without special characters stands for itself. -/
theorem reads_plain {p : JSString} (hne : p ≠ []) (h : p.all isPlain = true) : Reads p p := by
  induction p with
  | nil => exact absurd rfl hne
  | cons c p ih =>
    obtain ⟨hc, hp⟩ := (Bool.and_eq_true _ _).mp h
    intro word rest
    rw [List.cons_append, wordsFrom_plain hc]
    by_cases hnil : p = []
    · rw [hnil]
      rfl
    · rw [ih hnil hp]
      simp

/-- **Pieces joined by spaces are split again.** -/
theorem shellWords_join {ps ws : List JSString} (h : List.Forall₂ Reads ps ws) :
    shellWords (join (js " ") ps) = some ws := by
  induction h with
  | nil => rfl
  | @cons p w ps ws hp hps ih =>
    cases hps with
    | nil =>
      have hread := hp none []
      rw [List.append_nil] at hread
      rw [shellWords, show join (js " ") [p] = p by simp [join], hread]
      rfl
    | @cons q v ps ws hq hps =>
      have hjoin : join (js " ") (p :: q :: ps) = p ++ 0x20 :: join (js " ") (q :: ps) := by
        rw [join, List.intercalate_cons_cons, List.append_assoc]
        rfl
      rw [shellWords] at ih
      rw [shellWords, hjoin, hp, wordsFrom]
      · rw [if_pos (show isBlank 0x20 = true from rfl), ih]
        rfl
      · exact fun _ _ hc _ => absurd hc (by decide)
      · exact fun hc _ => absurd hc (by decide)

end HttpCatch.Shell
