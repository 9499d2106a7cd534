import HttpCatch.Library.JSString

/-!
# Beautified markup

`internal/admin/ui/bodyformat.js`: the page shows XML and HTML bodies indented. `tokenizeMarkup`
cuts the text into tags, comments, CDATA sections and trimmed text, whatever the text is, and
`beautifyMarkup` prints the tokens one on a line.

A round of the loop of `tokenizeMarkup` is a function of the text that is left (`markupRound`); the
loop is given a number of rounds, and has no answer when these do not suffice.

* `tokenizeMarkup_some` — one round for each unit of the text is enough.
* `beautify_solid` — only white space is moved.
-/

namespace HttpCatch.Admin.BodyFormat

open HttpCatch.JS

/-! ### Tokens -/

/-- The `kind` of a token. -/
inductive Kind where
  /-- A comment or a CDATA section. -/
  | raw
  /-- `</name>`. -/
  | close
  /-- `<?…>` or `<!…>`. -/
  | decl
  /-- `<name/>`. -/
  | self
  /-- `<name>`. -/
  | openTag
  /-- What stands between tags. -/
  | text
  deriving DecidableEq

/-- A token; only tags have a name. -/
structure Token where
  kind : Kind
  value : JSString
  name : Option JSString
  deriving DecidableEq

/-- `/\/\s*>$/.test(tag)`. -/
def endsInSlash (tag : JSString) : Bool :=
  match tag.reverse with
  | 0x3E :: rest => (rest.dropWhile isSpace).head? == some 0x2F
  | _ => false

/-- `classifyTag`. -/
def classifyTag (tag : JSString) : Kind :=
  if js "</" <+: tag then .close
  else if js "<?" <+: tag ∨ js "<!" <+: tag then .decl
  else if endsInSlash tag then .self
  else .openTag

/-- `[a-zA-Z0-9:_.-]`. -/
def isNameUnit (c : UInt16) : Bool :=
  (0x61 ≤ c && c ≤ 0x7A) || (0x41 ≤ c && c ≤ 0x5A) || (0x30 ≤ c && c ≤ 0x39) || c ∈ js ":_.-"

/-- `toLowerCase` of a letter of a tag name. -/
def lowerUnit (c : UInt16) : UInt16 := if 0x41 ≤ c && c ≤ 0x5A then c + 0x20 else c

/-- `tagName`: the name after `<`, an optional `/` and white space. -/
def tagName (tag : JSString) : JSString :=
  let rest := tag.drop 1
  let rest := if rest.head? = some 0x2F then rest.drop 1 else rest
  ((rest.dropWhile isSpace).takeWhile isNameUnit).map lowerUnit

/-- The token that ends at `stop`, and the text after it. -/
def cutTag (s : JSString) (stop : ℕ) (token : JSString → Token) : Option Token × JSString :=
  (some (token (s.take stop)), s.drop stop)

/-- A round of the loop of `tokenizeMarkup`: the token that it pushes, if any, and the text after
it. -/
def markupRound (s : JSString) : Option Token × JSString :=
  if s.head? = some 0x3C then
    if js "<!--" <+: s then cutTag s (endOf (js "-->") 4 s) (⟨.raw, ·, none⟩)
    else if js "<![CDATA[" <+: s then cutTag s (endOf (js "]]>") 9 s) (⟨.raw, ·, none⟩)
    else cutTag s (endOf (js ">") 0 s) fun tag => ⟨classifyTag tag, tag, some (tagName tag)⟩
  else
    let lt := (indexOf (js "<") s).getD s.length
    let txt := trim (s.take lt)
    (if txt = [] then none else some ⟨.text, txt, none⟩, s.drop lt)

/-- The loop of `tokenizeMarkup`, with a number of rounds that it may take. -/
def markupLoop : ℕ → JSString → Option (List Token)
  | _, [] => some []
  | 0, _ :: _ => none
  | n + 1, c :: s =>
    (markupLoop n (markupRound (c :: s)).2).map ((markupRound (c :: s)).1.toList ++ ·)

/-- `tokenizeMarkup`. -/
def tokenizeMarkup (s : JSString) : Option (List Token) := markupLoop s.length s

/-! ### Lines -/

/-- `VOID_ELEMENTS`. -/
def voidElements : List JSString :=
  [js "area", js "base", js "br", js "col", js "embed", js "hr", js "img", js "input", js "link",
    js "meta", js "param", js "source", js "track", js "wbr"]

/-- `pad`. -/
def pad (depth : ℕ) : JSString := (List.replicate depth (js "  ")).flatten

/-- The loop of `beautifyMarkup`: the lines for the tokens at a depth. -/
def printTokens (isHTML : Bool) : ℕ → List Token → List JSString
  | _, [] => []
  | depth, tk :: rest =>
    match tk.kind with
    | .close => (pad (depth - 1) ++ tk.value) :: printTokens isHTML (depth - 1) rest
    | .openTag =>
      if isHTML && truthyAt voidElements (tk.name.getD []) then
        (pad depth ++ tk.value) :: printTokens isHTML depth rest
      else
        match rest with
        | next :: after :: rest' =>
          -- an element with nothing but text in it
          if next.kind = .text ∧ after.kind = .close ∧ after.name = tk.name then
            (pad depth ++ tk.value ++ next.value ++ after.value) :: printTokens isHTML depth rest'
          else (pad depth ++ tk.value) :: printTokens isHTML (depth + 1) (next :: after :: rest')
        | rest => (pad depth ++ tk.value) :: printTokens isHTML (depth + 1) rest
    | _ => (pad depth ++ tk.value) :: printTokens isHTML depth rest

/-- `beautifyMarkup`; `none` is `null`. -/
def beautifyMarkup (s : JSString) (isHTML : Bool) : Option JSString :=
  (tokenizeMarkup s).bind fun tokens =>
    if tokens.any fun tk => tk.kind ∈ [.openTag, .close, .self] then
      some (join (js "\n") (printTokens isHTML 0 tokens))
    else none

/-! ### Only white space moves -/

/-- The text of some tokens. -/
def textOf (tokens : List Token) : JSString := (tokens.map Token.value).flatten

theorem indexOf_lt_pos {c : UInt16} {s : JSString} (h : c ≠ 0x3C) :
    0 < (indexOf (js "<") (c :: s)).getD (c :: s).length := by
  have hne : ¬ js "<" <+: c :: s := by
    intro hp
    obtain ⟨t, ht⟩ := hp
    exact h (List.cons.inj ht).1.symm
  rw [indexOf, if_neg hne]
  cases indexOf (js "<") s with
  | none => exact Nat.succ_pos _
  | some k => exact Nat.succ_pos _

theorem cutTag_spec {s : JSString} {stop : ℕ} {token : JSString → Token} (hs : s ≠ [])
    (hstop : 0 < stop) (hvalue : ∀ t, (token t).value = t) :
    (cutTag s stop token).2.length < s.length ∧
      textOf (cutTag s stop token).1.toList ++ (cutTag s stop token).2 = s := by
  have hlen := List.length_pos_iff.mpr hs
  constructor
  · rw [cutTag, List.length_drop]
    omega
  · simp [cutTag, textOf, hvalue]

/-- **A round goes on in the text and loses nothing but white space.** -/
theorem markupRound_spec (c : UInt16) (s : JSString) :
    (markupRound (c :: s)).2.length < (c :: s).length ∧
      solid (textOf (markupRound (c :: s)).1.toList) ++ solid (markupRound (c :: s)).2 =
        solid (c :: s) := by
  have hne : c :: s ≠ [] := List.cons_ne_nil _ _
  have htag : ∀ {stop : ℕ} {token : JSString → Token}, 0 < stop → (∀ t, (token t).value = t) →
      (cutTag (c :: s) stop token).2.length < (c :: s).length ∧
        solid (textOf (cutTag (c :: s) stop token).1.toList) ++
          solid (cutTag (c :: s) stop token).2 = solid (c :: s) := by
    intro stop token hstop hvalue
    obtain ⟨hlen, htext⟩ := cutTag_spec hne hstop hvalue
    exact ⟨hlen, by rw [← solid_append, htext]⟩
  rw [markupRound]
  split_ifs with hlt hcomment hcdata
  · exact htag (endOf_pos (List.cons_ne_nil _ _) hne 4) fun _ => rfl
  · exact htag (endOf_pos (List.cons_ne_nil _ _) hne 9) fun _ => rfl
  · exact htag (endOf_pos (List.cons_ne_nil _ _) hne 0) fun _ => rfl
  · -- text up to the next tag; it is trimmed, and dropped when nothing is left
    have hpos := indexOf_lt_pos (s := s) fun hc => hlt (congrArg some hc)
    generalize (indexOf (js "<") (c :: s)).getD (c :: s).length = lt at hpos ⊢
    have hlen : ((c :: s).drop lt).length < (c :: s).length := by
      rw [List.length_drop, List.length_cons]
      omega
    have hsolid : solid (trim ((c :: s).take lt)) ++ solid ((c :: s).drop lt) = solid (c :: s) := by
      rw [solid_trim, ← solid_append, List.take_append_drop]
    refine ⟨hlen, ?_⟩
    dsimp only
    split_ifs with htxt
    · rw [htxt] at hsolid
      exact hsolid
    · simpa [textOf] using hsolid

/-- One round for each unit of the text is enough. -/
theorem markupLoop_spec {n : ℕ} {s : JSString} (hn : s.length ≤ n) :
    ∃ tokens, markupLoop n s = some tokens ∧ solid (textOf tokens) = solid s := by
  induction n generalizing s with
  | zero =>
    obtain rfl : s = [] := List.length_eq_zero_iff.mp (Nat.le_zero.mp hn)
    exact ⟨[], rfl, rfl⟩
  | succ n ih =>
    cases s with
    | nil => exact ⟨[], rfl, rfl⟩
    | cons c s =>
      obtain ⟨hlen, hsolid⟩ := markupRound_spec c s
      obtain ⟨tokens, htokens, htext⟩ := @ih (markupRound (c :: s)).2 (by omega)
      refine ⟨(markupRound (c :: s)).1.toList ++ tokens, ?_, ?_⟩
      · rw [markupLoop, htokens]
        rfl
      · rw [← hsolid, ← htext, ← solid_append, textOf, List.map_append, List.flatten_append]
        rfl

theorem solid_pad (depth : ℕ) : solid (pad depth) = [] := by
  apply solid_eq_nil
  intro c hc
  obtain ⟨part, hpart, hmem⟩ := List.mem_flatten.mp hc
  rw [List.eq_of_mem_replicate hpart] at hmem
  rcases (by simpa [js] using hmem : c = 0x20) with rfl
  rfl

theorem textOf_cons (tk : Token) (tokens : List Token) :
    textOf (tk :: tokens) = tk.value ++ textOf tokens :=
  List.flatten_cons

/-- The lines of some tokens are their texts, after white space. -/
theorem solid_printTokens (isHTML : Bool) (depth : ℕ) (tokens : List Token) :
    solid (printTokens isHTML depth tokens).flatten = solid (textOf tokens) := by
  fun_induction printTokens isHTML depth tokens with
  | case1 => rfl
  | case2 depth tk rest _ ih => simp [solid_pad, textOf_cons, ih]
  | case3 depth tk rest _ _ ih => simp [solid_pad, textOf_cons, ih]
  | case4 depth tk _ _ next after rest _ ih => simp [solid_pad, textOf_cons, ih]
  | case5 depth tk _ _ next after rest _ ih => simp [solid_pad, textOf_cons, ih]
  | case6 depth tk _ rest _ _ ih => simp [solid_pad, textOf_cons, ih]
  | case7 depth tk rest _ _ ih => simp [solid_pad, textOf_cons, ih]

/-- **Beautifying moves white space only.** `tokenizeMarkup` ends on every text, well formed or not,
and a text that is printed is the same before and after, up to white space. -/
theorem beautify_solid (s : JSString) :
    (∃ tokens, tokenizeMarkup s = some tokens) ∧
      ∀ isHTML out, beautifyMarkup s isHTML = some out → solid out = solid s := by
  obtain ⟨tokens, htokens, htext⟩ := markupLoop_spec (le_refl s.length)
  rw [← tokenizeMarkup] at htokens
  refine ⟨⟨tokens, htokens⟩, fun isHTML out hout => ?_⟩
  rw [beautifyMarkup, htokens, Option.bind_some] at hout
  split_ifs at hout
  rw [← Option.some.inj hout, solid_join rfl, solid_printTokens, htext]

/-- An element that is never closed, and a comment that is not either. -/
example : beautifyMarkup (js "<a> <b>x</b><!-- c") true =
    some (js "<a>\n  <b>x</b>\n  <!-- c") := by
  decide +kernel

end HttpCatch.Admin.BodyFormat
