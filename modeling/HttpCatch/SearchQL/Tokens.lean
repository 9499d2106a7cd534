import HttpCatch.Library.Text
import HttpCatch.SearchQL.Query

/-!
# Tokens of the search language

`tokenize` looks one byte ahead for an escaped quote. Whether a text is one token can be
said without looking ahead, by a machine with three states (`QuoteState`): outside quotes,
inside, and inside after a backslash. A text is a token exactly when the machine reads it
from outside to outside (`IsToken`).

* `tokenize_isToken` — `tokenize` gives tokens.
* `tokenize_lossless` — the text is its tokens and white space, unless a quote stays open.
* `tokenize_join` — tokens joined by spaces are read as these tokens.
-/

namespace HttpCatch.SearchQL

open HttpCatch.Go

/-! ### The machine -/

/-- Where the reader of a token stands. -/
inductive QuoteState where
  /-- Outside quotes. -/
  | outside
  /-- Inside quotes. -/
  | inside
  /-- Inside quotes, after a backslash: a quote would be escaped. -/
  | escape
  deriving DecidableEq

/-- Read one byte of a token; white space outside quotes is none. -/
def QuoteState.step : QuoteState → UInt8 → Option QuoteState
  | .outside, c =>
    if c == 0x22 then some .inside else if isASCIISpace c then none else some .outside
  | .inside, c => some (if c == 0x22 then .outside else if c == 0x5C then .escape else .inside)
  | .escape, c => some (if c == 0x5C then .escape else .inside)

/-- Read a part of a token. -/
def QuoteState.read : QuoteState → GoString → Option QuoteState
  | st, [] => some st
  | st, c :: s => (st.step c).bind fun st => st.read s

/-- The text is one token. -/
def IsToken (s : GoString) : Prop := s ≠ [] ∧ QuoteState.outside.read s = some .outside

theorem QuoteState.read_append (st : QuoteState) (s t : GoString) :
    st.read (s ++ t) = (st.read s).bind fun st => st.read t := by
  induction s generalizing st with
  | nil => rfl
  | cons c s ih =>
    simp only [List.cons_append, QuoteState.read, Option.bind_assoc]
    congr 1
    funext st'
    exact ih st'

variable {c : UInt8} {s : GoString} {st : QuoteState}

/-- Outside quotes, a backslash means nothing. -/
theorem QuoteState.step_outside (hs : isASCIISpace c = false) (hq : c ≠ 0x22) :
    QuoteState.outside.step c = some .outside := by
  simp [QuoteState.step, hs, hq]

/-- Text without quotes and white space leaves the reader outside. -/
theorem QuoteState.read_outside (h : ∀ c ∈ s, isASCIISpace c = false ∧ c ≠ 0x22) :
    QuoteState.outside.read s = some .outside := by
  induction s with
  | nil => rfl
  | cons c s ih =>
    obtain ⟨hs, hq⟩ := h c List.mem_cons_self
    rw [QuoteState.read, QuoteState.step_outside hs hq]
    exact ih fun c hc => h c (List.mem_cons_of_mem _ hc)

/-- What is read outside quotes and has none in it is free of white space. -/
theorem QuoteState.read_noQuote (h : QuoteState.outside.read s = some st) (hq : 0x22 ∉ s) :
    st = .outside := by
  induction s with
  | nil =>
    cases h
    rfl
  | cons c s ih =>
    obtain ⟨hc, hs⟩ := not_or.mp (mt List.mem_cons.mpr hq)
    cases hsp : isASCIISpace c with
    | true => simp [QuoteState.read, QuoteState.step, Ne.symm hc, hsp] at h
    | false =>
      rw [QuoteState.read, QuoteState.step_outside hsp (Ne.symm hc)] at h
      exact ih h hs

/-- A token does not begin with white space. -/
theorem not_space_of_read (h : QuoteState.outside.read (c :: s) = some st) :
    isASCIISpace c = false := by
  cases hs : isASCIISpace c with
  | false => rfl
  | true =>
    have hq : c ≠ 0x22 := by
      rintro rfl
      cases hs
    simp [QuoteState.read, QuoteState.step, hq, hs] at h

/-! ### `tokenize` and the machine -/

/-- The state of the loop of `tokenize`, which has looked at the next byte, and the state of
the machine, which has not. -/
def Matches (st : QuoteState) (inQuote escaped : Bool) (s : GoString) : Prop :=
  match inQuote, escaped with
  | false, _ => st = .outside
  | true, false => st = .inside ∨ st = .escape ∧ s.head? ≠ some 0x22
  | true, true => st = .escape ∧ s.head? = some 0x22

/-- One round of the loop inside a token, as a step of the machine. -/
theorem tokenizeFrom_step {inQuote escaped : Bool} (hm : Matches st inQuote escaped (c :: s)) :
    (st.step c = none ∧ isASCIISpace c = true ∧ ∀ start acc,
        tokenizeFrom (.token start acc inQuote escaped) (c :: s) =
          (tokenizeFrom .between s).map (acc :: ·)) ∨
      ∃ st' inQuote' escaped', st.step c = some st' ∧ Matches st' inQuote' escaped' s ∧ ∀ start acc,
        tokenizeFrom (.token start acc inQuote escaped) (c :: s) =
          tokenizeFrom (.token start (acc ++ [c]) inQuote' escaped') s := by
  cases inQuote with
  | false =>
    obtain rfl : st = .outside := by simpa [Matches] using hm
    by_cases hq : c = 0x22
    · subst hq
      exact .inr ⟨.inside, true, false, rfl, .inl rfl, fun _ _ => rfl⟩
    · cases hs : isASCIISpace c with
      | true => exact .inl ⟨by simp [QuoteState.step, hq, hs], rfl,
          fun _ _ => by simp [tokenizeFrom, hq, hs]⟩
      | false =>
        exact .inr ⟨.outside, false, false, QuoteState.step_outside hs hq, rfl,
          fun _ _ => by simp [tokenizeFrom, hq, hs]⟩
  | true =>
    right
    cases escaped with
    | true =>
      obtain ⟨rfl, hc⟩ := hm
      obtain rfl : c = 0x22 := by simpa using hc
      exact ⟨.inside, true, false, rfl, .inl rfl, fun _ _ => rfl⟩
    | false =>
      by_cases hb : c = 0x5C
      · -- the loop looks at the next byte to see whether it is escaped
        subst hb
        have hst : st.step 0x5C = some .escape := by
          rcases hm with rfl | ⟨rfl, -⟩ <;> rfl
        by_cases hn : s.head? = some 0x22
        · exact ⟨.escape, true, true, hst, ⟨rfl, hn⟩, fun _ _ => by simp [tokenizeFrom, hn]⟩
        · exact ⟨.escape, true, false, hst, .inr ⟨rfl, hn⟩, fun _ _ => by simp [tokenizeFrom, hn]⟩
      · by_cases hq : c = 0x22
        · subst hq
          rcases hm with rfl | ⟨-, hne⟩
          · exact ⟨.outside, false, false, rfl, rfl, fun _ _ => rfl⟩
          · exact absurd rfl hne
        · have hst : st.step c = some .inside := by
            rcases hm with rfl | ⟨rfl, -⟩ <;> simp [QuoteState.step, hb, hq]
          exact ⟨.inside, true, false, hst, .inl rfl,
            fun _ _ => by simp [tokenizeFrom, hb, bne_iff_ne.mpr hq]⟩

/-- A token starts with a byte that is no white space. -/
theorem tokenizeFrom_start (hs : isASCIISpace c = false) :
    ∃ st inQuote, QuoteState.outside.step c = some st ∧ Matches st inQuote false s ∧
      tokenizeFrom .between (c :: s) = tokenizeFrom (.token (c :: s) [c] inQuote false) s := by
  by_cases hq : c = 0x22
  · subst hq
    exact ⟨.inside, true, rfl, .inl rfl, rfl⟩
  · exact ⟨.outside, false, QuoteState.step_outside hs hq, rfl,
      by simp [tokenizeFrom, hs, beq_eq_false_iff_ne.mpr hq]⟩

theorem read_snoc {st' : QuoteState} {acc : GoString} (h : QuoteState.outside.read acc = some st)
    (hc : st.step c = some st') : QuoteState.outside.read (acc ++ [c]) = some st' := by
  rw [QuoteState.read_append, h]
  simp [QuoteState.read, hc]

/-! ### The layout of a text -/

/-- A text is made of its tokens: `w₀` stands before the first of them, and after each of them the
white space that `ws` has for it, which is only empty at the end of the text. -/
structure Spacing (ts : List GoString) (s w₀ : GoString) (ws : List GoString) : Prop where
  length : ws.length = ts.length
  text : s = w₀ ++ (List.zipWith (· ++ ·) ts ws).flatten
  space : ∀ w ∈ w₀ :: ws, ∀ c ∈ w, isASCIISpace c = true
  apart : ∀ w ∈ ws.dropLast, w ≠ []

/-- The text begins a token and leaves a quote open. -/
def Unfinished (s : GoString) : Prop :=
  s ≠ [] ∧ ∃ st, st ≠ .outside ∧ QuoteState.outside.read s = some st

/-- What an answer of `tokenize` says about the text: its tokens, or the tokens before the one
that the text ends in. -/
def Laid (s : GoString) : Except ParseError (List GoString) → Prop
  | .ok ts => (∃ w₀ ws, Spacing ts s w₀ ws) ∧ ∀ t ∈ ts, IsToken t
  | .error e => e.message = .unclosedQuote ∧ Unfinished e.token ∧
      ∃ ts, (∃ w₀ ws, Spacing (ts ++ [e.token]) s w₀ (ws ++ [[]])) ∧ ∀ t ∈ ts, IsToken t

section Layout

variable {ts ws : List GoString} {s w₀ t : GoString} {c : UInt8}

theorem Spacing.space_cons (h : Spacing ts s w₀ ws) (hc : isASCIISpace c = true) :
    Spacing ts (c :: s) (c :: w₀) ws where
  length := h.length
  text := by
    rw [h.text]
    rfl
  space := by
    obtain ⟨hw₀, hws⟩ := List.forall_mem_cons.mp h.space
    exact List.forall_mem_cons.mpr ⟨List.forall_mem_cons.mpr ⟨hc, hw₀⟩, hws⟩
  apart := h.apart

/-- A token and the white space after it, before a text that is laid out. -/
theorem Spacing.token_cons (h : Spacing ts s w₀ ws) (hc : isASCIISpace c = true) (t : GoString) :
    Spacing (t :: ts) (t ++ c :: s) [] ((c :: w₀) :: ws) where
  length := congrArg (· + 1) h.length
  text := by
    rw [h.text, List.zipWith_cons_cons, List.flatten_cons]
    simp
  space := by
    obtain ⟨hw₀, hws⟩ := List.forall_mem_cons.mp h.space
    have hgap : ∀ b ∈ c :: w₀, isASCIISpace b = true := List.forall_mem_cons.mpr ⟨hc, hw₀⟩
    exact List.forall_mem_cons.mpr ⟨List.forall_mem_nil _, List.forall_mem_cons.mpr ⟨hgap, hws⟩⟩
  apart := by
    intro w hw
    cases ws with
    | nil => cases hw
    | cons w' ws =>
      rcases List.mem_cons.mp hw with rfl | hw
      · exact List.cons_ne_nil _ _
      · exact h.apart w hw

theorem spacing_singleton (t : GoString) : Spacing [t] t [] [[]] where
  length := rfl
  text := by simp
  space := by simp
  apart := by simp

theorem Laid.space_cons {r : Except ParseError (List GoString)} (h : Laid s r)
    (hc : isASCIISpace c = true) : Laid (c :: s) r := by
  cases r with
  | ok ts =>
    obtain ⟨⟨w₀, ws, hsp⟩, htok⟩ := h
    exact ⟨⟨_, _, hsp.space_cons hc⟩, htok⟩
  | error e =>
    obtain ⟨hmsg, hun, ts, ⟨w₀, ws, hsp⟩, htok⟩ := h
    exact ⟨hmsg, hun, ts, ⟨_, _, hsp.space_cons hc⟩, htok⟩

theorem Laid.token_cons {r : Except ParseError (List GoString)} (h : Laid s r) (ht : IsToken t)
    (hc : isASCIISpace c = true) : Laid (t ++ c :: s) (r.map (t :: ·)) := by
  cases r with
  | ok ts =>
    obtain ⟨⟨w₀, ws, hsp⟩, htok⟩ := h
    exact ⟨⟨_, _, hsp.token_cons hc t⟩, List.forall_mem_cons.mpr ⟨ht, htok⟩⟩
  | error e =>
    obtain ⟨hmsg, hun, ts, ⟨w₀, ws, hsp⟩, htok⟩ := h
    exact ⟨hmsg, hun, t :: ts, ⟨[], (c :: w₀) :: ws, hsp.token_cons hc t⟩,
      List.forall_mem_cons.mpr ⟨ht, htok⟩⟩

end Layout

/-- **The loop lays the text out**, from between two tokens or inside one. -/
theorem tokenizeFrom_laid (s : GoString) :
    Laid s (tokenizeFrom .between s) ∧
      ∀ acc inQuote escaped st, acc ≠ [] → QuoteState.outside.read acc = some st →
        Matches st inQuote escaped s →
          Laid (acc ++ s) (tokenizeFrom (.token (acc ++ s) acc inQuote escaped) s) := by
  induction s with
  | nil =>
    refine ⟨⟨⟨[], [], rfl, rfl, by simp, by simp⟩, by simp⟩,
      fun acc inQuote escaped st hne hacc hm => ?_⟩
    rw [List.append_nil]
    cases inQuote with
    | true =>
      have hst : st ≠ .outside := by
        rintro rfl
        cases escaped <;> simp [Matches] at hm
      exact ⟨rfl, ⟨hne, st, hst, hacc⟩, [], ⟨[], [], spacing_singleton acc⟩, by simp⟩
    | false =>
      obtain rfl : st = .outside := by simpa [Matches] using hm
      exact ⟨⟨[], [[]], spacing_singleton acc⟩, by simpa using ⟨hne, hacc⟩⟩
  | cons c s ih =>
    obtain ⟨ihb, iht⟩ := ih
    refine ⟨?_, fun acc inQuote escaped st hne hacc hm => ?_⟩
    · cases hs : isASCIISpace c with
      | true =>
        have heq : tokenizeFrom .between (c :: s) = tokenizeFrom .between s := by
          rw [tokenizeFrom, if_pos hs]
        rw [heq]
        exact ihb.space_cons hs
      | false =>
        obtain ⟨st, inQuote, hst, hm, heq⟩ := @tokenizeFrom_start c s hs
        rw [heq]
        exact iht [c] inQuote false st (List.cons_ne_nil _ _) (by simp [QuoteState.read, hst]) hm
    · rcases tokenizeFrom_step hm with ⟨hst, hs, heq⟩ | ⟨st', inQuote', escaped', hst, hm', heq⟩
      · -- white space ends the token, which is outside quotes
        have hout : st = .outside := by cases st <;> simp [QuoteState.step] at hst ⊢
        rw [heq]
        exact ihb.token_cons ⟨hne, hout ▸ hacc⟩ hs
      · rw [heq, List.append_cons]
        exact iht _ _ _ st' (by simp) (read_snoc hacc hst) hm'

/-- **What `tokenize` gives are tokens.** -/
theorem tokenize_isToken {ts : List GoString} (h : tokenize s = .ok ts) : ∀ t ∈ ts, IsToken t := by
  have hlaid := (tokenizeFrom_laid s).1
  rw [tokenize] at h
  rw [h] at hlaid
  exact hlaid.2

/-! ### Open quotes -/

/-- Whether a quote is open after a text: a double quote opens or closes, except when it comes
after a backslash inside quotes. `prev` is the byte before the text. -/
def quoteOpenFrom : Bool → UInt8 → GoString → Bool
  | inQuote, _, [] => inQuote
  | inQuote, prev, c :: s =>
    quoteOpenFrom (if c = 0x22 ∧ ¬ (inQuote = true ∧ prev = 0x5C) then !inQuote else inQuote) c s

/-- Whether a double quote is still open at the end of a text. -/
def quoteOpen (s : GoString) : Bool := quoteOpenFrom false 0 s

/-- A token of a text: it does not begin with white space, and has it inside quotes only. -/
structure TokenShape (t : GoString) : Prop where
  ne_nil : t ≠ []
  head : ∀ c, t.head? = some c → isASCIISpace c = false
  inside : ∀ u c v, t = u ++ c :: v → isASCIISpace c = true → quoteOpen u = true

section Quotes

variable {st st' : QuoteState} {inQuote : Bool} {prev : UInt8} {s t u v w : GoString}

/-- Outside quotes, the byte before does not matter. -/
theorem quoteOpenFrom_outside (prev : UInt8) (s : GoString) :
    quoteOpenFrom false prev s = quoteOpen s := by
  cases s with
  | nil => rfl
  | cons c s => simp [quoteOpen, quoteOpenFrom]

theorem quoteOpenFrom_append (inQuote : Bool) (prev : UInt8) (u v : GoString) :
    ∃ prev', quoteOpenFrom inQuote prev (u ++ v) =
      quoteOpenFrom (quoteOpenFrom inQuote prev u) prev' v := by
  induction u generalizing inQuote prev with
  | nil => exact ⟨prev, rfl⟩
  | cons c u ih => exact ih _ c

theorem quoteOpen_append (h : quoteOpen u = false) (v : GoString) :
    quoteOpen (u ++ v) = quoteOpen v := by
  obtain ⟨prev, heq⟩ := quoteOpenFrom_append false 0 u v
  rw [quoteOpen] at h
  rw [quoteOpen, heq, h, quoteOpenFrom_outside]

/-- White space opens no quote. -/
theorem quoteOpen_space (h : ∀ c ∈ w, isASCIISpace c = true) : quoteOpen w = false := by
  induction w with
  | nil => rfl
  | cons c w ih =>
    obtain ⟨hc, hw⟩ := List.forall_mem_cons.mp h
    have hne : c ≠ 0x22 := by
      rintro rfl
      cases hc
    rw [quoteOpen, quoteOpenFrom, if_neg fun hq => hne hq.1, quoteOpenFrom_outside]
    exact ih hw

/-- The state of the machine says whether a quote is open, and what the byte before it was. -/
def Remembers : QuoteState → Bool → UInt8 → Prop
  | .outside, inQuote, _ => inQuote = false
  | .inside, inQuote, prev => inQuote = true ∧ prev ≠ 0x5C
  | .escape, inQuote, prev => inQuote = true ∧ prev = 0x5C

theorem Remembers.step {c : UInt8} (h : Remembers st inQuote prev) (hc : st.step c = some st') :
    Remembers st'
      (if c = 0x22 ∧ ¬ (inQuote = true ∧ prev = 0x5C) then !inQuote else inQuote) c := by
  cases st with
  | outside =>
    obtain rfl : inQuote = false := h
    by_cases hq : c = 0x22
    · subst hq
      obtain rfl : QuoteState.inside = st' := Option.some.inj hc
      exact ⟨rfl, by decide⟩
    · cases hs : isASCIISpace c with
      | true => simp [QuoteState.step, hq, hs] at hc
      | false =>
        rw [QuoteState.step_outside hs hq, Option.some.injEq] at hc
        subst hc
        rw [if_neg fun h => hq h.1]
        rfl
  | inside =>
    obtain ⟨rfl, hprev⟩ := h
    by_cases hq : c = 0x22
    · subst hq
      obtain rfl : QuoteState.outside = st' := Option.some.inj hc
      rw [if_pos ⟨rfl, fun h => hprev h.2⟩]
      rfl
    · rw [if_neg fun h => hq h.1]
      by_cases hb : c = 0x5C
      · subst hb
        obtain rfl : QuoteState.escape = st' := Option.some.inj hc
        exact ⟨rfl, rfl⟩
      · simp only [QuoteState.step, beq_iff_eq, hq, if_false, hb, Option.some.injEq] at hc
        subst hc
        exact ⟨rfl, hb⟩
  | escape =>
    obtain ⟨rfl, rfl⟩ := h
    rw [if_neg fun h => h.2 ⟨rfl, rfl⟩]
    by_cases hb : c = 0x5C
    · subst hb
      obtain rfl : QuoteState.escape = st' := Option.some.inj hc
      exact ⟨rfl, rfl⟩
    · simp only [QuoteState.step, beq_iff_eq, hb, if_false, Option.some.injEq] at hc
      subst hc
      exact ⟨rfl, hb⟩

theorem quoteOpenFrom_read (h : Remembers st inQuote prev) (hs : st.read s = some st') :
    quoteOpenFrom inQuote prev s = decide (st' ≠ .outside) := by
  induction s generalizing st inQuote prev with
  | nil =>
    obtain rfl : st = st' := Option.some.inj hs
    cases st with
    | outside => exact h
    | inside => exact h.1
    | escape => exact h.1
  | cons c s ih =>
    obtain ⟨st₁, hc, hs₁⟩ := Option.bind_eq_some_iff.mp hs
    exact ih (h.step hc) hs₁

theorem quoteOpen_read (h : QuoteState.outside.read s = some st) :
    quoteOpen s = decide (st ≠ .outside) :=
  quoteOpenFrom_read (show Remembers .outside false 0 from rfl) h

theorem tokenShape_of_read (hne : t ≠ []) (h : QuoteState.outside.read t = some st) :
    TokenShape t where
  ne_nil := hne
  head := by
    intro c hc
    obtain ⟨u, rfl⟩ := List.head?_eq_some_iff.mp hc
    exact not_space_of_read h
  inside := by
    rintro u c v rfl hc
    rw [QuoteState.read_append] at h
    obtain ⟨st₁, hu, hcv⟩ := Option.bind_eq_some_iff.mp h
    rw [quoteOpen_read hu, decide_eq_true_eq]
    -- outside quotes, the machine reads no white space
    rintro rfl
    rw [not_space_of_read hcv] at hc
    cases hc

theorem IsToken.shape (h : IsToken t) : TokenShape t ∧ quoteOpen t = false :=
  ⟨tokenShape_of_read h.1 h.2, by rw [quoteOpen_read h.2, decide_eq_false_iff_not, not_not]⟩

theorem Unfinished.shape (h : Unfinished t) : TokenShape t ∧ quoteOpen t = true := by
  obtain ⟨hne, st, hst, hread⟩ := h
  exact ⟨tokenShape_of_read hne hread, by rw [quoteOpen_read hread, decide_eq_true_eq]; exact hst⟩

/-- Quotes that tokens close, and white space between them. -/
theorem quoteOpen_zipWith {ts ws : List GoString} (hts : ∀ t ∈ ts, quoteOpen t = false)
    (hws : ∀ w ∈ ws, ∀ c ∈ w, isASCIISpace c = true) (s : GoString) :
    quoteOpen ((List.zipWith (· ++ ·) ts ws).flatten ++ s) = quoteOpen s := by
  induction ts generalizing ws with
  | nil => rfl
  | cons t ts ih =>
    cases ws with
    | nil => rfl
    | cons w ws =>
      obtain ⟨ht, hts⟩ := List.forall_mem_cons.mp hts
      obtain ⟨hw, hws⟩ := List.forall_mem_cons.mp hws
      rw [List.zipWith_cons_cons, List.flatten_cons, List.append_assoc, List.append_assoc,
        quoteOpen_append ht, quoteOpen_append (quoteOpen_space hw)]
      exact ih hts hws

/-- A text that is laid out in tokens closes its quotes. -/
theorem Spacing.quoteOpen {ts ws : List GoString} (h : Spacing ts s w ws)
    (htok : ∀ t ∈ ts, IsToken t) : quoteOpen s = false := by
  obtain ⟨hw, hws⟩ := List.forall_mem_cons.mp h.space
  have hrest := quoteOpen_zipWith (fun t ht => (htok t ht).shape.2) hws []
  rw [List.append_nil] at hrest
  rw [h.text, quoteOpen_append (quoteOpen_space hw), hrest]
  rfl

/-- A text that ends in an unfinished token does not. -/
theorem Spacing.quoteOpen_unfinished {ts ws : List GoString}
    (h : Spacing (ts ++ [t]) s w (ws ++ [[]])) (htok : ∀ t ∈ ts, IsToken t)
    (hun : Unfinished t) : SearchQL.quoteOpen s = true := by
  have hlen : ts.length = ws.length := by simpa using h.length.symm
  obtain ⟨hw, hws⟩ := List.forall_mem_cons.mp h.space
  have hrest := quoteOpen_zipWith (fun t ht => (htok t ht).shape.2)
    (fun w hw => hws w (List.mem_append_left _ hw)) t
  rw [h.text, quoteOpen_append (quoteOpen_space hw), List.zipWith_append hlen,
    List.flatten_append]
  simpa [hun.shape.2] using hrest

end Quotes

/-- **Tokenizing loses nothing but white space.** `tokenize` fails exactly when the text leaves a
quote open. Otherwise the text is its tokens with white space around them. When it fails, the
token in the error is the end of the text, from where the unfinished token starts. -/
theorem tokenize_lossless (s : GoString) :
    match tokenize s with
    | .ok ts => quoteOpen s = false ∧ (∃ w₀ ws, Spacing ts s w₀ ws) ∧
        ∀ t ∈ ts, TokenShape t ∧ quoteOpen t = false
    | .error e => quoteOpen s = true ∧ e.message = .unclosedQuote ∧
        (∃ ts w₀ ws, Spacing (ts ++ [e.token]) s w₀ (ws ++ [[]]) ∧
          ∀ t ∈ ts, TokenShape t ∧ quoteOpen t = false) ∧
        TokenShape e.token ∧ quoteOpen e.token = true := by
  have hlaid : Laid s (tokenize s) := (tokenizeFrom_laid s).1
  cases h : tokenize s with
  | ok ts =>
    rw [h] at hlaid
    obtain ⟨⟨w₀, ws, hsp⟩, htok⟩ := hlaid
    exact ⟨hsp.quoteOpen htok, ⟨w₀, ws, hsp⟩, fun t ht => (htok t ht).shape⟩
  | error e =>
    rw [h] at hlaid
    obtain ⟨hmsg, hun, ts, ⟨w₀, ws, hsp⟩, htok⟩ := hlaid
    exact ⟨hsp.quoteOpen_unfinished htok hun, hmsg,
      ⟨ts, w₀, ws, hsp, fun t ht => (htok t ht).shape⟩, hun.shape⟩

theorem tokenize_ok_iff (s : GoString) : (∃ ts, tokenize s = .ok ts) ↔ quoteOpen s = false := by
  have hlaid : Laid s (tokenize s) := (tokenizeFrom_laid s).1
  cases h : tokenize s with
  | ok ts =>
    rw [h] at hlaid
    obtain ⟨⟨w₀, ws, hsp⟩, htok⟩ := hlaid
    exact iff_of_true ⟨ts, rfl⟩ (hsp.quoteOpen htok)
  | error e =>
    rw [h] at hlaid
    obtain ⟨-, hun, ts, ⟨w₀, ws, hsp⟩, htok⟩ := hlaid
    refine iff_of_false (by simp) ?_
    rw [hsp.quoteOpen_unfinished htok hun]
    decide

/-- The loop reads the rest of a token to its end, which is the end of the text or a space. -/
theorem tokenizeFrom_token {inQuote escaped : Bool} {u rest : GoString}
    (hm : Matches st inQuote escaped (u ++ rest)) (hread : st.read u = some .outside)
    (start acc : GoString) :
    (rest = [] → tokenizeFrom (.token start acc inQuote escaped) (u ++ rest) = .ok [acc ++ u]) ∧
      ∀ r, rest = 0x20 :: r →
        tokenizeFrom (.token start acc inQuote escaped) (u ++ rest) =
          (tokenizeFrom .between r).map ((acc ++ u) :: ·) := by
  induction u generalizing st inQuote escaped acc with
  | nil =>
    obtain rfl : st = .outside := by simpa [QuoteState.read] using hread
    obtain rfl : inQuote = false := by
      cases inQuote with
      | false => rfl
      | true => cases escaped <;> simp [Matches] at hm
    constructor
    · rintro rfl
      simp [tokenizeFrom]
    · rintro r rfl
      simp [tokenizeFrom, show isASCIISpace 0x20 = true from rfl]
  | cons c u ih =>
    rw [List.cons_append] at hm
    rcases tokenizeFrom_step hm with ⟨hst, -, -⟩ | ⟨st', inQuote', escaped', hst, hm', heq⟩
    · simp [QuoteState.read, hst] at hread
    · have hread' : st'.read u = some .outside := by simpa [QuoteState.read, hst] using hread
      have := ih hm' hread' (acc ++ [c])
      rw [List.cons_append, heq start acc]
      simpa using this

/-- **Tokens joined by single spaces are read as these tokens.** -/
theorem tokenize_join {ts : List GoString} (h : ∀ t ∈ ts, IsToken t) :
    tokenize (join ts 0x20) = .ok ts := by
  induction ts with
  | nil => rfl
  | cons t ts ih =>
    obtain ⟨⟨hne, hread⟩, hts⟩ := List.forall_mem_cons.mp h
    obtain ⟨c, u, rfl⟩ := List.exists_cons_of_ne_nil hne
    have hs := not_space_of_read hread
    have hrest : ∀ rest, ∃ st inQuote, Matches st inQuote false (u ++ rest) ∧
        st.read u = some .outside ∧
        tokenize (c :: u ++ rest) = tokenizeFrom (.token (c :: u ++ rest) [c] inQuote false)
          (u ++ rest) := by
      intro rest
      obtain ⟨st, inQuote, hst, hm, heq⟩ := @tokenizeFrom_start c (u ++ rest) hs
      exact ⟨st, inQuote, hm, by simpa [QuoteState.read, hst] using hread, heq⟩
    cases ts with
    | nil =>
      obtain ⟨st, inQuote, hm, hu, heq⟩ := hrest []
      rw [List.append_nil] at heq
      rw [show join [c :: u] 0x20 = c :: u by simp [join], heq]
      simpa using (tokenizeFrom_token hm hu (c :: u) [c]).1 rfl
    | cons t' ts =>
      obtain ⟨st, inQuote, hm, hu, heq⟩ := hrest (0x20 :: join (t' :: ts) 0x20)
      have hjoin : join ((c :: u) :: t' :: ts) 0x20 = c :: u ++ 0x20 :: join (t' :: ts) 0x20 := by
        simp [join, List.intercalate_cons_cons]
      rw [hjoin, heq, (tokenizeFrom_token hm hu _ [c]).2 _ rfl]
      have := ih hts
      rw [tokenize] at this
      rw [this]
      rfl

/-! ### Texts put together -/

section Together

variable {c : UInt8} {a b w : GoString} {ts : List GoString}

theorem ne_quote_of_space (hc : isASCIISpace c = true) : c ≠ 0x22 := by
  rintro rfl
  cases hc

/-- White space after a text that closes its quotes: the loop reads what follows by itself. -/
theorem tokenizeFrom_append_space (hc : isASCIISpace c = true) (a b : GoString) :
    (∀ ts, tokenizeFrom .between a = .ok ts →
      tokenizeFrom .between (a ++ c :: b) = (tokenizeFrom .between b).map (ts ++ ·)) ∧
    ∀ start start' acc inQuote escaped ts,
      tokenizeFrom (.token start acc inQuote escaped) a = .ok ts →
        tokenizeFrom (.token start' acc inQuote escaped) (a ++ c :: b) =
          (tokenizeFrom .between b).map (ts ++ ·) := by
  have hq : (c == 0x22) = false := beq_eq_false_iff_ne.mpr (ne_quote_of_space hc)
  induction a with
  | nil =>
    refine ⟨fun ts h => ?_, fun start start' acc inQuote escaped ts h => ?_⟩
    · obtain rfl := Except.ok.inj h
      rw [List.nil_append, tokenizeFrom, if_pos hc]
      cases tokenizeFrom .between b <;> rfl
    · cases inQuote with
      | true => cases h
      | false =>
        obtain rfl := Except.ok.inj h
        rw [List.nil_append, tokenizeFrom, hq, if_neg Bool.false_ne_true, if_pos hc]
        rfl
  | cons x a ih =>
    obtain ⟨ihb, iht⟩ := ih
    -- the byte after `x` is a quote in both texts or in none
    have hhead : ((a ++ c :: b).head? == some 0x22) = (a.head? == some 0x22) := by
      cases a with
      | nil => simpa using ne_quote_of_space hc
      | cons y a => rfl
    refine ⟨fun ts h => ?_, fun start start' acc inQuote escaped ts h => ?_⟩
    · rw [List.cons_append, tokenizeFrom]
      rw [tokenizeFrom] at h
      split_ifs at h ⊢
      · exact ihb ts h
      · exact iht _ _ _ _ _ ts h
    · rw [List.cons_append]
      cases inQuote with
      | true =>
        cases escaped with
        | true => exact iht _ _ _ _ _ ts h
        | false =>
          rw [tokenizeFrom, hhead]
          rw [tokenizeFrom] at h
          split_ifs at h ⊢ <;> exact iht _ _ _ _ _ ts h
      | false =>
        rw [tokenizeFrom]
        rw [tokenizeFrom] at h
        split_ifs at h ⊢
        · exact iht _ _ _ _ _ ts h
        · cases hb : tokenizeFrom .between a with
          | error e =>
            rw [hb] at h
            cases h
          | ok ts' =>
            rw [hb] at h
            obtain rfl := Except.ok.inj h
            rw [ihb ts' hb]
            cases tokenizeFrom .between b <;> rfl
        · exact iht _ _ _ _ _ ts h

/-- **White space after a text that closes its quotes ends its last token.** -/
theorem tokenize_append_space (h : tokenize a = .ok ts) (hc : isASCIISpace c = true) :
    tokenize (a ++ c :: b) = (tokenize b).map (ts ++ ·) :=
  (tokenizeFrom_append_space hc a b).1 ts h

theorem IsToken.tokenize (h : IsToken w) : SearchQL.tokenize w = .ok [w] := by
  have hjoin := tokenize_join (List.forall_mem_singleton.mpr h)
  rwa [show join [w] 0x20 = w by simp [join]] at hjoin

/-- What stands after a first token and white space is read by itself. -/
theorem IsToken.tokenize_tail {ws : List GoString} (hw : IsToken w) (hc : isASCIISpace c = true)
    (h : SearchQL.tokenize (w ++ c :: b) = .ok (w :: ws)) : SearchQL.tokenize b = .ok ws := by
  rw [tokenize_append_space hw.tokenize hc] at h
  cases hb : SearchQL.tokenize b with
  | error e =>
    rw [hb] at h
    cases h
  | ok ts =>
    rw [hb] at h
    obtain rfl : ts = ws := by simpa [Except.map] using h
    rfl

/-- The first token of a text that begins with one: the whole text, or what stands before some
white space. -/
theorem tokenize_first (h : tokenize (c :: b) = .ok ts) (hc : isASCIISpace c = false) :
    ∃ w ws, ts = w :: ws ∧ IsToken w ∧
      (c :: b = w ∨ ∃ c' u, isASCIISpace c' = true ∧ c :: b = w ++ c' :: u) := by
  have hlaid := (tokenizeFrom_laid (c :: b)).1
  rw [tokenize] at h
  rw [h] at hlaid
  obtain ⟨⟨w₀, gaps, hsp⟩, htok⟩ := hlaid
  -- nothing stands before the first token
  obtain rfl : w₀ = [] := by
    cases w₀ with
    | nil => rfl
    | cons x w₀ =>
      have hx := hsp.space _ List.mem_cons_self x List.mem_cons_self
      rw [← (List.cons.inj hsp.text).1, hc] at hx
      cases hx
  have htext := hsp.text
  cases ts with
  | nil => cases htext
  | cons w ws =>
    cases gaps with
    | nil => cases hsp.length
    | cons gap gaps =>
      refine ⟨w, ws, rfl, htok w List.mem_cons_self, ?_⟩
      rw [List.zipWith_cons_cons, List.flatten_cons, List.nil_append, List.append_assoc] at htext
      cases gap with
      | cons c' gap =>
        exact .inr ⟨c', _, hsp.space (c' :: gap) (by simp) c' List.mem_cons_self, htext⟩
      | nil =>
        -- only the last gap is empty
        cases gaps with
        | cons gap' gaps => exact absurd rfl (hsp.apart [] (by simp))
        | nil =>
          obtain rfl : ws = [] := by simpa using hsp.length.symm
          exact .inl (by simpa using htext)

end Together

/-! ### Values -/

theorem hasPrefix_byte (s : GoString) (b : UInt8) : hasPrefix s [b] = true ↔ s.head? = some b := by
  cases s with
  | nil => simp
  | cons c s =>
    rw [hasPrefix_iff, List.cons_prefix_cons, List.head?_cons, Option.some.injEq]
    exact ⟨fun h => h.1.symm, fun h => ⟨h.symm, List.nil_prefix⟩⟩

theorem hasSuffix_byte (s : GoString) (b : UInt8) :
    hasSuffix s [b] = true ↔ s.getLast? = some b := by
  rw [hasSuffix_iff]
  constructor
  · rintro ⟨t, rfl⟩
    simp
  · intro h
    obtain ⟨t, rfl⟩ := List.getLast?_eq_some_iff.mp h
    exact ⟨t, rfl⟩

theorem contains_byte (s : GoString) (b : UInt8) : contains s [b] = true ↔ b ∈ s := by
  rw [contains_iff, List.singleton_infix_iff]

/-- A text with stars at its ends, where the flags say so. -/
def starred (leading trailing : Bool) (v : GoString) : GoString :=
  (if leading then [0x2A] else []) ++ v ++ (if trailing then [0x2A] else [])

/-- The wildcard of a text with stars at its ends. -/
def starredWildcard (leading trailing : Bool) : Wildcard :=
  if leading then .wildcardSubstring else if trailing then .wildcardPrefix else .wildcardNone

/-- A text that can stand unquoted, after a star or not. -/
structure Bare (leading : Bool) (v : GoString) : Prop where
  ne_nil : v ≠ []
  star : 0x2A ∉ v
  quote : leading = false → v.head? ≠ some 0x22

theorem parseValue_quoted (inner : GoString) :
    parseValue (0x22 :: (inner ++ [0x22])) = .ok (unescapeQuotes inner, .wildcardNone, true) := by
  have hp : hasPrefix (0x22 :: (inner ++ [0x22])) (str "\"") = true := (hasPrefix_byte _ _).mpr rfl
  have hs : hasSuffix (0x22 :: (inner ++ [0x22])) (str "\"") = true := by
    rw [show str "\"" = [0x22] from rfl, hasSuffix_byte, ← List.cons_append]
    exact List.getLast?_concat
  simp [parseValue, hp, hs, -hasPrefix_iff, -hasSuffix_iff]

theorem parseValue_starred {leading trailing : Bool} {v : GoString} (h : Bare leading v) :
    parseValue (starred leading trailing v) = .ok (v, starredWildcard leading trailing, false) := by
  obtain ⟨hne, hstar, hquote⟩ := h
  obtain ⟨c, v, rfl⟩ := List.exists_cons_of_ne_nil hne
  have hc : c ≠ 0x2A := fun h => hstar (by simp [h])
  have hp : hasPrefix (starred leading trailing (c :: v)) (str "\"") = false := by
    rw [Bool.eq_false_iff, Ne, show str "\"" = [0x22] from rfl, hasPrefix_byte]
    cases leading with
    | true => simp [starred]
    | false => simpa [starred] using hquote rfl
  have hl : hasPrefix (starred leading trailing (c :: v)) (str "*") = leading := by
    rw [Bool.eq_iff_iff, show str "*" = [0x2A] from rfl, hasPrefix_byte]
    cases leading <;> simp [starred, hc]
  have hdrop : (if leading then (starred leading trailing (c :: v)).drop 1
      else starred leading trailing (c :: v)) =
      (c :: v) ++ (if trailing then [0x2A] else []) := by
    cases leading <;> simp [starred]
  have ht : hasSuffix ((c :: v) ++ (if trailing then [0x2A] else [])) (str "*") = trailing := by
    rw [Bool.eq_iff_iff, show str "*" = [0x2A] from rfl, hasSuffix_byte]
    cases trailing with
    | true => exact iff_of_true List.getLast?_concat rfl
    | false =>
      simp only [Bool.false_eq_true, if_false, List.append_nil, iff_false]
      exact fun hlast => hstar (List.mem_of_getLast? hlast)
  have hv : (if trailing then ((c :: v) ++ (if trailing then [0x2A] else [])).dropLast
      else (c :: v) ++ (if trailing then [0x2A] else [])) = c :: v := by
    cases trailing with
    | true => exact List.dropLast_concat
    | false => exact List.append_nil _
  have hcont : contains (c :: v) (str "*") = false := by
    rw [Bool.eq_false_iff, Ne, show str "*" = [0x2A] from rfl, contains_byte]
    exact hstar
  have hlen : decide (0 < ((c :: v) ++ (if trailing then [0x2A] else [])).length) = true := by simp
  simp only [parseValue, hp, Bool.false_eq_true, if_false, hl, hdrop, ht, hlen, Bool.and_true, hv,
    hcont, starredWildcard, reduceCtorEq]
  cases leading <;> cases trailing <;> rfl

/-- What `parseValue` accepts: a quoted text, or a bare one with stars at its ends. -/
theorem parseValue_cases {raw : GoString} {v : GoString × Wildcard × Bool}
    (h : parseValue raw = .ok v) :
    (∃ inner, raw = 0x22 :: (inner ++ [0x22]) ∧ v = (unescapeQuotes inner, .wildcardNone, true)) ∨
      ∃ leading trailing text, raw = starred leading trailing text ∧ Bare leading text ∧
        v = (text, starredWildcard leading trailing, false) := by
  by_cases hq : raw.head? = some 0x22
  · left
    obtain ⟨raw, rfl⟩ := List.head?_eq_some_iff.mp hq
    have hp : hasPrefix (0x22 :: raw) (str "\"") = true := (hasPrefix_byte _ _).mpr rfl
    simp only [parseValue, hp, if_true] at h
    split_ifs at h with hc
    obtain ⟨hraw, hs⟩ : raw ≠ [] ∧ hasSuffix (0x22 :: raw) (str "\"") = true := by
      simpa [-hasSuffix_iff] using hc
    obtain ⟨t, ht⟩ := List.getLast?_eq_some_iff.mp ((hasSuffix_byte _ _).mp hs)
    cases t with
    | nil => exact absurd (List.cons.inj ht).2 hraw
    | cons c inner =>
      simp only [List.cons_append, List.cons.injEq] at ht
      obtain ⟨rfl, rfl⟩ := ht
      refine ⟨inner, rfl, ?_⟩
      rw [← Except.ok.inj h]
      simp
  · right
    have hp : hasPrefix raw (str "\"") = false := by
      rw [Bool.eq_false_iff, Ne, show str "\"" = [0x22] from rfl, hasPrefix_byte]
      exact hq
    -- the text without the leading star
    obtain ⟨leading, rest, rfl, hl⟩ : ∃ leading rest, raw =
        (if leading then [0x2A] else []) ++ rest ∧
        hasPrefix raw (str "*") = leading := by
      cases hl : hasPrefix raw (str "*") with
      | true =>
        obtain ⟨rest, rfl⟩ := (hasPrefix_iff _ _).mp hl
        exact ⟨true, rest, rfl, rfl⟩
      | false => exact ⟨false, raw, rfl, rfl⟩
    -- and without the trailing one
    obtain ⟨trailing, text, rfl, ht⟩ : ∃ trailing text, rest =
        text ++ (if trailing then [0x2A] else []) ∧
        (hasSuffix rest (str "*") && decide (0 < rest.length)) = trailing := by
      cases ht : hasSuffix rest (str "*") && decide (0 < rest.length) with
      | true =>
        obtain ⟨text, rfl⟩ := (hasSuffix_iff _ _).mp (Bool.and_eq_true_iff.mp ht).1
        exact ⟨true, text, rfl, rfl⟩
      | false => exact ⟨false, rest, by simp, rfl⟩
    have hdrop : (if leading then ((if leading then [0x2A] else []) ++
        (text ++ (if trailing then [0x2A] else []))).drop 1
        else (if leading then [0x2A] else []) ++ (text ++ (if trailing then [0x2A] else []))) =
          text ++ (if trailing then [0x2A] else []) := by
      cases leading <;> rfl
    have hlast : (if trailing then (text ++ (if trailing then [0x2A] else [])).dropLast
        else text ++ (if trailing then [0x2A] else [])) = text := by
      cases trailing <;> simp
    have hraw : (if leading then [0x2A] else []) ++ (text ++ (if trailing then [0x2A] else [])) =
        starred leading trailing text := (List.append_assoc _ _ _).symm
    have hok := h
    simp only [parseValue, hp, Bool.false_eq_true, if_false, hl, hdrop, ht, hlast] at h
    have hne : text ≠ [] := fun h0 => by simp [h0] at h
    have hstar : 0x2A ∉ text := fun hmem => by
      have hcont : contains text (str "*") = true := (contains_byte _ _).mpr hmem
      simp [hne, hcont, -contains_iff] at h
    have hbare : Bare leading text := by
      refine ⟨hne, hstar, ?_⟩
      rintro rfl
      obtain ⟨c, text, rfl⟩ := List.exists_cons_of_ne_nil hne
      simpa using hq
    rw [hraw, parseValue_starred hbare] at hok
    exact ⟨leading, trailing, text, hraw, hbare, (Except.ok.inj hok).symm⟩

/-! ### Keys -/

section Keys

variable {U : Unicode} {raw key valueRaw tok : GoString} {neg : Bool}

/-- A token without a key. -/
theorem parseBody_bare (h : tok.head? = some 0x22 ∨ 0x3A ∉ tok) :
    parseBody U raw tok neg =
      match parseValue tok with
      | .error m => .error ⟨raw, m⟩
      | .ok v => .ok (Term.make .freeform v neg) := by
  have hnone : (if hasPrefix tok (str "\"") then none else indexByte tok 0x3A) = none := by
    rcases h with h | h
    · exact if_pos ((hasPrefix_byte _ _).mpr h)
    · rw [indexByte_eq_none h, ite_self]
  rewrite [parseBody, hnone]
  rfl

/-- A token with a key, or at least a colon. -/
theorem parseBody_colon (hq : key.head? ≠ some 0x22) (hc : 0x3A ∉ key) :
    parseBody U raw (key ++ 0x3A :: valueRaw) neg =
      if key = [] then .error ⟨raw, .noKey⟩
      else if valueRaw = [] then .error ⟨raw, .emptyValue⟩
      else
        match knownFields.lookup (toLower U key) with
        | none =>
          if hasPrefix (toLower U key) (str "header.") then parseHeaderTerm raw key valueRaw neg
          else .error ⟨raw, .unknownKey key⟩
        | some field =>
          match parseValue valueRaw with
          | .error m => .error ⟨raw, m⟩
          | .ok v =>
            if field.structured && v.2.1 ≠ .wildcardNone then .error ⟨raw, .wildcardOnField key⟩
            else finishTerm U raw (Term.make field v neg) := by
  have hp : hasPrefix (key ++ 0x3A :: valueRaw) (str "\"") = false := by
    rw [Bool.eq_false_iff, Ne, show str "\"" = [0x22] from rfl, hasPrefix_byte]
    cases key with
    | nil => simp
    | cons c key => exact hq
  have hidx : (if hasPrefix (key ++ 0x3A :: valueRaw) (str "\"") then none
      else indexByte (key ++ 0x3A :: valueRaw) 0x3A) =
      some key.length := by
    rw [hp, if_neg Bool.false_ne_true, indexByte_append hc]
  have hdrop : (key ++ 0x3A :: valueRaw).drop (key.length + 1) = valueRaw := by
    rw [List.drop_append, List.drop_of_length_le (Nat.le_succ _)]
    simp
  have hbody := parseBody.eq_def U raw (key ++ 0x3A :: valueRaw) neg
  simp only [hidx, List.take_left, hdrop, List.length_eq_zero_iff] at hbody
  exact hbody

/-- A token has no key, or it has one that a value follows. -/
theorem token_cases (tok : GoString) :
    (tok.head? = some 0x22 ∨ 0x3A ∉ tok) ∨
      ∃ key valueRaw, tok = key ++ 0x3A :: valueRaw ∧ 0x3A ∉ key ∧ key.head? ≠ some 0x22 := by
  by_cases hq : tok.head? = some 0x22
  · exact .inl (.inl hq)
  · by_cases hc : 0x3A ∈ tok
    · obtain ⟨key, valueRaw, rfl, hkey⟩ := List.eq_append_cons_of_mem hc
      refine .inr ⟨key, valueRaw, rfl, hkey, ?_⟩
      cases key with
      | nil => simp
      | cons c key => exact hq
    · exact .inl (.inr hc)

end Keys

end HttpCatch.SearchQL
