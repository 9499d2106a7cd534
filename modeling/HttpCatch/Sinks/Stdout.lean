import HttpCatch.Pipeline.Sound
import HttpCatch.Sinks.RecordJson

/-!
# The stdout sink

`StdoutSink` of `internal/sinks/stdout.go` writes each record as a line of JSON, under a mutex, so
that the lines of several workers do not mix. The `json.Encoder` below it keeps the first error of
the writer and does nothing any more after it; a record whose timestamp cannot be written is an
error too, but leaves the encoder as it was.

The writer may fail anywhere in a line, and the line is cut there. `readBack` is what can be read
of the output: its complete lines, each as a record.

* `Prints.step` — what a call leaves of the output: lines of records, and a rest that is no line.
* `stdout_journal` — whatever the pipeline does, the lines on stdout are accepted records, redacted,
  each once, and they have all whose `Write` succeeded.
* `sinks_agree` — a line and the detail page of SQLite show the same record.
-/

namespace HttpCatch.Sinks

open HttpCatch.Go HttpCatch.Capture HttpCatch.Json HttpCatch.Pipeline

/-! ### The sink -/

/-- What the writer under the encoder does with a line. -/
inductive WriterResult where
  /-- It takes all of it. -/
  | ok
  /-- It fails after so many bytes. -/
  | failed (n : ℕ)

/-- The sink: what the writer has taken, and whether the encoder has an error. -/
structure StdoutSink where
  out : GoString
  err : Bool

/-- `NewWriterSink`. -/
def newWriterSink : StdoutSink := ⟨[], false⟩

/-- `Write`, and whether it returns nil. -/
def StdoutSink.write (s : StdoutSink) (zone : ℤ) (r : Record) (w : WriterResult) :
    StdoutSink × Bool :=
  if s.err then (s, false)
  else
    match envelope zone r with
    | none => (s, false)
    | some v =>
      let line := v.text ++ [0x0A]
      match w with
      | .ok => (⟨s.out ++ line, false⟩, true)
      | .failed n => (⟨s.out ++ line.take n, true⟩, false)

/-! ### Reading the output -/

/-- The complete lines of a text, after the start of one. -/
def completeLines (start : GoString) : GoString → List GoString
  | [] => []
  | b :: s => if b = 0x0A then start :: completeLines [] s else completeLines (start ++ [b]) s

/-- The records in the output; none for a line that is no record. -/
def readBack (out : GoString) : List (Option Record) :=
  (completeLines [] out).map fun line => (readJSON line).bind readRecord

theorem completeLines_line {line : GoString} (h : (0x0A : UInt8) ∉ line) (start s : GoString) :
    completeLines start (line ++ 0x0A :: s) = (start ++ line) :: completeLines [] s := by
  induction line generalizing start with
  | nil => simp [completeLines]
  | cons b line ih =>
    have hb : b ≠ 0x0A := fun heq => h (heq ▸ List.mem_cons_self)
    rw [List.cons_append, completeLines, if_neg hb, ih fun hmem => h (List.mem_cons_of_mem _ hmem)]
    simp

theorem completeLines_rest {rest : GoString} (h : (0x0A : UInt8) ∉ rest) (start : GoString) :
    completeLines start rest = [] := by
  induction rest generalizing start with
  | nil => rfl
  | cons b rest ih =>
    have hb : b ≠ 0x0A := fun heq => h (heq ▸ List.mem_cons_self)
    rw [completeLines, if_neg hb, ih fun hmem => h (List.mem_cons_of_mem _ hmem)]

theorem completeLines_lines {lines : List GoString} (h : ∀ line ∈ lines, (0x0A : UInt8) ∉ line)
    {rest : GoString} (hrest : (0x0A : UInt8) ∉ rest) :
    completeLines [] (lines.flatMap (· ++ [0x0A]) ++ rest) = lines := by
  induction lines with
  | nil => exact completeLines_rest hrest []
  | cons line lines ih =>
    obtain ⟨hline, hlines⟩ := List.forall_mem_cons.1 h
    rw [List.flatMap_cons, List.append_assoc, List.append_assoc, List.singleton_append,
      completeLines_line hline, ih hlines, List.nil_append]

/-! ### Runs -/

/-- The line is that of the record, in some zone. -/
def IsLine (r : Record) (line : GoString) : Prop :=
  ∃ zone v, envelope zone r = some v ∧ line = v.text

theorem IsLine.newline_notMem {r : Record} {line : GoString} (h : IsLine r line) :
    (0x0A : UInt8) ∉ line := by
  obtain ⟨zone, v, -, rfl⟩ := h
  exact newline_notMem_text v

theorem IsLine.readBack {r : Record} {line : GoString} (h : IsLine r line) :
    (readJSON line).bind readRecord = some (legible r) := by
  obtain ⟨zone, v, hv, rfl⟩ := h
  rw [readJSON_text, Option.bind_some, readRecord_envelope hv]

/-- The sink after the calls of the pipeline, where it has the number `k`. -/
inductive Printed (k : ℕ) : List Written → StdoutSink → Prop
  | nil : Printed k [] newWriterSink
  /-- A call of another sink. -/
  | other {ws : List Written} {s : StdoutSink} {w : Written} (h : Printed k ws s)
      (hw : w.sink ≠ k) : Printed k (ws ++ [w]) s
  /-- A call of `Write`, which does not panic. -/
  | write {ws : List Written} {s : StdoutSink} {w : Written} (h : Printed k ws s) (hw : w.sink = k)
      (zone : ℤ) (result : WriterResult)
      (hout : w.outcome = if (s.write zone w.value result).2 then .ok else .error) :
      Printed k (ws ++ [w]) (s.write zone w.value result).1

/-- What the output consists of: the lines of some calls, among them all that succeeded, and a
rest without an end of line, which is empty while there is no error. -/
structure Prints (k : ℕ) (ws : List Written) (s : StdoutSink) (printed : List Written)
    (lines : List GoString) (rest : GoString) : Prop where
  out : s.out = lines.flatMap (· ++ [0x0A]) ++ rest
  isLine : List.Forall₂ (fun w line => IsLine w.value line) printed lines
  noLine : (0x0A : UInt8) ∉ rest
  whole : s.err = false → rest = []
  sublist : printed.Sublist ws
  sink : ∀ w ∈ printed, w.sink = k
  complete : ∀ w ∈ ws, w.sink = k → w.outcome = .ok → w ∈ printed

section Run

variable {k : ℕ} {ws : List Written} {s : StdoutSink} {printed : List Written}
  {lines : List GoString} {rest : GoString} {w : Written}

/-- A call that prints nothing. -/
theorem Prints.silent (h : Prints k ws s printed lines rest)
    (hw : w.sink = k → w.outcome ≠ .ok) : Prints k (ws ++ [w]) s printed lines rest := by
  refine { h with sublist := h.sublist.trans (List.sublist_append_left _ _), complete := ?_ }
  intro w' hmem hsink hok
  rcases List.mem_append.1 hmem with hmem | hmem
  · exact h.complete w' hmem hsink hok
  · obtain rfl := List.mem_singleton.1 hmem
    exact absurd hok (hw hsink)

/-- A call that prints its line. -/
theorem Prints.line (h : Prints k ws s printed lines []) (hw : w.sink = k) {line : GoString}
    (hline : IsLine w.value line) (err : Bool) :
    Prints k (ws ++ [w]) ⟨s.out ++ (line ++ [0x0A]), err⟩ (printed ++ [w]) (lines ++ [line])
      [] where
  out := by
    rw [h.out, List.flatMap_append, List.flatMap_singleton]
    simp
  isLine := List.rel_append h.isLine (.cons hline .nil)
  noLine := List.not_mem_nil
  whole _ := rfl
  sublist := h.sublist.append (List.Sublist.refl _)
  sink := by
    intro w' hmem
    rcases List.mem_append.1 hmem with hmem | hmem
    · exact h.sink w' hmem
    · rw [List.mem_singleton.1 hmem, hw]
  complete := by
    intro w' hmem hsink hok
    rcases List.mem_append.1 hmem with hmem | hmem
    · exact List.mem_append_left _ (h.complete w' hmem hsink hok)
    · exact List.mem_append_right _ hmem

/-- A call that prints the start of its line. -/
theorem Prints.torn (h : Prints k ws s printed lines []) (hw : w.outcome ≠ .ok) {torn : GoString}
    (htorn : (0x0A : UInt8) ∉ torn) :
    Prints k (ws ++ [w]) ⟨s.out ++ torn, true⟩ printed lines torn where
  out := by rw [h.out, List.append_nil]
  isLine := h.isLine
  noLine := htorn
  whole := nofun
  sublist := h.sublist.trans (List.sublist_append_left _ _)
  sink := h.sink
  complete := (h.silent fun _ => hw).complete

/-- One call. -/
theorem Prints.step (h : Prints k ws s printed lines rest) (hw : w.sink = k) (zone : ℤ)
    (result : WriterResult)
    (hout : w.outcome = if (s.write zone w.value result).2 then .ok else .error) :
    ∃ printed' lines' rest',
      Prints k (ws ++ [w]) (s.write zone w.value result).1 printed' lines' rest' := by
  cases herr : s.err with
  | true =>
    have hwrite : s.write zone w.value result = (s, false) := by rw [StdoutSink.write, herr]; rfl
    rw [hwrite] at hout ⊢
    exact ⟨_, _, _, h.silent fun _ => by rw [hout]; nofun⟩
  | false =>
    obtain rfl := h.whole herr
    cases hv : envelope zone w.value with
    | none =>
      have hwrite : s.write zone w.value result = (s, false) := by
        rw [StdoutSink.write, herr, hv]
        rfl
      rw [hwrite] at hout ⊢
      exact ⟨_, _, _, h.silent fun _ => by rw [hout]; nofun⟩
    | some v =>
      have hline : IsLine w.value v.text := ⟨zone, v, hv, rfl⟩
      cases result with
      | ok =>
        have hwrite : s.write zone w.value .ok = (⟨s.out ++ (v.text ++ [0x0A]), false⟩, true) := by
          rw [StdoutSink.write, herr, hv]
          rfl
        rw [hwrite]
        exact ⟨_, _, _, h.line hw hline false⟩
      | failed n =>
        have hwrite : s.write zone w.value (.failed n) =
            (⟨s.out ++ (v.text ++ [0x0A]).take n, true⟩, false) := by
          rw [StdoutSink.write, herr, hv]
          rfl
        rw [hwrite] at hout ⊢
        rcases le_or_gt n v.text.length with hle | hgt
        · -- the line is cut before its end
          rw [List.take_append_of_le_length hle]
          refine ⟨_, _, _, h.torn (by rw [hout]; nofun) fun hmem => ?_⟩
          exact newline_notMem_text v (List.mem_of_mem_take hmem)
        · rw [List.take_of_length_le (by simpa using hgt)]
          exact ⟨_, _, _, h.line hw hline true⟩

theorem Printed.prints (h : Printed k ws s) :
    ∃ printed lines rest, Prints k ws s printed lines rest := by
  induction h with
  | nil =>
    exact ⟨[], [], [], ⟨rfl, .nil, List.not_mem_nil, fun _ => rfl, .slnil, List.forall_mem_nil _,
      List.forall_mem_nil _⟩⟩
  | other _ hw ih =>
    obtain ⟨printed, lines, rest, ih⟩ := ih
    exact ⟨printed, lines, rest, ih.silent fun hsink => absurd hsink hw⟩
  | write _ hw zone result hout ih =>
    obtain ⟨printed, lines, rest, ih⟩ := ih
    exact ih.step hw zone result hout

theorem newline_notMem_lines (h : List.Forall₂ (fun w line => IsLine w.value line) printed lines) :
    ∀ line ∈ lines, (0x0A : UInt8) ∉ line := by
  induction h with
  | nil => exact List.forall_mem_nil _
  | cons hline _ ih => exact List.forall_mem_cons.2 ⟨hline.newline_notMem, ih⟩

theorem readBack_lines (h : List.Forall₂ (fun w line => IsLine w.value line) printed lines) :
    (lines.map fun line => (readJSON line).bind readRecord) =
      printed.map fun w => some (legible w.value) := by
  induction h with
  | nil => rfl
  | cons hline _ ih => rw [List.map_cons, List.map_cons, hline.readBack, ih]

/-- What can be read of the output. -/
theorem Prints.readBack (h : Prints k ws s printed lines rest) :
    readBack s.out = printed.map fun w => some (legible w.value) := by
  rw [Sinks.readBack, h.out, completeLines_lines (newline_notMem_lines h.isLine) h.noLine,
    readBack_lines h.isLine]

end Run

/-- **The journal on stdout.** Whatever the requests, the workers, the other sinks and the writer
do: the lines on stdout can be read, and they are accepted records after redaction, no record
twice. Every record whose `Write` returned nil is among them. -/
theorem stdout_journal (cfg : Pipeline.Config) (s : State) (hr : Reachable cfg s) (k : ℕ)
    (sink : StdoutSink) (hp : Printed k s.writes sink) :
    ∃ tickets : List ℕ, tickets.Nodup ∧
      readBack sink.out = tickets.map (fun t =>
        (accepted s.attempts)[t]?.map fun rec => legible (cfg.redactor rec)) ∧
      (∀ t ∈ tickets, t < (accepted s.attempts).length) ∧
      ∀ w ∈ s.writes, w.sink = k → w.outcome = .ok → w.ticket ∈ tickets := by
  obtain ⟨printed, lines, rest, h⟩ := hp.prints
  have hinv := hr.inv
  refine ⟨printed.map Written.ticket, ?_, ?_, ?_, ?_⟩
  · -- the sink is called once for a ticket
    have hcalls : (printed.map Written.call).Nodup := by
      refine List.nodup_iff_count_le_one.2 fun p => ?_
      exact ((h.sublist.map _).count_le p).trans (hinv.writes_le_one p.1 p.2)
    have hpair : printed.map Written.call = (printed.map Written.ticket).map fun t => (k, t) := by
      rw [List.map_map]
      refine List.map_congr_left fun w hw => ?_
      rw [Function.comp_apply, Written.call, h.sink w hw]
    rw [hpair] at hcalls
    exact hcalls.of_map _
  · rw [h.readBack, List.map_map]
    refine List.map_congr_left fun w hw => ?_
    obtain ⟨-, rec, hrec, hvalue⟩ := hinv.faithful.writes w (h.sublist.subset hw)
    rw [Function.comp_apply, hrec, hvalue]
    rfl
  · intro t ht
    obtain ⟨w, hw, rfl⟩ := List.mem_map.1 ht
    obtain ⟨-, rec, hrec, -⟩ := hinv.faithful.writes w (h.sublist.subset hw)
    exact (List.getElem?_eq_some_iff.1 hrec).1
  · intro w hw hsink hok
    exact List.mem_map_of_mem (h.complete w hw hsink hok)

/-- One worker and stdout. -/
def stdoutConfig : Pipeline.Config := ⟨1, 1, [str "stdout"], id⟩

/-- A request that was printed. -/
theorem stdout_journal_one : ∃ s : State, ∃ sink, Reachable stdoutConfig s ∧
    Printed 0 s.writes sink ∧ s.writes.length = 1 ∧ ∃ tickets : List ℕ, 0 ∈ tickets ∧
      readBack sink.out = tickets.map fun t =>
        (accepted s.attempts)[t]?.map fun rec => legible rec := by
  let r := CapturedRequest.blank (str "r") 0 (str "c")
  have hsend : Reachable stdoutConfig _ :=
    (Relation.ReflTransGen.refl.tail (.capture _ (some r))).tail
      (@Step.send stdoutConfig _ [] [] .capture (.request r) [] rfl (by decide))
  have hredact := (hsend.tail (@Step.receive stdoutConfig _ [] [] 0 (.request r) [] rfl rfl)).tail
    (@Step.redact stdoutConfig _ [] [] 0 (.request r) rfl)
  have hwrite := hredact.tail
    (@Step.write stdoutConfig _ [] [] 0 0 (.request r) .ok rfl Nat.one_pos (by decide))
  have hprinted : Printed 0 [⟨0, 0, .request r, .ok⟩] _ :=
    @Printed.write 0 [] _ ⟨0, 0, .request r, .ok⟩ .nil rfl 0 .ok rfl
  obtain ⟨tickets, -, hread, -, hall⟩ := stdout_journal stdoutConfig _ hwrite 0 _ hprinted
  exact ⟨_, _, hwrite, hprinted, rfl, tickets, hall _ List.mem_cons_self rfl rfl, hread⟩

/-! ### Both sinks -/

/-- **A line and the detail page of SQLite show the same record.** For a stored record of UTF-8: its
line reads back as the record, and so does its row, but for what the table of events has no column
for. -/
theorem sinks_agree (rs : List Record) (hid : (rs.map Record.id).Nodup) {r : Record} (hr : r ∈ rs)
    (hutf8 : Utf8 r) (ht : Representable r.timestamp) {line : GoString} (hline : IsLine r line) :
    ∃ r' d, (readJSON line).bind readRecord = some r' ∧ Same r' r ∧
      readDetail jsonUnmarshal (stored rs) r.id = .ok d ∧ (Same d.root r ↔ Kept r) := by
  obtain ⟨l, hdetail, -⟩ := readDetail_stored (fun a _ => jsonUnmarshal_parses a) hid hr
  exact ⟨legible r, _, hline.readBack, legible_same hutf8, hdetail,
    reread_same (jsonUnmarshal_reads hutf8) ht⟩

/-- A request, which has a column for everything. -/
theorem sinks_agree_login : ∃ line r' d, IsLine (.request loginRequest) line ∧
    (readJSON line).bind readRecord = some r' ∧ Same r' (.request loginRequest) ∧
      readDetail jsonUnmarshal (stored [.request loginRequest]) (str "r") = .ok d ∧
      Same d.root (.request loginRequest) := by
  obtain ⟨line, hline⟩ : ∃ line, IsLine (.request loginRequest) line := ⟨_, 0, _, rfl, rfl⟩
  obtain ⟨r', d, hread, hsame, hdetail, hkept⟩ := sinks_agree [.request loginRequest] (by decide)
    List.mem_cons_self (by decide) (by decide) hline
  exact ⟨line, r', d, hline, hread, hsame, hdetail, hkept.2 trivial⟩

end HttpCatch.Sinks
