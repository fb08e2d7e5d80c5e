import LispBridge.Bench.Process
import LispBridge.Proofs.Interpreter.Replies
import Mathlib.Logic.ExistsUnique

/-!
Requests that one process serves one after another, and the lines of its output.

* `Exchange.Sound`: a request reads up to the first line that ends it.
* `ProcessBench.Serves`: requests on a test bench, each made when the one before has its outcome.
  A request that can be written has one, or waits for more lines (`answered_or_waiting`).
* `awaitReplies_of_serves`: what they come to is what requests on the whole output come to, no
  matter when its lines arrive.
* `requests_partition_output`: requests read one part of the output after another.
-/

namespace LispBridge

/-! ### One request -/

/-- Lines that end no request, and what they emit. -/
inductive Passes (delimiter : String) : List OutputLine → List Chunk → Prop
  | nil : Passes delimiter [] []
  | cons {line : OutputLine} {lines : List OutputLine} {chunks more : List Chunk}
      (means : Means delimiter line (.passes chunks)) (passes : Passes delimiter lines more) :
      Passes delimiter (line :: lines) (chunks ++ more)

/-- What one request reads, emits and comes to. -/
structure Exchange where
  lines : List OutputLine
  chunks : List Chunk
  outcome : Except Failure Datum

/-- A request reads up to the first line that ends it. Without such a line it reads all there is,
and fails if no more will come. -/
inductive Exchange.Sound (delimiter : String) (after : List OutputLine) : Exchange → Prop
  | ended {front : List OutputLine} {chunks : List Chunk} {line : OutputLine}
      {outcome : Except Failure Datum} (passes : Passes delimiter front chunks)
      (ends : Means delimiter line (.ends outcome)) :
      Sound delimiter after ⟨front ++ [line], chunks, outcome⟩
  | exhausted {lines : List OutputLine} {chunks : List Chunk}
      (passes : Passes delimiter lines chunks) (ended : after = []) :
      Sound delimiter after ⟨lines, chunks, .error (.process "interpreter exited")⟩

section Requests

variable {delimiter : String} {isOver : Bool} {line : OutputLine}
  {lines front rest early late : List OutputLine} {chunks : List Chunk}
  {outcome : Except Failure Datum}

/-- A request does with a line what the line is for it. -/
theorem awaitReply_cons (delimiter : String) (isOver : Bool) (line : OutputLine)
    (rest : List OutputLine) :
    awaitReply delimiter isOver (line :: rest) =
      match line.role delimiter with
      | .ends outcome => .done outcome rest
      | .passes chunks =>
        { awaitReply delimiter isOver rest with
          chunks := chunks ++ (awaitReply delimiter isOver rest).chunks } := by
  rcases line with fault | line
  · rfl
  rw [awaitReply, OutputLine.role]
  cases ReplyLine.classify delimiter line with
  | error fault => rfl
  | ok reply => cases reply <;> rfl

theorem awaitReply_of_ends (ends : Means delimiter line (.ends outcome)) :
    awaitReply delimiter isOver (line :: rest) = .done outcome rest := by
  rw [awaitReply_cons, means_iff.mp ends]

theorem awaitReply_of_passes (means : Means delimiter line (.passes chunks)) :
    awaitReply delimiter isOver (line :: rest) =
      { awaitReply delimiter isOver rest with
        chunks := chunks ++ (awaitReply delimiter isOver rest).chunks } := by
  rw [awaitReply_cons, means_iff.mp means]

/-- Lines that end no request are read, and what they emit comes first. -/
theorem awaitReply_append_of_passes (passes : Passes delimiter front chunks) :
    awaitReply delimiter isOver (front ++ rest) =
      { awaitReply delimiter isOver rest with
        chunks := chunks ++ (awaitReply delimiter isOver rest).chunks } := by
  induction passes with
  | nil => rfl
  | cons means _ ih =>
    rw [List.cons_append, awaitReply_of_passes means, ih]
    simp

/-- There is a first line that ends a request, or there is none. -/
theorem passes_or_ends (delimiter : String) (lines : List OutputLine) :
    (∃ chunks, Passes delimiter lines chunks) ∨
      ∃ front line rest chunks outcome, lines = front ++ line :: rest ∧
        Passes delimiter front chunks ∧ Means delimiter line (.ends outcome) := by
  induction lines with
  | nil => exact .inl ⟨[], .nil⟩
  | cons line lines ih =>
    have means := means_role delimiter line
    cases role : line.role delimiter with
    | ends outcome => exact .inr ⟨[], line, lines, [], outcome, rfl, .nil, role ▸ means⟩
    | passes chunks =>
      rw [role] at means
      rcases ih with ⟨more, passes⟩ | ⟨front, last, rest, more, outcome, rfl, passes, ends⟩
      · exact .inl ⟨chunks ++ more, .cons means passes⟩
      · exact .inr ⟨line :: front, last, rest, chunks ++ more, outcome, rfl, .cons means passes,
          ends⟩

theorem awaitReply_of_ended (passes : Passes delimiter front chunks)
    (ends : Means delimiter line (.ends outcome)) :
    awaitReply delimiter isOver (front ++ line :: rest) = ⟨chunks, some outcome, rest⟩ := by
  rw [awaitReply_append_of_passes passes, awaitReply_of_ends ends]
  simp [Harvest.done]

theorem awaitReply_of_exhausted (passes : Passes delimiter lines chunks) :
    awaitReply delimiter isOver lines =
      ⟨chunks, if isOver then some (.error (.process "interpreter exited")) else none, []⟩ := by
  have whole : awaitReply delimiter isOver (lines ++ []) = _ := awaitReply_append_of_passes passes
  rw [List.append_nil] at whole
  rw [whole]
  simp [awaitReply, Harvest.wait]
  rfl

/-- **Output may arrive in any parts.** What a request reads of the first part and then of the
second one is what it reads of both together. -/
theorem awaitReply_append (early late : List OutputLine) :
    awaitReply delimiter isOver (early ++ late) =
      match awaitReply delimiter false early with
      | ⟨chunks, none, _⟩ =>
        { awaitReply delimiter isOver late with
          chunks := chunks ++ (awaitReply delimiter isOver late).chunks }
      | ⟨chunks, some outcome, rest⟩ => ⟨chunks, some outcome, rest ++ late⟩ := by
  rcases passes_or_ends delimiter early with
    ⟨chunks, passes⟩ | ⟨front, line, rest, chunks, outcome, rfl, passes, ends⟩
  · rw [awaitReply_append_of_passes passes, awaitReply_of_exhausted passes]
    rfl
  · rw [awaitReply_of_ended passes ends, List.append_assoc, List.cons_append,
      awaitReply_of_ended passes ends]

end Requests

/-! ### Requests on a test bench -/

namespace ProcessBench

/-- The lines that the process has written and nobody has read. -/
def unread (b : ProcessBench) : List OutputLine :=
  match b.process with
  | some p => p.stdout.lines
  | none => []

/-- A process whose output is over has exited. -/
def IsWhole (b : ProcessBench) : Prop :=
  ∀ p, b.process = some p → p.stdout.isOver = true → p.child.isAlive = false

/-- A request, what the process writes when it reads it, and what comes of it. -/
structure Served where
  call : Call
  written : List OutputLine
  chunks : List Chunk
  outcome : Except Failure Datum

/-- Requests one after another, as `request` makes each of them. Each can be written, and has its
outcome before the next is made. -/
inductive Serves : ProcessBench → List Served → ProcessBench → Prop
  | nil (b : ProcessBench) : Serves b [] b
  | cons {b b₁ b₂ b₃ : ProcessBench} {s : Served} {served : List Served}
      (wrote : b.writeLine (s.call.form?.getD "") = (b₁, .ok ()))
      (heard : b₁.unread = b.unread ++ s.written)
      (emits : (b.begin s.call).emitted = b₁.emitted ++ s.chunks)
      (answered : (b.begin s.call).join = (b₂, some s.outcome))
      (serves : Serves b₂ served b₃) :
      Serves b (s :: served) b₃

section Serves

variable {b b₁ b₂ b₃ : ProcessBench} {c : Call} {p : RunningChild} {text : String}
  {served : List Served}

/-- A line is written to a process that is alive, which then goes on. -/
theorem exists_of_writeLine (wrote : b.writeLine text = (b₁, .ok ())) :
    ∃ p child out, b.process = some p ∧ p.child.isAlive = true ∧ b₁ =
      { (b.goOn p.stdout child out).1 with process := some (b.goOn p.stdout child out).2 } := by
  rw [writeLine] at wrote
  split at wrote
  · cases wrote
  rename_i p running
  split at wrote
  · next alive =>
    cases wrote
    exact ⟨p, _, _, running, alive, rfl⟩
  · cases wrote

theorem launch_writeLine (wrote : b.writeLine text = (b₁, .ok ())) : b₁.launch = b.launch := by
  obtain ⟨p, child, out, -, -, rfl⟩ := exists_of_writeLine wrote
  rfl

theorem running_of_writeLine (wrote : b.writeLine text = (b₁, .ok ())) :
    ∃ p, b₁.process = some p := by
  obtain ⟨p, child, out, -, -, rfl⟩ := exists_of_writeLine wrote
  exact ⟨_, rfl⟩

/-- The output of a process is not over before the process exits. -/
theorem IsWhole.writeLine (whole : b.IsWhole) (wrote : b.writeLine text = (b₁, .ok ())) :
    b₁.IsWhole := by
  obtain ⟨p, child, out, running, alive, rfl⟩ := exists_of_writeLine wrote
  rintro q same ended
  obtain rfl := Option.some.inj same
  cases alive' : child.isAlive with
  | false => exact alive'
  | true =>
    -- The process goes on without ending its output, so the output was over while it was alive.
    simp only [goOn, alive', if_true] at ended
    exact absurd alive (by simp [whole p running ended])

/-- A request reads what there is to read. -/
theorem begin_eq {h : Harvest Datum} (wrote : b.writeLine (c.form?.getD "") = (b₁, .ok ()))
    (running : b₁.process = some p)
    (reads : awaitReply b₁.launch.delimiter p.stdout.isOver p.stdout.lines = h) :
    b.begin c = { b₁ with
      emitted := b₁.emitted ++ h.chunks
      process := some { p with stdout.lines := h.rest }
      background := match h.outcome with
        | some outcome => .done outcome
        | none => .waiting } := by
  simp only [begin, wrote, readOn, running, emit]
  subst reads
  rfl

/-- A request that has its outcome is done with a part of what the process has written by then. -/
theorem begin_answered {chunks : List Chunk} {outcome : Except Failure Datum} (whole : b.IsWhole)
    (wrote : b.writeLine (c.form?.getD "") = (b₁, .ok ()))
    (emits : (b.begin c).emitted = b₁.emitted ++ chunks)
    (answered : (b.begin c).join = (b₂, some outcome)) :
    b₂.IsWhole ∧ b₂.launch = b.launch ∧ ∃ p, b₂.process = some p ∧
      awaitReply b.launch.delimiter p.stdout.isOver b₁.unread =
        ⟨chunks, some outcome, b₂.unread⟩ := by
  have launch := launch_writeLine wrote
  have whole' := whole.writeLine wrote
  obtain ⟨p, running⟩ := running_of_writeLine wrote
  have unread : b₁.unread = p.stdout.lines := by rw [unread, running]
  rw [unread, ← launch]
  cases reads : awaitReply b₁.launch.delimiter p.stdout.isOver p.stdout.lines with
  | mk read result rest =>
    rw [begin_eq wrote running reads] at emits answered
    obtain rfl := List.append_cancel_left emits
    cases result with
    | none => cases answered
    | some outcome' =>
      cases answered
      refine ⟨?_, rfl, _, rfl, reads⟩
      intro q same ended
      obtain rfl := Option.some.inj same
      exact whole' p running ended

/-- **What requests come to does not depend on when the lines arrive.** Requests on a running
process come to what requests on all of its output do. -/
theorem awaitReplies_of_serves (serves : Serves b served b₃) (whole : b.IsWhole) :
    awaitReplies b.launch.delimiter true served.length
        (b.unread ++ served.flatMap Served.written) =
      (served.map fun s => (s.chunks, some s.outcome), b₃.unread) := by
  induction serves with
  | nil b => simp [awaitReplies]
  | @cons b b₁ b₂ b₃ s served wrote heard emits answered serves ih =>
    obtain ⟨whole', launch, p, running, reads⟩ := begin_answered whole wrote emits answered
    have later := ih whole'
    rw [launch] at later
    rw [List.flatMap_cons, ← List.append_assoc, ← heard, List.length_cons, List.map_cons]
    have first : awaitReply b.launch.delimiter true
        (b₁.unread ++ served.flatMap Served.written) =
          ⟨s.chunks, some s.outcome, b₂.unread ++ served.flatMap Served.written⟩ := by
      cases ended : p.stdout.isOver with
      | false => rw [awaitReply_append, ← ended, reads]
      | true =>
        -- The process has exited, and no request can be written to it any more.
        have none : served = [] := by
          cases serves with
          | nil => rfl
          | cons wrote' =>
            obtain ⟨q, -, -, running', alive, -⟩ := exists_of_writeLine wrote'
            obtain rfl := Option.some.inj (running.symm.trans running')
            exact absurd alive (by simp [whole' p running ended])
        rw [ended] at reads
        simp [none, reads]
    rw [awaitReplies, first]
    simp only [later]

/-- A request that can be written is answered, or it has passed all that the process has written and
waits for more. -/
theorem answered_or_waiting
    (wrote : b.writeLine (c.form?.getD "") = (b₁, .ok ())) :
    (∃ outcome, (b.begin c).background = .done outcome) ∨
      (b.begin c).background = .waiting ∧ ∃ p, b₁.process = some p ∧ p.stdout.isOver = false ∧
        ∃ chunks, Passes b₁.launch.delimiter p.stdout.lines chunks := by
  obtain ⟨p, running⟩ := running_of_writeLine wrote
  rcases passes_or_ends b₁.launch.delimiter p.stdout.lines with
    ⟨chunks, passes⟩ | ⟨front, line, rest, chunks, outcome, split, passes, ends⟩
  · rw [begin_eq wrote running (awaitReply_of_exhausted passes)]
    cases ended : p.stdout.isOver with
    | true => exact .inl ⟨_, rfl⟩
    | false => exact .inr ⟨rfl, p, running, ended, chunks, passes⟩
  · rw [begin_eq wrote running (split ▸ awaitReply_of_ended passes ends)]
    exact .inl ⟨outcome, rfl⟩

end Serves

end ProcessBench

/-! ### Requests one after another -/

/-- Once the output is over, every request comes to an end. -/
theorem exists_exchange (delimiter : String) (lines : List OutputLine) :
    ∃ (e : Exchange) (after : List OutputLine), lines = e.lines ++ after ∧ e.Sound delimiter after ∧
      awaitReply delimiter true lines = ⟨e.chunks, some e.outcome, after⟩ := by
  rcases passes_or_ends delimiter lines with
    ⟨chunks, passes⟩ | ⟨front, line, rest, chunks, outcome, rfl, passes, ends⟩
  · refine ⟨⟨lines, chunks, _⟩, [], (List.append_nil lines).symm, .exhausted passes rfl, ?_⟩
    rw [awaitReply_of_exhausted passes]
    rfl
  · refine ⟨⟨front ++ [line], chunks, outcome⟩, rest, by simp, .ended passes ends, ?_⟩
    rw [awaitReply_of_ended passes ends]

/-- Every request reads on where the one before it ended. -/
theorem exists_exchanges (delimiter : String) (n : Nat) (lines : List OutputLine) :
    ∃ (exchanges : List Exchange) (rest : List OutputLine), exchanges.length = n ∧
      lines = exchanges.flatMap Exchange.lines ++ rest ∧
      awaitReplies delimiter true n lines =
        (exchanges.map fun e => (e.chunks, some e.outcome), rest) ∧
      ∀ before e later, exchanges = before ++ e :: later →
        e.Sound delimiter (later.flatMap Exchange.lines ++ rest) := by
  induction n generalizing lines with
  | zero => exact ⟨[], lines, rfl, rfl, rfl, by simp⟩
  | succ n ih =>
    obtain ⟨e, after, rfl, sound, reads⟩ := exists_exchange delimiter lines
    obtain ⟨exchanges, rest, length, rfl, serves, each⟩ := ih after
    refine ⟨e :: exchanges, rest, by rw [List.length_cons, length], by simp, ?_, ?_⟩
    · rw [awaitReplies, reads]
      simp only [serves, List.map_cons]
    · intro before x later split
      rcases before with - | ⟨y, before⟩
      · obtain ⟨rfl, rfl⟩ := List.cons.inj split
        exact sound
      · exact each before x later (List.cons.inj split).2

/-- **Requests one after another partition the output of a process.** Each reads on where the one
before it ended, up to the first line that ends it, or to the end of the output; nothing is read
twice or passed over. It emits what its lines stand for, in their order, and comes to what the line
that ends it says. On a test bench this is so no matter when the lines arrive. -/
theorem requests_partition_output (delimiter : String) (n : Nat) (lines : List OutputLine) :
    (∀ line, ∃! role, Means delimiter line role) ∧
      ∃ (exchanges : List Exchange) (rest : List OutputLine), exchanges.length = n ∧
        lines = exchanges.flatMap Exchange.lines ++ rest ∧
        awaitReplies delimiter true n lines =
          (exchanges.map fun e => (e.chunks, some e.outcome), rest) ∧
        (∀ before e later, exchanges = before ++ e :: later →
          e.Sound delimiter (later.flatMap Exchange.lines ++ rest)) ∧
        ∀ (b b' : ProcessBench) (served : List ProcessBench.Served), b.Serves served b' →
          b.IsWhole → b.launch.delimiter = delimiter → served.length = n →
          b.unread ++ served.flatMap ProcessBench.Served.written = lines →
            (served.map fun s => (s.chunks, some s.outcome)) =
              (exchanges.map fun e => (e.chunks, some e.outcome)) ∧ b'.unread = rest := by
  constructor
  · exact fun line => ⟨line.role delimiter, means_role delimiter line,
      fun _ means => (means_iff.mp means).symm⟩
  · obtain ⟨exchanges, rest, length, split, reads, each⟩ := exists_exchanges delimiter n lines
    refine ⟨exchanges, rest, length, split, reads, each, ?_⟩
    rintro b b' served serves whole rfl rfl rfl
    have same := (ProcessBench.awaitReplies_of_serves serves whole).symm.trans reads
    exact Prod.mk.inj same

theorem readAll_silent (lines : List String) :
    Child.readAll { script := {} } lines = ({ script := {} }, {}) := by
  induction lines with
  | nil => rfl
  | cons line lines ih =>
    rw [Child.readAll, List.foldl_cons]
    exact ih

/-- Two requests to a process that has written a line of output, a reply, something that is no reply
and more output. -/
theorem requests_partition_output_of_two :
    let lines : List OutputLine := [.ok "a", .ok ";;(:ok 7)", .ok ";;x", .ok "b"]
    let process : RunningChild := ⟨{ script := {} }, { lines }⟩
    let launch : Launch := { program := "lisp", delimiter := ";;", script := .ok {} }
    let first : ProcessBench.Served := ⟨.eval "7", [], [⟨"a\n", false⟩], .ok (.int 7)⟩
    let second : ProcessBench.Served := ⟨.reset, [], [], .error (.process "unrecognised reply x")⟩
    ∃ (b' : ProcessBench) (exchanges : List Exchange),
      ProcessBench.Serves { launch, process := some process } [first, second] b' ∧
        lines = exchanges.flatMap Exchange.lines ++ b'.unread ∧ b'.unread = [.ok "b"] ∧
        (exchanges.map fun e => (e.chunks, some e.outcome)) =
          [(first.chunks, some first.outcome), (second.chunks, some second.outcome)] := by
  intro lines process launch first second
  let served (rest : List OutputLine) (emitted : List Chunk) : ProcessBench :=
    { launch, process := some ⟨{ script := {} }, { lines := rest }⟩, emitted }
  have wrote (rest : List OutputLine) (emitted : List Chunk) (text : String) :
      (served rest emitted).writeLine text = (served rest emitted, .ok ()) := by
    simp only [served, ProcessBench.writeLine, if_true, readAll_silent]
    simp [ProcessBench.goOn, ProcessBench.emit, Stdout.feed, Stdout.cut]
  have reads : awaitReply ";;" false lines =
      ⟨first.chunks, some first.outcome, [.ok ";;x", .ok "b"]⟩ := rfl
  have reads' : awaitReply ";;" false [.ok ";;x", .ok "b"] =
      ⟨second.chunks, some second.outcome, [.ok "b"]⟩ := rfl
  have begun := ProcessBench.begin_eq (wrote lines [] (first.call.form?.getD "")) rfl reads
  have begun' := ProcessBench.begin_eq
    (wrote [.ok ";;x", .ok "b"] first.chunks (second.call.form?.getD "")) rfl reads'
  have serves : ProcessBench.Serves (served lines []) [first, second]
      (served [.ok "b"] first.chunks) := by
    refine .cons (wrote _ _ _) (List.append_nil _).symm ?_ ?_
      (.cons (wrote [.ok ";;x", .ok "b"] first.chunks _) (List.append_nil _).symm ?_ ?_ (.nil _))
    · rw [begun]
    · rw [begun]
      rfl
    · rw [begun']
    · rw [begun']
      rfl
  have whole : (served lines []).IsWhole := by
    rintro p same ended
    cases same
    cases ended
  obtain ⟨-, exchanges, rest, -, split, -, -, bench⟩ := requests_partition_output ";;" 2 lines
  obtain ⟨same, rfl⟩ := bench _ _ _ serves whole rfl rfl rfl
  exact ⟨_, exchanges, serves, split, rfl, same.symm⟩

end LispBridge
