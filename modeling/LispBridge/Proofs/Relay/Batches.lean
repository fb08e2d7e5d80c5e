import LispBridge.Proofs.Relay.Desk

/-!
Uses of a relay that nobody interferes with.

`Relay.flush` and `Relay.drive` tell in one go what is forwarded, and what is left of the relay.
Both are runs of a desk on which a single use is made from its beginning to its return
(`Desk.returns_flush`, `Desk.returns_discard`, `Desk.returns_drive`).
-/

namespace LispBridge

open RelayEvent RelayStage

variable {α : Type}

namespace Desk

variable {d d' : Desk α} {id : Nat} {stage : RelayStage α}

/-- Whether a run of a desk forwards these chunks, leaves this relay and ends with the return of a
use, and nothing else is different after it. -/
def Returns (d : Desk α) (id : Nat) (result : List Chunk × Relay) (answer : RelayAnswer α) : Prop :=
  ∃ ls d', d.run ls = some d' ∧ d'.lock = d.lock ∧ d'.stage = d.stage ∧ d'.relay = result.2 ∧
    d'.outbox = d.outbox ++ result.1.map Chunk.response ∧
      ∃ log, d'.log = log ++ [.returned id answer]

/-! ### A single use -/

/-- Whether a use has begun on a desk that nobody else uses, and has forwarded these chunks. -/
structure Alone (d : Desk α) (id : Nat) (stage : RelayStage α) (chunks : List Chunk) (d' : Desk α) :
    Prop where
  lock : d'.lock = ⟨some id, []⟩
  now : d'.stage id = some stage
  others : Function.update d'.stage id none = d.stage
  outbox : d'.outbox = d.outbox ++ chunks.map Chunk.response
  reached : ∃ ls, d.run ls = some d'

variable {chunks : List Chunk}

theorem alone_begin (free : d.lock = {}) (idle : d.stage id = none) (use : RelayUse) :
    ∃ d', Alone d id (first use) [] d' ∧ d'.relay = d.relay := by
  let d' : Desk α := ({ d with lock := ⟨some id, []⟩ }.move id (some (first use))).note
    (.began id use)
  have ran : d.run [.ask id, .begin id use] = some d' := by
    simp [run, step, free, idle, Lock.join, d']
  refine ⟨d', ⟨rfl, by simp [d'], ?_, by simp [d'], _, ran⟩, rfl⟩
  simp [d', ← idle]

theorem Alone.run {ls : List (Label α)} {after : RelayStage α} {d'' : Desk α}
    (alone : Alone d id stage chunks d') (more : List Chunk) (ran : d'.run ls = some d'')
    (lock : d''.lock = d'.lock) (moved : d''.stage = Function.update d'.stage id (some after))
    (outbox : d''.outbox = d'.outbox ++ more.map Chunk.response) :
    Alone d id after (chunks ++ more) d'' where
  lock := lock.trans alone.lock
  now := by simp [moved]
  others := by simp [moved, ← alone.others]
  outbox := by simp [outbox, alone.outbox]
  reached := by
    obtain ⟨before, reached⟩ := alone.reached
    exact ⟨before ++ ls, by rw [run_append, reached, Option.bind_some, ran]⟩

/-- A step that forwards nothing. -/
theorem Alone.moves {l : Label α} {after : RelayStage α} {d'' : Desk α}
    (alone : Alone d id stage chunks d') (change : Change d' l d'')
    (lock : d''.lock = d'.lock) (moved : d''.stage = Function.update d'.stage id (some after))
    (outbox : d''.outbox = d'.outbox) : Alone d id after chunks d'' := by
  simpa using alone.run [] change.run_eq lock moved (by simp [outbox])

/-- A use takes what is queued. -/
theorem Alone.looks (alone : Alone d id stage chunks d') (fate : Fate)
    (takes : ∀ n, (stage.found n).onChunk = some (stage.found (n + 1), fate)) :
    Alone d id (stage.found d'.relay.queue.length) (chunks ++ forwardedOf fate d'.relay.queue)
      ((d'.clear fate).move id (some (stage.found d'.relay.queue.length))) :=
  alone.run _ (run_looks alone.now takes) rfl rfl (by simp [clear, messagesIn_taken])

/-- A use that has nothing to wait for takes what is queued and returns. -/
theorem Alone.returns {answer : RelayAnswer α} (free : d.lock = {})
    (alone : Alone d id stage chunks d') (fate : Fate)
    (takes : ∀ n, (stage.found n).onChunk = some (stage.found (n + 1), fate))
    (ends : (stage.found d'.relay.queue.length).onEmpty = some (.leaving answer)) :
    d.Returns id (chunks ++ forwardedOf fate d'.relay.queue, { d'.relay with queue := [] })
      answer := by
  obtain ⟨ls, reached⟩ := alone.reached
  have ended := run_to_end alone.now takes ends
  let d'' := ({ d'.clear fate with lock := d'.lock.leave id }.move id none).note
    (.returned id answer)
  refine ⟨ls ++ _, d'', by rw [run_append, reached, Option.bind_some, ended], ?_, ?_, rfl, ?_,
    _, rfl⟩
  · simp [d'', alone.lock, free, Lock.leave]
  · simp [d'', clear, alone.others]
  · simp [d'', clear, alone.outbox, messagesIn_taken]

/-! ### The functions of a relay -/

/-- A flush on its own forwards and leaves what `Relay.flush` says. -/
theorem returns_flush (free : d.lock = {}) (idle : d.stage id = none) :
    d.Returns id d.relay.flush (.count d.relay.queue.length) := by
  obtain ⟨d', alone, same⟩ := alone_begin free idle .flush
  have returns := alone.returns free .forwarded (fun _ => rfl) rfl
  simpa [same, forwardedOf, Relay.flush] using returns

/-- A discard on its own forwards nothing, and leaves what a flush would. -/
theorem returns_discard (free : d.lock = {}) (idle : d.stage id = none) :
    d.Returns id ([], d.relay.flush.2) (.count d.relay.queue.length) := by
  obtain ⟨d', alone, same⟩ := alone_begin free idle .discard
  have returns := alone.returns free .dropped (fun _ => rfl) rfl
  simpa [same, forwardedOf, Relay.flush] using returns

/-- What the work prints is queued, unless the relay was closed. -/
theorem Alone.prints (alone : Alone d id stage chunks d') (c : Chunk) :
    ∃ d'', Alone d id stage chunks d'' ∧ d''.relay = d'.relay.print c := by
  cases isOpen : d'.relay.isOpen with
  | false => exact ⟨d', alone, by simp [Relay.print, isOpen]⟩
  | true =>
    exact ⟨_, alone.moves (.send (c := c) isOpen) rfl (by simp [← alone.now]) rfl,
      by simp [Relay.print, isOpen]⟩

/-- While work is done and nobody else does anything, what is forwarded and what is left are parts
of what `Relay.drive` says. The induction is on the work. -/
theorem Alone.work (alone : Alone d id .working chunks d') (work : List Relay.Work) :
    ∃ more d'', Alone d id .working (chunks ++ more) d'' ∧
      d'.relay.drive work = (more ++ d''.relay.queue, { d''.relay with queue := [] }) := by
  induction work generalizing chunks d' with
  | nil => exact ⟨[], d', by simpa using alone, rfl⟩
  | cons first work ih =>
    have emptied := alone.looks .forwarded fun _ => rfl
    have goesOn (r : Relay) {more : List Chunk} {d'' : Desk α}
        (rest : r.drive work = (more ++ d''.relay.queue, { d''.relay with queue := [] })) :
        (d'.relay.queue ++ (r.drive work).1, (r.drive work).2) =
          (d'.relay.queue ++ more ++ d''.relay.queue, { d''.relay with queue := [] }) := by
      rw [rest, List.append_assoc]
    cases first with
    | print c =>
      obtain ⟨d₁, printed, same⟩ := emptied.prints c
      obtain ⟨more, d₂, done, rest⟩ := ih printed
      rw [same] at rest
      exact ⟨_, d₂, by simpa [forwardedOf] using done, goesOn _ rest⟩
    | pause =>
      obtain ⟨more, d₂, done, rest⟩ := ih emptied
      exact ⟨_, d₂, by simpa [forwardedOf] using done, goesOn _ rest⟩

/-- Whatever the work is, the queue is forwarded before it begins. -/
theorem drive_eq_flush_drive (r : Relay) (work : List Relay.Work) :
    r.drive work = (r.flush.1 ++ (r.flush.2.drive work).1, (r.flush.2.drive work).2) := by
  cases work with
  | nil => simp [Relay.drive, Relay.flush]
  | cons first work => cases first <;> simp [Relay.drive, Relay.flush]

/-- A drive on its own forwards and leaves what `Relay.drive` says, and returns the value of the
work. -/
theorem returns_drive (free : d.lock = {}) (idle : d.stage id = none) (work : List Relay.Work)
    (v : α) : d.Returns id (d.relay.drive work) (.value v) := by
  obtain ⟨d₁, begun, same⟩ := alone_begin free idle .drive
  have opened := begun.looks .forwarded fun _ => rfl
  have starts := opened.moves (.miss opened.now rfl rfl) rfl rfl rfl
  obtain ⟨more, d₂, worked, rest⟩ := starts.work work
  have finished := worked.moves (.finish (v := v) worked.now) rfl rfl rfl
  have returns := finished.returns free .forwarded (fun _ => rfl) rfl
  have whole : d.relay.drive work =
      (d.relay.queue ++ (more ++ d₂.relay.queue), { d₂.relay with queue := [] }) := by
    rw [drive_eq_flush_drive, ← same]
    exact Prod.ext (congrArg (d₁.relay.queue ++ ·.1) rest) (congrArg (·.2) rest)
  rw [whole]
  simpa [forwardedOf, same] using returns

end Desk

end LispBridge
