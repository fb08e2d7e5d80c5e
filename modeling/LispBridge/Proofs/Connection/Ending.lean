import LispBridge.Proofs.Connection.Inbound
import LispBridge.Proofs.Frame.Delivery

/-!
The end of a connection.

Whatever ends the reading, the requests under way finish or are cancelled, and then the writer
writes what is queued. `Connection.Faithful` says how far it has come, and that it does not stop
before it has come to the end of the queue. From there on nothing is queued, since no request is
left.

* `Connection.Closes`: a connection needs nothing but time to come to its end.
* `Connection.ends_with_everything_written`: what it has written then.
-/

namespace LispBridge

/-- Whether no request is left. -/
def Phase.isDrained : Phase → Bool
  | .serving | .draining .. => false
  | .closing .. | .closed _ => true

/-- A sink without a limit, in which some messages have been written. -/
def Sink.holding (rs : List Response) : Sink :=
  { frames := rs.flatMap Response.frames }

theorem Sink.accepted_holding (rs : List Response) :
    (Sink.holding rs).accepted = Frame.bytes (rs.flatMap Response.frames) :=
  Writer.accepted_of_whole rfl

theorem Writer.writeResponse_holding (rs : List Response) (r : Response) :
    writeResponse (.holding rs) r = (.holding (rs ++ [r]), .ok ()) := by
  have written : writeFrames (.holding rs) r.frames = _ := writeFrames_unlimited rfl r.frames
  rw [writeResponse, written]
  simp [Sink.holding]

namespace Connection

variable {c c' : Connection} {l : Label} {ls : List Label} {ending : Ending}

/-! ### What the writer has written -/

/-- What a connection with a sink without a limit has written, and when its writer may stop. -/
structure Faithful (c : Connection) : Prop where
  sink : c.link.sink = .holding (c.system.session.outbox.take c.link.written)
  within : c.link.written ≤ c.system.session.outbox.length
  writer : c.link.writer = .writing ∨ c.link.writer = .stopped ∧
    c.link.written = c.system.session.outbox.length ∧ c.link.phase.isDrained = true
  idle : c.link.phase.isDrained = true → c.system.tasks = []
  cancelled : c.link.isWriterCancelled = true → c.link.phase.isDrained = true
  closed : ∀ ending, c.link.phase = .closed ending → c.link.writer = .stopped

theorem faithful_new (s : Session) (grace : Nat) : (Connection.new s grace).Faithful where
  sink := rfl
  within := Nat.zero_le _
  writer := .inl rfl
  idle drained := by cases drained
  cancelled cancelled := by cases cancelled
  closed _ closed := by cases closed

namespace Faithful

/-- The session goes on. It queues nothing when no request is left. -/
theorem grow {sys : System} {rs : List Response} (faithful : c.Faithful)
    (queued : sys.session.outbox = c.system.session.outbox ++ rs)
    (idle : c.link.phase.isDrained = true → sys.tasks = [] ∧ rs = []) :
    { c with system := sys }.Faithful := by
  obtain ⟨sink, within, writer, -, cancelled, closed⟩ := faithful
  constructor
  · show c.link.sink = .holding (sys.session.outbox.take c.link.written)
    rw [queued, List.take_append_of_le_length within]
    exact sink
  · show c.link.written ≤ sys.session.outbox.length
    rw [queued, List.length_append]
    exact Nat.le_add_right_of_le within
  · apply writer.imp_right
    rintro ⟨stopped, all, drained⟩
    refine ⟨stopped, ?_, drained⟩
    show c.link.written = sys.session.outbox.length
    rw [queued, (idle drained).2, List.append_nil]
    exact all
  · exact fun drained => (idle drained).1
  · exact cancelled
  · exact closed

/-- The connection goes on to another phase. -/
theorem proceed {link : Link} (faithful : c.Faithful) (sink : link.sink = c.link.sink)
    (written : link.written = c.link.written) (writer : link.writer = c.link.writer)
    (drained : c.link.phase.isDrained = true → link.phase.isDrained = true)
    (idle : link.phase.isDrained = true → c.system.tasks = [])
    (cancelled : link.isWriterCancelled = true → link.phase.isDrained = true)
    (closed : ∀ ending, link.phase = .closed ending → link.writer = .stopped) :
    { c with link }.Faithful := by
  refine ⟨?_, ?_, ?_, idle, cancelled, closed⟩
  · show link.sink = _
    rw [sink, faithful.sink, ← written]
  · show link.written ≤ _
    rw [written]
    exact faithful.within
  · show link.writer = _ ∨ link.writer = _ ∧ link.written = _ ∧ _
    rw [writer, written]
    exact faithful.writer.imp_right fun ⟨stopped, all, before⟩ => ⟨stopped, all, drained before⟩

/-- The writer writes a message. -/
theorem write {r : Response} (faithful : c.Faithful) (writes : c.link.writer = .writing)
    (next : c.system.session.outbox[c.link.written]? = some r) :
    { c with link := c.link.write r }.Faithful ∧
      (c.link.write r).written = c.link.written + 1 ∧ (c.link.write r).phase = c.link.phase := by
  obtain ⟨inside, -⟩ := List.getElem?_eq_some_iff.mp next
  have wrote : c.link.write r = { c.link with
      sink := .holding (c.system.session.outbox.take (c.link.written + 1))
      written := c.link.written + 1 } := by
    rw [Link.write, faithful.sink, Writer.writeResponse_holding, List.take_add_one, next]
    rfl
  rw [wrote]
  refine ⟨⟨rfl, inside, .inl writes, faithful.idle, faithful.cancelled, ?_⟩, rfl, rfl⟩
  intro ending closed
  have stopped := faithful.closed ending closed
  rw [writes] at stopped
  cases stopped

/-- The writer stops when nothing is queued, and nothing will be. -/
theorem stop (faithful : c.Faithful) (next : c.system.session.outbox[c.link.written]? = none)
    (may : c.isQueueClosed = true ∨ c.link.isWriterCancelled = true) :
    { c with link.writer := .stopped }.Faithful := by
  -- Told to stop or not, the writer has looked at the queue first, and found nothing there.
  have all : c.link.written = c.system.session.outbox.length :=
    Nat.le_antisymm faithful.within (List.getElem?_eq_none_iff.mp next)
  have drained : c.link.phase.isDrained = true := by
    rcases may with closed | cancelled
    · unfold isQueueClosed at closed
      split at closed
      · next phase => rw [phase]; rfl
      · cases closed
    · exact faithful.cancelled cancelled
  exact ⟨faithful.sink, faithful.within, .inr ⟨rfl, all, drained⟩, faithful.idle,
    faithful.cancelled, fun _ _ => rfl⟩

/-- While a connection serves, it is not over. -/
theorem not_drained (serves : c.isServing = true) : ¬ c.link.phase.isDrained = true := by
  have phase : c.link.phase = .serving := by simpa [isServing] using serves
  simp [phase, Phase.isDrained]

/-- The reading ends. -/
theorem stopReading {link : Link} (faithful : c.Faithful) (serves : c.isServing = true)
    (sink : link.sink = c.link.sink) (written : link.written = c.link.written)
    (writer : link.writer = c.link.writer)
    (cancelled : link.isWriterCancelled = c.link.isWriterCancelled) :
    ({ c with link }.stopReading ending).Faithful := by
  have running := not_drained serves
  have stopped :
      { c with link := link.stopReading ending c.system.session.clock }.Faithful := by
    apply faithful.proceed
    · exact sink
    · exact written
    · exact writer
    · exact fun drained => absurd drained running
    · exact fun drained => by cases drained
    · intro told
      exact absurd (faithful.cancelled (cancelled ▸ told)) running
    · exact fun _ closed => by cases closed
  exact stopped

theorem change (faithful : c.Faithful) (sound : c.Sound) (change : Change c l c')
    (unbroken : l ≠ .hangUp) : c'.Faithful := by
  have grows := (System.outbox_run sound.numbered (change.run_events sound)).2
  cases change with
  | hangUp => exact absurd rfl unbroken
  | arrive | endInput =>
    exact faithful.proceed rfl rfl rfl id faithful.idle faithful.cancelled faithful.closed
  | deliver serves =>
    have running := not_drained serves
    have grown := faithful.grow grows fun drained => absurd drained running
    exact grown.proceed rfl rfl rfl id grown.idle grown.cancelled grown.closed
  | @crash payload _ serves =>
    have running := not_drained serves
    have grown := faithful.grow grows fun drained => absurd drained running
    have numbered := sound.numbered.arrival (c.system.deliver_arrival payload)
    have idle := (System.run_cancellations numbered).2
    exact grown.proceed rfl rfl rfl (fun _ => rfl) (fun _ => idle) (fun _ => rfl)
      (fun _ closed => by cases closed)
  | fault serves | endOfInput serves | stop _ serves =>
    exact faithful.stopReading serves rfl rfl rfl rfl
  | write writes next => exact (faithful.write writes next).1
  | stopWriter _ next may => exact faithful.stop next may
  | abort phase =>
    apply faithful.grow grows
    intro drained
    rw [phase] at drained
    cases drained
  | rest _ idle =>
    exact faithful.proceed rfl rfl rfl (fun _ => rfl) (fun _ => idle) (fun _ => rfl)
      (fun _ closed => by cases closed)
  | cancelWriter phase =>
    -- The writer is told to stop only when every request is gone, so its queue does not grow.
    refine faithful.proceed rfl rfl rfl id faithful.idle (fun _ => ?_) faithful.closed
    show c.link.phase.isDrained = true
    rw [phase]
    rfl
  | close phase ended =>
    have drained : c.link.phase.isDrained = true := by
      rw [phase]
      rfl
    have stopped := faithful.writer.resolve_left ended
    exact faithful.proceed rfl rfl rfl (fun _ => rfl) (fun _ => faithful.idle drained)
      (fun _ => rfl) (fun _ _ => stopped.1)
  | session noPayload stepped =>
    apply faithful.grow grows
    intro drained
    obtain ⟨none, quiet⟩ := System.idle_step noPayload (faithful.idle drained) stepped
    rw [quiet] at grows
    exact ⟨none, List.self_eq_append_right.mp grows⟩

/-- What a run keeps; the induction is on its events. -/
theorem run (faithful : c.Faithful) (sound : c.Sound) (unbroken : .hangUp ∉ ls)
    (ran : c.run ls = some c') : c'.Faithful := by
  induction ls generalizing c with
  | nil =>
    cases ran
    exact faithful
  | cons l ls ih =>
    simp only [List.mem_cons, not_or] at unbroken
    obtain ⟨first, others⟩ := unbroken
    obtain ⟨mid, stepped, rest⟩ := Option.bind_eq_some_iff.mp ran
    have change := step_change stepped
    exact ih (faithful.change sound change (Ne.symm first)) (change.sound sound) others rest

/-- A connection that is closed has written everything. -/
theorem accepted_of_closed (faithful : c.Faithful) (closed : c.link.phase = .closed ending) :
    c.link.sink.accepted =
        Frame.bytes (c.system.session.outbox.flatMap Response.frames) ∧ c.system.tasks = [] := by
  have stopped := faithful.closed ending closed
  have drained : c.link.phase.isDrained = true := by
    rw [closed]
    rfl
  constructor
  · rcases faithful.writer with writes | ⟨-, all, -⟩
    · rw [writes] at stopped
      cases stopped
    · rw [faithful.sink, Sink.accepted_holding, all, List.take_length]
  · exact faithful.idle drained

end Faithful

/-! ### Coming to an end -/

/-- Whether an event takes nothing but time: the writer writes, and what has had its time goes. -/
def Label.isWindingUp : Label → Bool
  | .write | .abort | .rest | .close | .session (.tick _) => true
  | _ => false

/-- A connection needs nothing but time to come to its end. -/
def Closes (c : Connection) (ending : Ending) : Prop :=
  ∃ ls c', (∀ l ∈ ls, l.isWindingUp = true) ∧ c.run ls = some c' ∧ c'.link.phase = .closed ending

theorem Closes.of_step (isWindingUp : l.isWindingUp = true) (stepped : c.step l = some c')
    (closes : c'.Closes ending) : c.Closes ending := by
  obtain ⟨ls, last, windUp, ran, closed⟩ := closes
  refine ⟨l :: ls, last, List.forall_mem_cons.mpr ⟨isWindingUp, windUp⟩, ?_, closed⟩
  rw [run, stepped]
  exact ran

theorem closes_of_stopped {deadline : Option Nat} (phase : c.link.phase = .closing ending deadline)
    (ended : c.link.writer ≠ .writing) : c.Closes ending := by
  have stepped : c.step .close = some { c with link.phase := .closed ending } := by
    simp only [step, phase]
    exact if_pos ended
  exact .of_step rfl stepped ⟨[], _, by simp, rfl, rfl⟩

/-- The writer comes to the end of the queue. The induction is on what is still to be written. -/
theorem closes_of_closing {deadline : Option Nat} (faithful : c.Faithful)
    (phase : c.link.phase = .closing ending deadline) : c.Closes ending := by
  induction left : c.system.session.outbox.length - c.link.written
    using Nat.strongRecOn generalizing c with
  | ind n ih =>
    by_cases writes : c.link.writer = .writing
    · cases next : c.system.session.outbox[c.link.written]? with
      | none =>
        have idle : c.system.tasks = [] := faithful.idle (by rw [phase]; rfl)
        have stepped : c.step .write = some { c with link.writer := .stopped } := by
          simp [step, write?, writes, next, isQueueClosed, phase, idle]
        exact .of_step rfl stepped (closes_of_stopped phase (by simp))
      | some r =>
        obtain ⟨inside, -⟩ := List.getElem?_eq_some_iff.mp next
        obtain ⟨faithful', written, same⟩ := faithful.write writes next
        have stepped : c.step .write = some { c with link := c.link.write r } := by
          simp [step, write?, writes, next]
        have fewer : c.system.session.outbox.length - (c.link.write r).written < n := by
          omega
        exact .of_step rfl stepped (ih _ fewer faithful' (same.trans phase) rfl)
    · exact closes_of_stopped phase writes

/-- The requests under way finish, or are cancelled. -/
theorem closes_of_draining {deadline : Nat} (faithful : c.Faithful) (sound : c.Sound)
    (phase : c.link.phase = .draining ending deadline) : c.Closes ending := by
  let late : System := { c.system with
    session.clock := c.system.session.clock + (deadline - c.system.session.clock) }
  have waited : c.step (.session (.tick (deadline - c.system.session.clock))) =
      some { c with system := late } := rfl
  have reached : deadline ≤ c.system.session.clock + (deadline - c.system.session.clock) := by
    omega
  have aborted : ({ c with system := late } : Connection).step .abort =
      some { c with system := late.cancelAll } := by
    simp only [step, phase]
    exact if_pos reached
  have waited' := step_change waited
  have aborted' := step_change aborted
  have sound' := waited'.sound sound
  have idle := (System.run_cancellations sound'.numbered).2
  have rested : ({ c with system := late.cancelAll } : Connection).step .rest =
      some { c with
        system := late.cancelAll
        link := c.link.startClosing ending late.cancelAll.session.clock } := by
    simp only [step, phase]
    exact if_pos (List.isEmpty_iff.mpr idle)
  have faithful' := (faithful.change sound waited' (by simp)).change sound' aborted' (by simp)
  have last := faithful'.change (aborted'.sound sound') (step_change rested) (by simp)
  exact .of_step rfl waited (.of_step rfl aborted (.of_step rfl rested
    (closes_of_closing last rfl)))

/-- **The end of a connection.** As long as the editor takes everything, a connection that has
ended its reading, for whatever reason, needs nothing but time to close. Then it has written
the frames of all that was queued, in order and whole, no request is left, and it has failed only
if the bytes that came were not frames. -/
theorem ends_with_everything_written {s : Session} {grace : Nat} (unbroken : .hangUp ∉ ls)
    (ran : (Connection.new s grace).run ls = some c)
    (ended : c.link.phase.ending? = some ending) :
    c.Closes ending ∧
      (c.link.phase = .closed ending →
        c.link.sink.accepted = Frame.bytes
            ((responses ((Connection.new s grace).history ls)).flatMap Response.frames) ∧
          c.system.tasks = [] ∧
          ∀ fault, ending = .failed fault → ¬ Frame.Whole (arrived ls)) := by
  have sound := (run_session (sound_new s grace) ran).2
  have faithful := (faithful_new s grace).run (sound_new s grace) unbroken ran
  constructor
  · cases phase : c.link.phase with
    | serving =>
      rw [phase] at ended
      cases ended
    | draining e deadline =>
      rw [phase] at ended
      cases ended
      exact closes_of_draining faithful sound phase
    | closing e deadline =>
      rw [phase] at ended
      cases ended
      exact closes_of_closing faithful phase
    | closed e =>
      rw [phase] at ended
      cases ended
      exact ⟨[], c, by simp, rfl, phase⟩
  · intro closed
    obtain ⟨accepted, idle⟩ := faithful.accepted_of_closed closed
    rw [← outbox_eq_responses ran]
    refine ⟨accepted, idle, ?_⟩
    rintro fault rfl
    exact not_whole_of_failed ran ended

/-- The editor asks the server to quit, and there is no time for anything. The writer is told to
stop before it has written the answer, and writes it. -/
theorem ends_with_everything_written_of_quit :
    let bytes := Utf8.encode "000026(:emacs-rex (swank:quit-lisp) nil t 1)"
    let ls : List Label := [.arrive bytes, .read, .session (.resume 0),
      .session (.answer 0 .stop (.ok ())), .noticeClosed, .rest, .cancelWriter, .write, .write,
      .close]
    ∃ c, (Connection.new (.new {}) 0).run ls = some c ∧ c.link.phase = .closed .finished ∧
      c.link.sink.accepted = Frame.bytes (Response.result (.ok .nil) 1).frames ∧
      c.system.tasks = [] := by
  intro bytes ls
  have runs : ((Connection.new (.new {}) 0).run ls).map
      (fun c => (c.link.phase, c.system.session.outbox)) =
      some (.closed .finished, [.result (.ok .nil) 1]) := by
    decide +kernel
  obtain ⟨c, ran, facts⟩ := Option.map_eq_some_iff.mp runs
  obtain ⟨closed, outbox⟩ := Prod.mk.inj facts
  have unbroken : .hangUp ∉ ls := by simp [ls]
  obtain ⟨-, written⟩ := ends_with_everything_written unbroken ran (by rw [closed]; rfl)
  obtain ⟨accepted, idle, -⟩ := written closed
  rw [← outbox_eq_responses ran, outbox, List.flatMap_singleton] at accepted
  exact ⟨c, ran, closed, accepted, idle⟩

end Connection

end LispBridge
