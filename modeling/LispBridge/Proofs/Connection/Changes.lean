import LispBridge.Connection.Basic
import LispBridge.Proofs.Frame.Decode
import LispBridge.Proofs.Session.Records
import LispBridge.Proofs.Session.Steps

/-!
What one event of a connection does, and what it is for the session.

* `Connection.Change`: the events of a connection, by what they change (`step_change`).
* `Connection.sessionRun`: what a run of a connection is for its session. The session of a
  connection runs as sessions do (`run_session`), so that whatever holds of sessions holds of it.
* `Connection.history`: what is seen of the session. All that is queued for the editor is seen there
  (`outbox_eq_responses`).
-/

namespace LispBridge

/-! ### Cancelling every task -/

namespace System

variable {sys sys' : System}

/-- The events by which every task is cancelled. -/
def cancellations (sys : System) : List Label :=
  sys.tasks.map fun t => .cancel t.id

/-- The first task is cancelled. -/
theorem cancel_head {t : Task} {ts : List Task} (numbered : sys.WellNumbered)
    (split : sys.tasks = t :: ts) :
    sys.step (.cancel t.id) = some (sys.cancel t) ∧ (sys.cancel t).tasks = ts ∧
      (sys.cancel t).WellNumbered := by
  have first : sys.tasks = [] ++ t :: ts := split
  have found : sys.task? t.id = some t := by simp [task?, split]
  have left : sys.cancel t = { sys with session := sys.session.leave t, tasks := ts } := by
    simpa [cancel] using update_split first numbered (sys.session.leave t, none)
  refine ⟨by simp [step, found], by rw [left], ?_⟩
  rw [left]
  exact numbered.remove first

/-- Cancelling every task is a run, and leaves none. The induction is on the tasks that are left. -/
theorem run_cancellations (numbered : sys.WellNumbered) :
    sys.run sys.cancellations = some sys.cancelAll ∧ sys.cancelAll.tasks = [] := by
  unfold cancellations cancelAll
  generalize tasks : sys.tasks = ts
  induction ts generalizing sys with
  | nil => exact ⟨rfl, tasks⟩
  | cons t ts ih =>
    obtain ⟨stepped, others, numbered'⟩ := cancel_head numbered tasks
    obtain ⟨ran, none⟩ := ih numbered' others
    exact ⟨by rw [List.map_cons, run, stepped]; exact ran, none⟩

/-- Messages are taken from the editor until the reader fails on one. -/
theorem isReading_step {l : Label} (noPayload : ∀ payload, l ≠ .deliver payload)
    (stepped : sys.step l = some sys') : sys'.isReading = sys.isReading := by
  cases l with
  | deliver payload => exact absurd rfl (noPayload payload)
  | print | closeOutput | tick =>
    cases stepped
    rfl
  | _ =>
    simp only [step, Option.bind_eq_bind, Option.bind_eq_some_iff, Option.map_eq_map,
      Option.map_eq_some_iff, Option.pure_def, Option.some.injEq] at stepped
    obtain ⟨t, -, stepped⟩ := stepped
    obtain ⟨_, -, rfl⟩ := stepped
    rfl

/-- Without tasks nothing is queued, unless a payload arrives. -/
theorem idle_step {l : Label} (noPayload : ∀ payload, l ≠ .deliver payload)
    (idle : sys.tasks = []) (stepped : sys.step l = some sys') :
    sys'.tasks = [] ∧ sys'.session.outbox = sys.session.outbox := by
  cases l with
  | deliver payload => exact absurd rfl (noPayload payload)
  | print | closeOutput | tick =>
    cases stepped
    exact ⟨idle, rfl⟩
  | _ => simp [step, task?, idle] at stepped

/-- A run queues what is seen of it, behind what was queued before. -/
theorem outbox_run {ls : List Label} (numbered : sys.WellNumbered) (ran : sys.run ls = some sys') :
    sys'.WellNumbered ∧
      sys'.session.outbox = sys.session.outbox ++ responses (sys.history ls) := by
  let before : List Entry := sys.session.outbox.map (.sent none)
  have known : responses before = sys.session.outbox := by
    simp [before, responses, List.filterMap_map, Function.comp_def, Entry.response?]
  have recorded : sys.Recorded before := by
    refine ⟨known.symm, ?_, ?_⟩
    · simp [before]
    · simp [before]
  obtain ⟨numbered', recorded'⟩ :=
    recorded_invariant.run numbered recorded (fun _ _ => trivial) ran
  refine ⟨numbered', ?_⟩
  rw [recorded'.outbox, responses_append, known]

end System

/-! ### Reading -/

namespace Link

/-- What is taken from the bytes that came. -/
def taken (l : Link) : Option (Except FrameFault String) × List UInt8 :=
  if l.isInputOver then Frame.decodeEnd l.buffer else Frame.decode l.buffer

/-- A payload is taken in the same way whether or not more can come. -/
theorem decode_of_taken_ok {l : Link} {payload : String} {buffer : List UInt8}
    (taken : l.taken = (some (.ok payload), buffer)) :
    Frame.decode l.buffer = (some (.ok payload), buffer) := by
  unfold Link.taken at taken
  split at taken
  · rcases decoded : Frame.decode l.buffer with ⟨_ | result, left⟩
    · rw [Frame.decodeEnd, decoded] at taken
      dsimp only at taken
      split at taken <;> cases taken
    · rwa [Frame.decodeEnd, decoded] at taken
  · exact taken

/-- A fault is in the bytes, or it is that no more can come. -/
theorem decode_of_taken_error {l : Link} {fault : FrameFault} {buffer : List UInt8}
    (taken : l.taken = (some (.error fault), buffer)) :
    Frame.decode l.buffer = (some (.error fault), buffer) ∨
      l.isInputOver = true ∧ l.buffer ≠ [] ∧ Frame.decode l.buffer = (none, l.buffer) := by
  unfold Link.taken at taken
  split at taken
  · next inputOver =>
    rcases decoded : Frame.decode l.buffer with ⟨_ | result, left⟩
    · obtain rfl := Frame.decode_none decoded
      refine .inr ⟨inputOver, ?_, rfl⟩
      rintro none
      rw [Frame.decodeEnd, decoded, none] at taken
      cases taken
    · rw [Frame.decodeEnd, decoded] at taken
      exact .inl taken
  · exact .inl taken

theorem read_eq {l : Link} {result : Option (Except FrameFault String)} {buffer : List UInt8}
    (taken : l.taken = (result, buffer)) :
    l.read = (match result with
      | some (.ok payload) => .payload payload
      | some (.error fault) => .over (.failed fault)
      | none => if l.isInputOver then .over .finished else .waiting, { l with buffer }) := by
  unfold Link.taken at taken
  unfold read
  simp only [taken]
  split <;> rfl

/-- Writing has no part in what is read. -/
theorem write_eq (l : Link) (r : Response) :
    ∃ sink written writer, l.write r = { l with sink, written, writer } := by
  unfold write
  split
  · exact ⟨_, _, _, rfl⟩
  · exact ⟨_, _, _, rfl⟩

end Link

namespace Connection

variable {c c' : Connection} {ls : List Label}

/-! ### Events by what they change -/

/-- What an event of a connection does. -/
inductive Change (c : Connection) : Label → Connection → Prop where
  | arrive (bytes : List UInt8) : c.link.isInputOver = false →
      Change c (.arrive bytes) { c with link.buffer := c.link.buffer ++ bytes }
  | endInput : Change c .endInput { c with link.isInputOver := true }
  | hangUp : Change c .hangUp { c with link.isInputOver := true, link.sink.room := some 0 }
  | deliver {payload : String} {buffer : List UInt8} : c.isServing = true →
      c.link.taken = (some (.ok payload), buffer) → (c.system.deliver payload).isReading = true →
      Change c .read ⟨c.system.deliver payload, { c.link with buffer }⟩
  | crash {payload : String} {buffer : List UInt8} : c.isServing = true →
      c.link.taken = (some (.ok payload), buffer) → (c.system.deliver payload).isReading = false →
      Change c .read ⟨(c.system.deliver payload).cancelAll,
        { c.link with buffer, phase := .closing .crashed none }⟩
  | fault {fault : FrameFault} {buffer : List UInt8} : c.isServing = true →
      c.link.taken = (some (.error fault), buffer) →
      Change c .read ({ c with link.buffer := buffer }.stopReading (.failed fault))
  | endOfInput {buffer : List UInt8} : c.isServing = true → c.link.taken = (none, buffer) →
      Change c .read ({ c with link.buffer := buffer }.stopReading .finished)
  /-- The reading ends for some reason besides the bytes. -/
  | stop {l : Label} : l = .noticeClosed ∨ l = .noticeWriter ∨ l = .cancel → c.isServing = true →
      Change c l (c.stopReading .finished)
  | write {r : Response} : c.link.writer = .writing →
      c.system.session.outbox[c.link.written]? = some r →
      Change c .write { c with link := c.link.write r }
  | stopWriter : c.link.writer = .writing → c.system.session.outbox[c.link.written]? = none →
      c.isQueueClosed = true ∨ c.link.isWriterCancelled = true →
      Change c .write { c with link.writer := .stopped }
  | abort {ending : Ending} {deadline : Nat} : c.link.phase = .draining ending deadline →
      Change c .abort { c with system := c.system.cancelAll }
  | rest {ending : Ending} {deadline : Nat} : c.link.phase = .draining ending deadline →
      c.system.tasks = [] →
      Change c .rest { c with link := c.link.startClosing ending c.system.session.clock }
  | cancelWriter {ending : Ending} {deadline : Option Nat} :
      c.link.phase = .closing ending deadline →
      Change c .cancelWriter { c with link.isWriterCancelled := true }
  | close {ending : Ending} {deadline : Option Nat} : c.link.phase = .closing ending deadline →
      c.link.writer ≠ .writing → Change c .close { c with link.phase := .closed ending }
  | session {l : System.Label} {sys : System} : (∀ payload, l ≠ .deliver payload) →
      c.system.step l = some sys → Change c (.session l) { c with system := sys }

theorem read_change (serves : c.isServing = true) (read : c.read? = some c') :
    Change c .read c' := by
  rcases taken : c.link.taken with ⟨_ | fault | payload, buffer⟩
  · rw [read?, Link.read_eq taken] at read
    by_cases inputOver : c.link.isInputOver = true
    · rw [if_pos inputOver] at read
      cases read
      exact .endOfInput serves taken
    · rw [if_neg inputOver] at read
      cases read
  · rw [read?, Link.read_eq taken] at read
    cases read
    exact .fault serves taken
  · rw [read?, Link.read_eq taken] at read
    cases read
    unfold Connection.deliver
    cases reads : (c.system.deliver payload).isReading with
    | true => simpa [reads] using Change.deliver serves taken reads
    | false => simpa [reads] using Change.crash serves taken reads

theorem write_change (wrote : c.write? = some c') : Change c .write c' := by
  unfold write? at wrote
  split at wrote
  · next writes next =>
    cases wrote
    exact .write writes next
  · next writes next =>
    split at wrote
    · next may =>
      cases wrote
      exact .stopWriter writes next (by simpa using may)
    · cases wrote
  · cases wrote

theorem step_session {l : System.Label} (noPayload : ∀ payload, l ≠ .deliver payload) :
    c.step (.session l) = (c.system.step l).map fun system => { c with system } := by
  cases l with
  | deliver payload => exact absurd rfl (noPayload payload)
  | _ => rfl

/-- Every event is one of these. -/
theorem step_change {l : Label} (stepped : c.step l = some c') : Change c l c' := by
  cases l with
  | arrive bytes =>
    obtain ⟨more, same⟩ := Option.ite_none_left_eq_some.mp stepped
    cases same
    exact .arrive bytes (by simpa using more)
  | endInput =>
    cases stepped
    exact .endInput
  | hangUp =>
    cases stepped
    exact .hangUp
  | read =>
    obtain ⟨serves, read⟩ := Option.ite_none_right_eq_some.mp stepped
    exact read_change serves read
  | noticeClosed =>
    obtain ⟨⟨serves, -⟩, same⟩ := Option.ite_none_right_eq_some.mp stepped
    cases same
    exact .stop (.inl rfl) serves
  | noticeWriter =>
    obtain ⟨⟨serves, -⟩, same⟩ := Option.ite_none_right_eq_some.mp stepped
    cases same
    exact .stop (.inr (.inl rfl)) serves
  | cancel =>
    obtain ⟨serves, same⟩ := Option.ite_none_right_eq_some.mp stepped
    cases same
    exact .stop (.inr (.inr rfl)) serves
  | write => exact write_change stepped
  | abort =>
    simp only [step] at stepped
    split at stepped
    · next ending deadline phase =>
      obtain ⟨-, same⟩ := Option.ite_none_right_eq_some.mp stepped
      cases same
      exact .abort phase
    · cases stepped
  | rest =>
    simp only [step] at stepped
    split at stepped
    · next ending deadline phase =>
      obtain ⟨idle, same⟩ := Option.ite_none_right_eq_some.mp stepped
      cases same
      exact .rest phase (List.isEmpty_iff.mp idle)
    · cases stepped
  | cancelWriter =>
    simp only [step] at stepped
    split at stepped
    · next ending deadline phase =>
      obtain ⟨-, same⟩ := Option.ite_none_right_eq_some.mp stepped
      cases same
      exact .cancelWriter phase
    · cases stepped
  | close =>
    simp only [step] at stepped
    split at stepped
    · next ending deadline phase =>
      obtain ⟨ended, same⟩ := Option.ite_none_right_eq_some.mp stepped
      cases same
      exact .close phase ended
    · cases stepped
  | session l =>
    by_cases payload : ∃ payload, l = .deliver payload
    · obtain ⟨payload, rfl⟩ := payload
      cases stepped
    · have noPayload := not_exists.mp payload
      rw [step_session noPayload] at stepped
      obtain ⟨sys, goes, rfl⟩ := Option.map_eq_some_iff.mp stepped
      exact .session noPayload goes

/-! ### The session of a connection -/

/-- What an event of a connection is for its session. -/
def events (c : Connection) : Label → List System.Label
  | .read =>
    match c.link.taken with
    | (some (.ok payload), _) =>
      let system := c.system.deliver payload
      .deliver payload :: if system.isReading then [] else system.cancellations
    | _ => []
  | .abort => c.system.cancellations
  | .session l => [l]
  | _ => []

/-- What a run of a connection is for its session. -/
def sessionRun (c : Connection) : List Label → List System.Label
  | [] => []
  | l :: ls =>
    match c.step l with
    | some c' => c.events l ++ c'.sessionRun ls
    | none => []

/-- What is seen of the session in a run of a connection. -/
def history (c : Connection) (ls : List Label) : List Entry :=
  c.system.history (c.sessionRun ls)

/-- While a connection serves, its session takes messages. -/
structure Sound (c : Connection) : Prop where
  numbered : c.system.WellNumbered
  reads : c.isServing = true → c.system.isReading = true

theorem sound_new (s : Session) (grace : Nat) : (Connection.new s grace).Sound :=
  ⟨⟨.nil, fun _ mem => absurd mem List.not_mem_nil⟩, fun _ => rfl⟩

/-- What an event of a connection does to its session is a run of it. -/
theorem Change.run_events {l : Label} (change : Change c l c') (sound : c.Sound) :
    c.system.run (c.events l) = some c'.system := by
  have delivered (serves : c.isServing = true) (payload : String) :
      c.system.step (.deliver payload) = some (c.system.deliver payload) :=
    if_pos (sound.reads serves)
  cases change with
  | @deliver payload buffer serves taken reads =>
    simp [events, taken, reads, System.run, delivered serves]
  | @crash payload buffer serves taken fails =>
    have numbered := sound.numbered.arrival (c.system.deliver_arrival payload)
    simpa [events, taken, fails, System.run, delivered serves] using
      (System.run_cancellations numbered).1
  | fault serves taken =>
    rw [events, taken]
    rfl
  | endOfInput serves taken =>
    rw [events, taken]
    rfl
  | stop which => rcases which with rfl | rfl | rfl <;> rfl
  | abort => exact (System.run_cancellations sound.numbered).1
  | session noPayload stepped => simp [events, System.run, stepped]
  | _ => rfl

theorem Change.sound {l : Label} (change : Change c l c') (sound : c.Sound) : c'.Sound := by
  refine ⟨(System.outbox_run sound.numbered (change.run_events sound)).1, ?_⟩
  cases change with
  | arrive | endInput | hangUp | stopWriter | cancelWriter => exact sound.reads
  | deliver _ _ reads => exact fun _ => reads
  | session noPayload stepped =>
    intro serves
    exact (System.isReading_step noPayload stepped).trans (sound.reads serves)
  | @write r =>
    obtain ⟨sink, written, writer, same⟩ := c.link.write_eq r
    rw [same]
    exact sound.reads
  | abort phase =>
    intro serves
    simp [isServing, phase] at serves
  | crash | fault | endOfInput | stop | rest | close => exact fun serves => by cases serves

/-- The session of a connection runs as sessions do. -/
theorem run_session (sound : c.Sound) (ran : c.run ls = some c') :
    c.system.run (c.sessionRun ls) = some c'.system ∧ c'.Sound := by
  induction ls generalizing c with
  | nil =>
    cases ran
    exact ⟨rfl, sound⟩
  | cons l ls ih =>
    obtain ⟨mid, stepped, rest⟩ := Option.bind_eq_some_iff.mp ran
    have change := step_change stepped
    obtain ⟨ran', sound'⟩ := ih (change.sound sound) rest
    refine ⟨?_, sound'⟩
    rw [sessionRun, stepped]
    show c.system.run (c.events l ++ mid.sessionRun ls) = some c'.system
    rw [System.run_append, change.run_events sound]
    exact ran'

/-- What is queued for the editor is what is seen of the session. -/
theorem outbox_eq_responses {s : Session} {grace : Nat}
    (ran : (Connection.new s grace).run ls = some c) :
    c.system.session.outbox = responses ((Connection.new s grace).history ls) := by
  have sound := sound_new s grace
  exact (System.outbox_run sound.numbered (run_session sound ran).1).2

end Connection

end LispBridge
