import LispBridge.Session.System

/-!
Histories: what is seen of a session while it runs, in order.

`System.history` lists, for every step of a run, what set it off and what was queued for the editor
by it. The rest of this module says what each step of a task does to the part of the session that
histories and invariants speak of: the outbox, the debugger and the gate.
-/

namespace LispBridge

/-- Something that is seen of a session. -/
inductive Entry where
  /-- A payload came from the editor. -/
  | delivered (payload : String)
  /-- A task was started; a request that needs the gate has drawn a ticket. -/
  | spawned (id : TaskId) (work : Delivery) (ticket : Option Ticket)
  /-- A task was admitted to the gate. -/
  | admitted (id : TaskId) (ticket : Ticket)
  /-- The interpreter answered a task. -/
  | answered (id : TaskId) (c : Call) (a : c.Answer)
  /-- A message was queued for the editor, by a task or by the reader. -/
  | sent (id : Option TaskId) (r : Response)

/-- Whether a task serves a request. -/
def Serves (H : List Entry) (id : TaskId) : Prop :=
  ∃ command r ticket, .spawned id (.serve command r) ticket ∈ H

theorem Serves.append {H : List Entry} {id : TaskId} (serves : Serves H id) (es : List Entry) :
    Serves (H ++ es) id := by
  obtain ⟨command, r, ticket, mem⟩ := serves
  exact ⟨command, r, ticket, List.mem_append_left es mem⟩

/-- Admission to the gate, if that is what a step of a task comes to. -/
def Task.admission (t : Task) : Op → List Entry
  | .lockGate | .lockGateWithin _ =>
    match t.place with
    | .queued ticket => [.admitted t.id ticket]
    | .none | .holding _ => []
  | _ => []

namespace System

/-- The ticket that a request draws on its arrival. -/
def drawn (sys : System) (command : Command) : Option Ticket :=
  if command.needsGate then some sys.session.gate.next else none

/-- The task that a payload starts, if it starts one. -/
def started (sys : System) (payload : String) : List Entry :=
  match Delivery.ofPayload payload with
  | .serve command r => [.spawned sys.nextTask (.serve command r) (sys.drawn command)]
  | .interrupt true => [.spawned sys.nextTask (.interrupt true) none]
  | .input text => [.spawned sys.nextTask (.input text) none]
  | .interrupt false | .refuse .. | .ignore | .crash => []

/-- What sets off a step. -/
def cause (sys : System) : Label → List Entry
  | .deliver payload => .delivered payload :: sys.started payload
  | .resume id =>
    match sys.task? id with
    | some ⟨id, place, deadline, .step op next⟩ =>
      Task.admission ⟨id, place, deadline, .step op next⟩ op
    | _ => []
  | .answer id c a => [.answered id c a]
  | _ => []

end System

/-- The task whose run a step is. -/
def System.Label.task? : System.Label → Option TaskId
  | .resume id | .answer id _ _ | .forward id | .expire id | .cancel id => some id
  | .deliver _ | .print _ | .closeOutput | .tick _ => none

namespace System

/-- What is seen of one step. -/
def entries (sys : System) (l : Label) (sys' : System) : List Entry :=
  sys.cause l ++ (sys'.session.outbox.drop sys.session.outbox.length).map (.sent l.task?)

/-- What is seen of a run. -/
def history (sys : System) : List Label → List Entry
  | [] => []
  | l :: ls =>
    match sys.step l with
    | some sys' => sys.entries l sys' ++ sys'.history ls
    | none => []

end System

/-! ### What a step of a task does -/

namespace Session

/-- What a step queues for the editor. -/
def emitted (s : Session) : Op → List Response
  | .emit r => [r]
  | .flush => s.relay.queue.map Chunk.response
  | .enter l => [.event (l.debugEvent (s.debugger.depth + 1)),
      .event (.debugActivate (s.debugger.depth + 1))]
  | _ => []

variable {s s' : Session} {t t' : Task} {op : Op} {a : op.Result}

/-- A task is admitted if it holds the gate already, or if its ticket is admitted. -/
theorem enterGate?_eq_some (entered : s.enterGate? t = some (s', t')) :
    (∃ k, t.place = .holding k ∧ s' = s ∧ t' = t) ∨
      ∃ k gate, t.place = .queued k ∧ s.gate.enter? k = some gate ∧ s' = { s with gate } ∧
        t' = { t with place := .holding k } := by
  unfold enterGate? at entered
  cases place : t.place with
  | none => simp [place] at entered
  | holding k =>
    simp only [place, Option.some.injEq, Prod.mk.injEq] at entered
    exact .inl ⟨k, rfl, entered.1.symm, entered.2.symm⟩
  | queued k =>
    simp only [place, Option.map_eq_some_iff, Prod.mk.injEq] at entered
    obtain ⟨gate, admitted, rfl, rfl⟩ := entered
    exact .inr ⟨k, gate, rfl, admitted, rfl, rfl⟩

/-- What a step that is done at once, or after waiting, does: waiting for the gate is admission,
leaving a debugger level may find none, and all other steps are functions of the session. -/
theorem perform_eq_some (performed : s.perform t op = some (a, s', t')) :
    match op with
    | .lockGate | .lockGateWithin _ => s.enterGate? t = some (s', t')
    | .resolve number index => t' = t ∧
        ((s.debugger.resolve number index = none ∧ a = none ∧ s' = s) ∨
          ∃ r debugger, s.debugger.resolve number index = some (r, debugger) ∧ a = some r ∧
            s' = { s with debugger })
    | .releaseGate => s' = { s with gate := t.place.leave s.gate } ∧ t' = { t with place := .none }
    | .emit r => s' = s.send r ∧ t' = t
    | .flush => s' = s.flush ∧ t' = t
    | .enter l => s' = s.enter l ∧ t' = t
    | _ => s'.outbox = s.outbox ∧ s'.debugger = s.debugger ∧ s'.gate = s.gate ∧ t' = t := by
  cases op with
  | lockGate | lockGateWithin =>
    simp only [perform, Option.map_eq_some_iff, Prod.mk.injEq, Prod.exists] at performed
    obtain ⟨s₁, t₁, entered, -, rfl, rfl⟩ := performed
    exact entered
  | resolve number index =>
    cases resolved : s.debugger.resolve number index with
    | none =>
      simp only [perform, resolved, Option.some.injEq, Prod.mk.injEq] at performed
      obtain ⟨rfl, rfl, rfl⟩ := performed
      exact ⟨rfl, .inl ⟨resolved, rfl, rfl⟩⟩
    | some outcome =>
      simp only [perform, resolved, Option.some.injEq, Prod.mk.injEq] at performed
      obtain ⟨rfl, rfl, rfl⟩ := performed
      exact ⟨rfl, .inr ⟨_, _, resolved, rfl, rfl⟩⟩
  | lockRelay =>
    simp only [perform] at performed
    split at performed
    · simp only [Option.some.injEq, Prod.mk.injEq] at performed
      obtain ⟨-, rfl, rfl⟩ := performed
      exact ⟨rfl, rfl, rfl, rfl⟩
    · simp at performed
  | call c relaying => simp [perform] at performed
  | _ =>
    simp only [perform, Option.some.injEq, Prod.mk.injEq] at performed
    obtain ⟨-, rfl, rfl⟩ := performed
    simp

theorem enterGate?_id (entered : s.enterGate? t = some (s', t')) : t'.id = t.id := by
  obtain ⟨k, -, -, rfl⟩ | ⟨k, gate, -, -, -, rfl⟩ := enterGate?_eq_some entered <;> rfl

theorem enterGate?_outbox (entered : s.enterGate? t = some (s', t')) :
    s'.outbox = s.outbox ∧ s'.debugger = s.debugger := by
  obtain ⟨k, -, rfl, -⟩ | ⟨k, gate, -, -, rfl, -⟩ := enterGate?_eq_some entered <;> exact ⟨rfl, rfl⟩

theorem perform_id (performed : s.perform t op = some (a, s', t')) : t'.id = t.id := by
  have done := perform_eq_some performed
  cases op with
  | lockGate | lockGateWithin => exact enterGate?_id done
  | _ => simp_all

theorem perform_outbox (performed : s.perform t op = some (a, s', t')) :
    s'.outbox = s.outbox ++ s.emitted op := by
  have done := perform_eq_some performed
  cases op with
  | lockGate | lockGateWithin => simpa [emitted] using (enterGate?_outbox done).1
  | resolve => obtain ⟨-, ⟨-, -, rfl⟩ | ⟨r, debugger, -, -, rfl⟩⟩ := done <;> simp [emitted]
  | _ => simp_all [emitted, send, flush, enter, sendAll, Relay.flush]

end Session

end LispBridge
