import LispBridge.Proofs.Session.GateUse
import LispBridge.Proofs.Session.Turns

/-!
Order among the tasks of a session.

* `System.Orderly`: every turn but the last is complete, the last is complete or the turn of the
  task that holds the gate, and nothing is shown in the console but by the task whose turn it is.
* `Orderly.move`, `Orderly.arrival`: so it stays, as long as no task is cancelled and no input for
  the interpreter arrives.
-/

namespace LispBridge

variable {H es : List Entry} {t : Turn} {ts : List Turn}

/-! ### Where tasks stand -/

/-- Where a task stands agrees with its place and with the turns, the latest first. -/
def Stage.Fits (ts : List Turn) (task : Task) : Stage → Prop
  | .before => (∀ k, task.place ≠ .holding k) ∧ ∀ t ∈ ts, t.task ≠ task.id
  | .within log => ∃ t rest, ts = t :: rest ∧ t.task = task.id ∧ t.own = log ∧
      task.place = .holding t.ticket
  | .after => ∀ k, task.place ≠ .holding k

/-- Whether a task refreshes the prompt or serves a request. -/
def Delivery.isGated : Delivery → Prop
  | .serve .. | .interrupt true => True
  | _ => False

/-- Whether a payload brings input for the interpreter. -/
def Delivery.isInput : Delivery → Bool
  | .input _ => true
  | _ => false

/-- A task keeps to its turn. -/
def Task.Stands (H : List Entry) (task : Task) : Prop :=
  ∃ work ticket stage, .spawned task.id work ticket ∈ H ∧ work.isGated ∧
    (task.program.Keeps (.turn task.id work) stage fun _ y => y = .before ∨ y = .after) ∧
      stage.Fits (latestTurns H) task

namespace System

variable {sys sys' : System}

/-- Every turn but the latest is over, and that is over or its task holds the gate; the console
shows what the tasks say in their turns. -/
structure Orderly (sys : System) (H : List Entry) : Prop where
  tasks : ∀ task ∈ sys.tasks, task.Stands H
  console : consoleOf H = (turns H).flatMap Turn.console
  undisturbed : ∀ t ∈ latestTurns H, t.Undisturbed H
  finished : ∀ t ∈ (latestTurns H).tail, t.Finished H
  latest : ∀ t, (latestTurns H).head? = some t → t.Finished H ∨
    ∃ task ∈ sys.tasks, task.id = t.task ∧ task.place = .holding t.ticket
  distinct : ((latestTurns H).map Turn.task).Nodup
  below : ∀ t ∈ latestTurns H, t.task < sys.nextTask

/-- The console goes on with what the task shows whose turn it is, as long as no other shows
anything. -/
theorem consoleOf_see (console : consoleOf H = (turns H).flatMap Turn.console)
    (noAdmission : ∀ e ∈ es, e.isAdmission = false)
    (shown : ∀ o r, .sent o r ∈ es → r.isConsole = true →
      ∃ t, (latestTurns H).head? = some t ∧ o = some t.task) :
    consoleOf (H ++ es) = (turns (H ++ es)).flatMap Turn.console := by
  cases turn : latestTurns H with
  | nil =>
    have silent : consoleOf es = [] := by
      refine List.filter_eq_nil_iff.mpr fun r mem shows => ?_
      obtain ⟨o, sent⟩ := mem_responses.mp mem
      obtain ⟨t, none, -⟩ := shown o r sent shows
      simp [turn] at none
    rw [turns, turn] at console
    rw [consoleOf_append, console, silent, turns, latestTurns_append_nil turn noAdmission]
    rfl
  | cons t rest =>
    rw [turn, List.head?_cons] at shown
    have owned : consoleOf (es.filter (·.owner = some t.task)) = consoleOf es := by
      refine consoleOf_filter fun o r sent shows => ?_
      obtain ⟨_, ⟨⟩, rfl⟩ := shown o r sent shows
      simp [Entry.owner]
    rw [consoleOf_append, console, turns, turns, latestTurns_append_cons turn noAdmission, turn]
    simp [Turn.console, Turn.see_own, owned]

/-- A turn stays undisturbed if its own task and those of requests are all that tell anything. -/
theorem undisturbed_see (undisturbed : t.Undisturbed H)
    (told : ∀ id r, .sent (some id) r ∈ es → Serves H id ∨ id = t.task) :
    (t.see es).Undisturbed (H ++ es) := by
  intro id r mem
  rw [Turn.see_others, List.mem_append, List.mem_filter] at mem
  rcases mem with before | ⟨sent, notOwn⟩
  · exact (undisturbed id r before).append es
  · rcases told id r sent with serves | rfl
    · exact serves.append es
    · simp [Entry.owner] at notOwn

/-- More is seen, but no admission. What is shown in the console is shown by the task whose turn it
is. -/
theorem Orderly.see (orderly : sys.Orderly H) (noAdmission : ∀ e ∈ es, e.isAdmission = false)
    (next : sys.nextTask ≤ sys'.nextTask) (tasks : ∀ task ∈ sys'.tasks, task.Stands (H ++ es))
    (shown : ∀ o r, .sent o r ∈ es → r.isConsole = true →
      ∃ t, (latestTurns H).head? = some t ∧ o = some t.task)
    (told : ∀ id r, .sent (some id) r ∈ es → Serves H id ∨
      ∃ t, (latestTurns H).head? = some t ∧ id = t.task)
    (latest : ∀ t, (latestTurns H).head? = some t → (t.see es).Finished (H ++ es) ∨
      ∃ task ∈ sys'.tasks, task.id = t.task ∧ task.place = .holding t.ticket) :
    sys'.Orderly (H ++ es) := by
  have console := consoleOf_see orderly.console noAdmission shown
  cases turn : latestTurns H with
  | nil =>
    have empty := latestTurns_append_nil turn noAdmission
    refine ⟨tasks, console, ?_, ?_, ?_, ?_, ?_⟩
    all_goals simp [empty]
  | cons t rest =>
    have extended := latestTurns_append_cons turn noAdmission
    rw [turn, List.head?_cons] at told latest
    obtain ⟨-, -, undisturbed, finished, -, distinct, below⟩ := orderly
    rw [turn, List.forall_mem_cons] at undisturbed below
    rw [turn, List.tail_cons] at finished
    rw [turn] at distinct
    refine ⟨tasks, console, ?_, ?_, ?_, ?_, ?_⟩
    · rw [extended, List.forall_mem_cons]
      refine ⟨undisturbed_see undisturbed.1 fun id r sent => ?_,
        fun u mem => (undisturbed.2 u mem).append es⟩
      refine (told id r sent).imp_right ?_
      rintro ⟨_, ⟨⟩, rfl⟩
      rfl
    · rw [extended]
      exact fun u mem => (finished u mem).append es
    · rw [extended]
      simpa using latest
    · simpa [extended] using distinct
    · rw [extended, List.forall_mem_cons]
      exact ⟨Nat.lt_of_lt_of_le below.1 next,
        fun u mem => Nat.lt_of_lt_of_le (below.2 u mem) next⟩

/-- A task is admitted, and its turn begins. All turns before are over. -/
theorem Orderly.enter {id : TaskId} {k : Ticket} (orderly : sys.Orderly H)
    (tasks : ∀ task ∈ sys'.tasks, task.Stands (H ++ [.admitted id k]))
    (next : sys'.nextTask = sys.nextTask) (below : id < sys.nextTask)
    (new : ∀ t ∈ latestTurns H, t.task ≠ id) (free : ∀ t ∈ latestTurns H, t.Finished H)
    (admitted : ∃ task ∈ sys'.tasks, task.id = id ∧ task.place = .holding k) :
    sys'.Orderly (H ++ [.admitted id k]) := by
  have latest := latestTurns_admitted H id k
  refine ⟨tasks, ?_, ?_, ?_, ?_, ?_, ?_⟩
  · rw [consoleOf_append, orderly.console, turns, turns, latest]
    simp [Turn.console, Turn.own, consoleOf, responses, Entry.response?]
  · rw [latest, List.forall_mem_cons]
    refine ⟨fun _ _ mem => ?_, fun t mem => (orderly.undisturbed t mem).append _⟩
    simp [Turn.others] at mem
  · rw [latest]
    exact fun t mem => (free t mem).append _
  · rw [latest]
    rintro _ ⟨⟩
    exact .inr admitted
  · rw [latest, List.map_cons, List.nodup_cons]
    refine ⟨?_, orderly.distinct⟩
    rw [List.mem_map]
    rintro ⟨t, mem, same⟩
    exact new t mem same
  · rw [latest, List.forall_mem_cons, next]
    exact ⟨below, orderly.below⟩

end System

/-! ### Other tasks -/

/-- What a task does leaves the others where they stand. -/
theorem Task.Stands.see {task : Task} (stands : task.Stands H)
    (noAdmission : ∀ e ∈ es, e.isAdmission = false) (other : ∀ e ∈ es, e.owner ≠ some task.id) :
    task.Stands (H ++ es) := by
  obtain ⟨work, ticket, stage, spawned, gated, keeps, fits⟩ := stands
  refine ⟨work, ticket, stage, List.mem_append_left es spawned, gated, keeps, ?_⟩
  cases stage with
  | before => exact ⟨fits.1, (forall_task_append (P := (· ≠ task.id)) noAdmission).mpr fits.2⟩
  | within log =>
    obtain ⟨t, rest, latest, same, own, place⟩ := fits
    have unchanged : (t.see es).own = t.own := by
      refine Turn.see_own_of_others fun e mem => ?_
      rw [same]
      exact other e mem
    exact ⟨t.see es, rest, latestTurns_append_cons latest noAdmission, same, unchanged.trans own,
      place⟩
  | after => exact fits

theorem Task.Stands.enter {task : Task} {id : TaskId} {k : Ticket} (stands : task.Stands H)
    (notHolding : ∀ k, task.place ≠ .holding k) (other : task.id ≠ id) :
    task.Stands (H ++ [.admitted id k]) := by
  obtain ⟨work, ticket, stage, spawned, gated, keeps, fits⟩ := stands
  refine ⟨work, ticket, stage, List.mem_append_left _ spawned, gated, keeps, ?_⟩
  cases stage with
  | before =>
    rw [Stage.Fits, latestTurns_admitted, List.forall_mem_cons]
    exact ⟨notHolding, other.symm, fits.2⟩
  | within log =>
    obtain ⟨t, rest, -, -, -, place⟩ := fits
    exact absurd place (notHolding t.ticket)
  | after => exact fits

namespace System

variable {sys sys' : System}

/-- One task goes on without an admission. Only in its turn may it show something in the console,
and only the task of a request may tell anything outside it. -/
theorem Orderly.go {l r : List Task} {t t' : Task} {s : Session} (orderly : sys.Orderly H)
    (numbered : sys.WellNumbered) (split : sys.tasks = l ++ t :: r) (same : t'.id = t.id)
    (noAdmission : ∀ e ∈ es, e.isAdmission = false) (owned : ∀ e ∈ es, e.owner = some t.id)
    (stands : t'.Stands (H ++ es))
    (silent : (∃ turn, (latestTurns H).head? = some turn ∧ turn.task = t.id) ∨
      ∀ m, .sent (some t.id) m ∈ es → m.isConsole = false ∧ Serves H t.id)
    (latest : ∀ turn, (latestTurns H).head? = some turn → turn.task = t.id →
      (turn.see es).Finished (H ++ es) ∨ t'.place = .holding turn.ticket) :
    { sys with session := s, tasks := l ++ t' :: r }.Orderly (H ++ es) := by
  have apart := numbered.apart split
  refine orderly.see noAdmission (Nat.le_refl _) ?_ ?_ ?_ ?_
  · intro u mem
    rcases mem_singled.mp mem with rfl | mem
    · exact stands
    · exact (orderly.tasks u (mem_of_mem_others split mem)).see noAdmission fun e seen => by
        simpa [owned e seen] using (apart u mem).symm
  · intro o m sent shows
    obtain rfl : o = some t.id := owned _ sent
    rcases silent with ⟨turn, isLatest, own⟩ | silent
    · exact ⟨turn, isLatest, by rw [own]⟩
    · rw [(silent m sent).1] at shows
      cases shows
  · intro id m sent
    obtain ⟨⟩ : some id = some t.id := owned _ sent
    rcases silent with ⟨turn, isLatest, own⟩ | silent
    · exact .inr ⟨turn, isLatest, own.symm⟩
    · exact .inl (silent m sent).2
  · intro turn isLatest
    by_cases own : turn.task = t.id
    · refine (latest turn isLatest own).imp id fun place => ⟨t', ?_, same.trans own.symm, place⟩
      exact mem_singled.mpr (.inl rfl)
    · rcases orderly.latest turn isLatest with finished | ⟨u, mem, isTurn, place⟩
      · have unchanged : (turn.see es).own = turn.own :=
          Turn.see_own_of_others fun e seen => by simpa [owned e seen] using Ne.symm own
        obtain ⟨work, ticket, spawned, complete⟩ := finished
        exact .inl ⟨work, ticket, List.mem_append_left es spawned, unchanged ▸ complete⟩
      · have notMoved : u ≠ t := fun moved => own (isTurn.symm.trans (congrArg Task.id moved))
        have others := mem_others_of_ne split mem notMoved
        exact .inr ⟨u, mem_singled.mpr (.inr others), isTurn, place⟩

/-- A task that has not had its turn goes on without it. -/
theorem Orderly.before {l r : List Task} {t t' : Task} {s : Session} {work : Delivery}
    {ticket : Option Ticket} (orderly : sys.Orderly H) (numbered : sys.WellNumbered)
    (split : sys.tasks = l ++ t :: r) (same : t'.id = t.id)
    (spawned : .spawned t.id work ticket ∈ H) (gated : work.isGated)
    (fits : Stage.before.Fits (latestTurns H) t) (noAdmission : ∀ e ∈ es, e.isAdmission = false)
    (owned : ∀ e ∈ es, e.owner = some t.id)
    (silent : ∀ m, .sent (some t.id) m ∈ es → m.isConsole = false ∧ work ≠ .interrupt true)
    (notHolding : ∀ k, t'.place ≠ .holding k)
    (keeps : t'.program.Keeps (.turn t.id work) .before fun _ y => y = .before ∨ y = .after) :
    { sys with session := s, tasks := l ++ t' :: r }.Orderly (H ++ es) := by
  refine orderly.go numbered split same noAdmission owned ?_ (.inr fun m sent => ?_) ?_
  · have untaken := (forall_task_append (P := (· ≠ t.id)) noAdmission).mpr fits.2
    rw [← same] at spawned keeps untaken
    exact ⟨work, ticket, .before, List.mem_append_left es spawned, gated, keeps, notHolding,
      untaken⟩
  · obtain ⟨quiet, request⟩ := silent m sent
    refine ⟨quiet, ?_⟩
    cases work with
    | serve c q => exact ⟨c, q, ticket, spawned⟩
    | interrupt refreshes =>
      cases refreshes with
      | true => exact absurd rfl request
      | false => exact gated.elim
    | _ => exact gated.elim
  · intro turn isLatest own
    exact absurd own (fits.2 turn (List.mem_of_mem_head? isLatest))

/-- A task goes on in its turn. -/
theorem Orderly.within {l r : List Task} {t t' : Task} {s : Session} {work : Delivery}
    {ticket : Option Ticket} {log : List Entry} (orderly : sys.Orderly H)
    (numbered : sys.WellNumbered) (split : sys.tasks = l ++ t :: r) (same : t'.id = t.id)
    (spawned : .spawned t.id work ticket ∈ H) (gated : work.isGated)
    (fits : (Stage.within log).Fits (latestTurns H) t)
    (noAdmission : ∀ e ∈ es, e.isAdmission = false) (owned : ∀ e ∈ es, e.owner = some t.id)
    (place : t'.place = t.place)
    (keeps : t'.program.Keeps (.turn t.id work) (.within (log ++ es)) fun _ y =>
      y = .before ∨ y = .after) :
    { sys with session := s, tasks := l ++ t' :: r }.Orderly (H ++ es) := by
  obtain ⟨turn, rest, latest, own, logged, holding⟩ := fits
  have isLatest : (latestTurns H).head? = some turn := by rw [latest, List.head?_cons]
  refine orderly.go numbered split same noAdmission owned ?_ (.inl ⟨turn, isLatest, own⟩) ?_
  · have logged' : (turn.see es).own = log ++ es := by
      rw [Turn.see_own_of_owned (by rwa [own]), logged]
    rw [← same] at spawned keeps own
    exact ⟨work, ticket, .within (log ++ es), List.mem_append_left es spawned, gated, keeps,
      turn.see es, rest, latestTurns_append_cons latest noAdmission, own, logged',
      place.trans holding⟩
  · intro _ isLatest' _
    obtain ⟨⟩ := isLatest.symm.trans isLatest'
    exact .inr (place.trans holding)

/-- A task ends its turn when it is complete. -/
theorem Orderly.release {l r : List Task} {t t' : Task} {s : Session} {work : Delivery}
    {ticket : Option Ticket} {log : List Entry} (orderly : sys.Orderly H)
    (numbered : sys.WellNumbered) (split : sys.tasks = l ++ t :: r) (same : t'.id = t.id)
    (spawned : .spawned t.id work ticket ∈ H) (gated : work.isGated)
    (fits : (Stage.within log).Fits (latestTurns H) t) (complete : Complete t.id work log)
    (place : t'.place = .none)
    (keeps : t'.program.Keeps (.turn t.id work) .after fun _ y => y = .before ∨ y = .after) :
    { sys with session := s, tasks := l ++ t' :: r }.Orderly H := by
  obtain ⟨turn, rest, latest, own, logged, holding⟩ := fits
  have isLatest : (latestTurns H).head? = some turn := by rw [latest, List.head?_cons]
  have goes : { sys with session := s, tasks := l ++ t' :: r }.Orderly (H ++ []) := by
    refine orderly.go numbered split same (by simp) (by simp) ?_ (.inl ⟨turn, isLatest, own⟩) ?_
    · rw [← same] at spawned keeps
      rw [List.append_nil]
      exact ⟨work, ticket, .after, spawned, gated, keeps, by simp [Stage.Fits, place]⟩
    · intro _ isLatest' _
      obtain ⟨⟩ := isLatest.symm.trans isLatest'
      have logged' : (turn.see []).own = log := by
        rw [Turn.see_own_of_owned (by simp), List.append_nil, logged]
      refine .inl ⟨work, ticket, ?_, ?_⟩
      · simpa [own] using spawned
      · rw [logged', Turn.see_task, own]
        exact complete
  simpa using goes

end System

/-- Whether a step is about the gate. -/
def Op.isGate : Op → Bool
  | .lockGate | .lockGateWithin _ | .releaseGate => true
  | _ => false

namespace Session

variable {s s' : Session} {t t' : Task} {op : Op} {a : op.Result}

/-- Only steps about the gate change what a task has of it. -/
theorem perform_task (performed : s.perform t op = some (a, s', t')) (other : op.isGate = false) :
    t' = t := by
  have done := perform_eq_some performed
  cases op with
  | lockGate | lockGateWithin | releaseGate => simp [Op.isGate] at other
  | resolve => exact done.1
  | emit | flush | enter => exact done.2
  | _ => exact done.2.2.2

/-- Nor do other steps admit a task. -/
theorem admission_of_not_isGate (t : Task) (other : op.isGate = false) : t.admission op = [] := by
  cases op <;> first | rfl | simp [Op.isGate] at other

/-- What a task queues in its turn is seen as its step. -/
theorem perform_isSeenAs (performed : s.perform t op = some (a, s', t'))
    (other : op.isGate = false) : op.isSeenAs t.id a (sentBy t.id (s.emitted op)) := by
  cases op with
  | lockGate | lockGateWithin | releaseGate => simp [Op.isGate] at other
  | emit r => rfl
  | flush => exact ⟨s.relay.queue, rfl⟩
  | enter l => exact ⟨s.debugger.depth + 1, rfl⟩
  | call => simp [perform] at performed
  | _ => rfl

/-- A task that waits for the gate and goes on is admitted. -/
theorem perform_admits (performed : s.perform t op = some (a, s', t'))
    (notHolding : ∀ k, t.place ≠ .holding k) (waits : op.isGate = true)
    (notRelease : op ≠ .releaseGate) :
    ∃ k gate, t.place = .queued k ∧ s.gate.enter? k = some gate ∧ s' = { s with gate } ∧
      t' = { t with place := .holding k } ∧ t.admission op = [.admitted t.id k] ∧
        op.entersAs a = .within [] := by
  have done := perform_eq_some performed
  cases op with
  | lockGate =>
    obtain ⟨k, place, -, -⟩ | ⟨k, gate, place, entered, rfl, rfl⟩ := enterGate?_eq_some done
    · exact absurd place (notHolding k)
    · exact ⟨k, gate, place, entered, rfl, rfl, by simp [Task.admission, place], rfl⟩
  | lockGateWithin =>
    obtain ⟨k, place, -, -⟩ | ⟨k, gate, place, entered, rfl, rfl⟩ := enterGate?_eq_some done
    · exact absurd place (notHolding k)
    · refine ⟨k, gate, place, entered, rfl, rfl, by simp [Task.admission, place], ?_⟩
      simp only [perform, Option.map_eq_some_iff, Prod.mk.injEq] at performed
      obtain ⟨-, -, rfl, -⟩ := performed
      rfl
  | releaseGate => exact absurd rfl notRelease
  | _ => simp [Op.isGate] at waits

/-- A task that queues up does not hold the gate. -/
theorem arrive_notHolding (notHolding : ∀ k, t.place ≠ .holding k) :
    ∀ k, (s.arrive t op).2.place ≠ .holding k := by
  cases op with
  | lockGate | lockGateWithin =>
    cases place : t.place with
    | none => simp [arrive, place]
    | queued k => simp [arrive, place]
    | holding k => exact absurd place (notHolding k)
  | _ => exact notHolding

/-- Outside its turn a task shows nothing in the console, and a refresh tells nothing. -/
theorem emitted_silent {work : Delivery} (s : Session) (outside : op.isOutside work) :
    ∀ m ∈ s.emitted op, m.isConsole = false ∧ work ≠ .interrupt true := by
  cases op with
  | emit r => simpa [emitted] using outside
  | enter l => simpa [emitted, Level.debugEvent] using outside
  | flush => exact outside.elim
  | _ => simp [emitted]

end Session

namespace System

variable {sys sys' : System}

/-- While the gate is free no task holds it. -/
theorem notHolding_of_free (owned : sys.GateOwned) (free : sys.session.gate.holder = none) :
    ∀ task ∈ sys.tasks, ∀ k, task.place ≠ .holding k := by
  intro task mem k holding
  have held : .holding k ∈ sys.tasks.map Task.place := holding ▸ List.mem_map_of_mem mem
  rw [← Gate.Owned.holder_eq_some_iff owned, free] at held
  cases held

/-- While the gate is free all turns are over. -/
theorem Orderly.finished_of_free (orderly : sys.Orderly H) (owned : sys.GateOwned)
    (free : sys.session.gate.holder = none) : ∀ t ∈ latestTurns H, t.Finished H := by
  have finished := orderly.finished
  have latest := orderly.latest
  cases turn : latestTurns H with
  | nil => simp
  | cons t rest =>
    rw [turn, List.tail_cons] at finished
    refine List.forall_mem_cons.mpr ⟨?_, finished⟩
    rcases latest t (by rw [turn, List.head?_cons]) with complete | ⟨task, mem, -, holding⟩
    · exact complete
    · exact absurd holding (notHolding_of_free owned free task mem t.ticket)

section Steps

variable {l r : List Task} {t t' : Task} {op : Op} {next : op.Result → Program Unit}
  {a : op.Result} {s : Session} {work : Delivery} {ticket : Option Ticket} {log : List Entry}

/-- A task is admitted when the gate is free, so that all turns before are over. -/
theorem Orderly.admission (orderly : sys.Orderly H) (numbered : sys.WellNumbered)
    (owned : sys.GateOwned) (split : sys.tasks = l ++ t :: r)
    (spawned : .spawned t.id work ticket ∈ H) (gated : work.isGated)
    (fits : Stage.before.Fits (latestTurns H) t)
    (keeps : (next a).Keeps (.turn t.id work) (op.entersAs a) fun _ y => y = .before ∨ y = .after)
    (performed : sys.session.perform t op = some (a, s, t')) (gate : op.isGate = true)
    (notRelease : op ≠ .releaseGate) :
    { sys with session := s, tasks := l ++ { t' with program := next a } :: r }.Orderly
      (H ++ (t.admission op ++ sentBy t.id (sys.session.emitted op))) := by
  obtain ⟨k, gate', place, entered, rfl, rfl, admission, enters⟩ :=
    Session.perform_admits performed fits.1 gate notRelease
  have quiet : sys.session.emitted op = [] := by
    cases op <;> first | rfl | simp [Op.isGate] at gate
  have free := (Gate.enter?_eq_some entered).1
  have idle := notHolding_of_free owned free
  rw [enters] at keeps
  rw [admission, quiet, sentBy_nil, List.append_nil]
  refine orderly.enter ?_ rfl (numbered.below t (mem_of_split split)) fits.2
    (orderly.finished_of_free owned free) ?_
  · have begins : Task.Stands (H ++ [.admitted t.id k])
        { t with place := .holding k, program := next a } :=
      ⟨work, ticket, .within [], List.mem_append_left _ spawned, gated, keeps, _, _,
        latestTurns_admitted H t.id k, rfl, rfl, rfl⟩
    have others (u : Task) (mem : u ∈ l ++ r) : u.Stands (H ++ [.admitted t.id k]) := by
      have mem' := mem_of_mem_others split mem
      exact (orderly.tasks u mem').enter (idle u mem') (numbered.apart split u mem)
    rw [List.forall_mem_append] at others
    exact List.forall_mem_append.mpr ⟨others.1, List.forall_mem_cons.mpr ⟨begins, others.2⟩⟩
  · exact ⟨_, List.mem_append_right l List.mem_cons_self, rfl, rfl⟩

theorem Orderly.perform_before (orderly : sys.Orderly H) (numbered : sys.WellNumbered)
    (owned : sys.GateOwned) (split : sys.tasks = l ++ t :: r)
    (spawned : .spawned t.id work ticket ∈ H) (gated : work.isGated)
    (fits : Stage.before.Fits (latestTurns H) t) (outside : op.isOutside work)
    (keeps : (next a).Keeps (.turn t.id work) (op.entersAs a) fun _ y => y = .before ∨ y = .after)
    (performed : sys.session.perform t op = some (a, s, t')) :
    { sys with session := s, tasks := l ++ { t' with program := next a } :: r }.Orderly
      (H ++ (t.admission op ++ sentBy t.id (sys.session.emitted op))) := by
  cases gate : op.isGate with
  | true =>
    by_cases releases : op = .releaseGate
    · subst releases
      obtain ⟨-, rfl⟩ := Session.perform_eq_some performed
      have nothing : t.admission .releaseGate ++
          sentBy t.id (sys.session.emitted .releaseGate) = [] := rfl
      rw [nothing]
      exact orderly.before numbered split rfl spawned gated fits (by simp) (by simp) (by simp)
        (by simp) keeps
    · exact orderly.admission numbered owned split spawned gated fits keeps performed gate
        releases
  | false =>
    obtain rfl := Session.perform_task performed gate
    have plain := Session.admission_of_not_isGate t' gate
    have stays : op.entersAs a = .before := by
      cases op <;> first | rfl | simp [Op.isGate] at gate
    rw [stays] at keeps
    rw [plain, List.nil_append]
    refine orderly.before numbered split rfl spawned gated fits (isAdmission_sentBy _ _)
      (owner_sentBy _ _) ?_ fits.1 keeps
    intro m mem
    exact sys.session.emitted_silent outside m (mem_sentBy.mp mem)

theorem Orderly.perform_within (orderly : sys.Orderly H) (numbered : sys.WellNumbered)
    (split : sys.tasks = l ++ t :: r) (spawned : .spawned t.id work ticket ∈ H)
    (gated : work.isGated) (fits : (Stage.within log).Fits (latestTurns H) t)
    (allowed : op.isWithin t.id work log)
    (keeps : ∀ y, (Discipline.turn t.id work).moves (.within log) op a y →
      (next a).Keeps (.turn t.id work) y fun _ z => z = .before ∨ z = .after)
    (performed : sys.session.perform t op = some (a, s, t')) :
    { sys with session := s, tasks := l ++ { t' with program := next a } :: r }.Orderly
      (H ++ (t.admission op ++ sentBy t.id (sys.session.emitted op))) := by
  cases gate : op.isGate with
  | true =>
    cases op with
    | releaseGate =>
      obtain ⟨-, rfl⟩ := Session.perform_eq_some performed
      have nothing : t.admission .releaseGate ++
          sentBy t.id (sys.session.emitted .releaseGate) = [] := rfl
      rw [nothing, List.append_nil]
      exact orderly.release numbered split rfl spawned gated fits allowed rfl (keeps .after rfl)
    | lockGate | lockGateWithin => exact allowed.elim
    | _ => simp [Op.isGate] at gate
  | false =>
    obtain rfl := Session.perform_task performed gate
    have plain := Session.admission_of_not_isGate t' gate
    have seen := Session.perform_isSeenAs performed gate
    have notRelease : op ≠ .releaseGate := by
      rintro rfl
      simp [Op.isGate] at gate
    rw [plain, List.nil_append]
    refine orderly.within numbered split rfl spawned gated fits (isAdmission_sentBy _ _)
      (owner_sentBy _ _) rfl (keeps _ ?_)
    rw [Discipline.turn_moves_within, if_neg notRelease]
    exact ⟨_, seen, rfl⟩

/-- A step of a task keeps the order. -/
theorem Orderly.perform (orderly : sys.Orderly H) (numbered : sys.WellNumbered)
    (owned : sys.GateOwned) (split : sys.tasks = l ++ t :: r) (program : t.program = .step op next)
    (performed : sys.session.perform t op = some (a, s, t')) :
    { sys with session := s, tasks := l ++ { t' with program := next a } :: r }.Orderly
      (H ++ (t.admission op ++ sentBy t.id (sys.session.emitted op))) := by
  obtain ⟨work, ticket, stage, spawned, gated, keeps, fits⟩ := orderly.tasks t (mem_of_split split)
  rw [program] at keeps
  obtain ⟨allowed, rest⟩ := keeps
  cases stage with
  | before =>
    exact orderly.perform_before numbered owned split spawned gated fits allowed (rest a _ rfl)
      performed
  | within log =>
    exact orderly.perform_within numbered split spawned gated fits allowed (rest a) performed
  | after => exact allowed.elim

/-- A task that queues up keeps the order. -/
theorem Orderly.arrive (orderly : sys.Orderly H) (numbered : sys.WellNumbered)
    (split : sys.tasks = l ++ t :: r) (program : t.program = .step op next) :
    { sys with
      session := (sys.session.arrive t op).1
      tasks := l ++ { (sys.session.arrive t op).2 with
        deadline := sys.session.deadlineOf op } :: r }.Orderly (H ++ []) := by
  obtain ⟨work, ticket, stage, spawned, gated, keeps, fits⟩ := orderly.tasks t (mem_of_split split)
  have same := Session.arrive_id sys.session t op
  have unchanged := Session.program_arrive sys.session t op
  cases stage with
  | before =>
    refine orderly.before numbered split same spawned gated fits (by simp) (by simp) (by simp)
      ?_ (unchanged.symm ▸ keeps)
    exact Session.arrive_notHolding fits.1
  | within log =>
    have place : (sys.session.arrive t op).2.place = t.place := by
      rw [program] at keeps
      cases op with
      | lockGate | lockGateWithin => exact keeps.1.elim
      | _ => rfl
    refine orderly.within numbered split same spawned gated fits (by simp) (by simp) place ?_
    rw [List.append_nil]
    exact unchanged.symm ▸ keeps
  | after =>
    rw [program] at keeps
    exact keeps.1.elim

/-- An answer of the interpreter is seen in the turn of the task that asked. -/
theorem Orderly.answer {c : Call} {relaying : Bool} {next : c.Answer → Program Unit}
    (orderly : sys.Orderly H) (numbered : sys.WellNumbered) (a : c.Answer)
    (split : sys.tasks = l ++ t :: r) (program : t.program = .step (.call c relaying) next) :
    { sys with tasks := l ++ { t with program := next a } :: r }.Orderly
      (H ++ [Entry.answered t.id c a]) := by
  obtain ⟨work, ticket, stage, spawned, gated, keeps, fits⟩ := orderly.tasks t (mem_of_split split)
  rw [program] at keeps
  obtain ⟨allowed, rest⟩ := keeps
  cases stage with
  | before =>
    exact orderly.before numbered split rfl spawned gated fits (by simp [Entry.isAdmission])
      (by simp [Entry.owner]) (by simp) fits.1 (rest a .before rfl)
  | within log =>
    refine orderly.within numbered split rfl spawned gated fits (by simp [Entry.isAdmission])
      (by simp [Entry.owner]) rfl (rest a _ ?_)
    rw [Discipline.turn_moves_within, if_neg (by simp)]
    exact ⟨_, ⟨[], fun _ => rfl, rfl⟩, rfl⟩
  | after => exact allowed.elim

/-- The order depends on the tasks alone. -/
theorem Orderly.congr (orderly : sys.Orderly H) (tasks : sys'.tasks = sys.tasks)
    (next : sys'.nextTask = sys.nextTask) : sys'.Orderly H := by
  obtain ⟨stands, console, undisturbed, finished, latest, distinct, below⟩ := orderly
  exact ⟨tasks ▸ stands, console, undisturbed, finished, tasks ▸ latest, distinct, next ▸ below⟩

/-- Output is relayed in the turn of the task that relays. -/
theorem Orderly.forward {c : Call} {next : c.Answer → Program Unit} {chunk : Chunk}
    (orderly : sys.Orderly H) (numbered : sys.WellNumbered) (split : sys.tasks = l ++ t :: r)
    (program : t.program = .step (.call c true) next) :
    { sys with session := s }.Orderly (H ++ [Entry.sent (some t.id) chunk.response]) := by
  obtain ⟨work, ticket, stage, spawned, gated, keeps, fits⟩ := orderly.tasks t (mem_of_split split)
  rw [program] at keeps
  cases stage with
  | before => exact absurd keeps.1.1 (by simp)
  | within log =>
    have goes : { sys with session := s, tasks := l ++ t :: r }.Orderly
        (H ++ sentBy t.id [chunk.response]) :=
      orderly.within numbered split rfl spawned gated fits (isAdmission_sentBy _ _)
        (owner_sentBy _ _) rfl (program ▸ Program.keeps_relayed keeps)
    exact goes.congr split rfl
  | after => exact keeps.1.elim

/-- A task that gives up waiting has not had its turn. -/
theorem Orderly.expire {limit : Nat} {next : Bool → Program Unit} (orderly : sys.Orderly H)
    (numbered : sys.WellNumbered) (split : sys.tasks = l ++ t :: r)
    (program : t.program = .step (.lockGateWithin limit) next) :
    { sys with
      session := s
      tasks := l ++ { t with place := .none, program := next false } :: r }.Orderly (H ++ []) := by
  obtain ⟨work, ticket, stage, spawned, gated, keeps, fits⟩ := orderly.tasks t (mem_of_split split)
  rw [program] at keeps
  obtain ⟨allowed, rest⟩ := keeps
  cases stage with
  | before =>
    exact orderly.before numbered split rfl spawned gated fits (by simp) (by simp) (by simp)
      (by simp) (rest false .before rfl)
  | within log => exact allowed.elim
  | after => exact allowed.elim

/-- A task that ends does not hold the gate. -/
theorem Orderly.finish (orderly : sys.Orderly H) (split : sys.tasks = l ++ t :: r)
    (program : t.program = .done ()) :
    { sys with session := s, tasks := l ++ r }.Orderly (H ++ []) := by
  have notHolding : ∀ k, t.place ≠ .holding k := by
    obtain ⟨work, ticket, stage, -, -, keeps, fits⟩ := orderly.tasks t (mem_of_split split)
    rw [program] at keeps
    rcases keeps with rfl | rfl
    · exact fits.1
    · exact fits
  obtain ⟨stands, console, undisturbed, finished, latest, distinct, below⟩ := orderly
  have fewer (u : Task) (mem : u ∈ l ++ r) : u ∈ sys.tasks := mem_of_mem_others split mem
  rw [List.append_nil]
  refine ⟨fun u mem => stands u (fewer u mem), console, undisturbed, finished, ?_, distinct, below⟩
  intro turn isLatest
  refine (latest turn isLatest).imp_right ?_
  rintro ⟨u, mem, same, holding⟩
  refine ⟨u, mem_others_of_ne split mem ?_, same, holding⟩
  rintro rfl
  exact notHolding _ holding

end Steps

/-- Moves keep the order. -/
theorem Orderly.move (orderly : sys.Orderly H) (numbered : sys.WellNumbered)
    (owned : sys.GateOwned) (move : Move sys es sys') : sys'.Orderly (H ++ es) := by
  cases move with
  | perform split program performed => exact orderly.perform numbered owned split program performed
  | arrive split program => exact orderly.arrive numbered split program
  | answer a split program => exact orderly.answer numbered a split program
  | forward split program => exact orderly.forward numbered split program
  | expire split program => exact orderly.expire numbered split program
  | finish split program => exact orderly.finish split program
  | relay | tick =>
    rw [List.append_nil]
    exact orderly.congr rfl rfl

/-! ### Arrivals and runs -/

/-- What is not done by a task has no part in the turns; tasks may be added. -/
theorem Orderly.pass (orderly : sys.Orderly H) (noAdmission : ∀ e ∈ es, e.isAdmission = false)
    (unowned : ∀ e ∈ es, e.owner = none)
    (silent : ∀ o m, .sent o m ∈ es → m.isConsole = false) (next : sys.nextTask ≤ sys'.nextTask)
    (kept : ∀ task ∈ sys.tasks, task ∈ sys'.tasks)
    (added : ∀ task ∈ sys'.tasks, task ∈ sys.tasks ∨ task.Stands (H ++ es)) :
    sys'.Orderly (H ++ es) := by
  refine orderly.see noAdmission next ?_ ?_ ?_ ?_
  · intro task mem
    rcases added task mem with old | stands
    · exact (orderly.tasks task old).see noAdmission fun e seen => by simp [unowned e seen]
    · exact stands
  · intro o m sent shows
    rw [silent o m sent] at shows
    cases shows
  · intro id m sent
    cases unowned _ sent
  · intro turn isLatest
    rcases orderly.latest turn isLatest with finished | ⟨task, mem, same, holding⟩
    · have unchanged : (turn.see es).own = turn.own :=
        Turn.see_own_of_others fun e seen => by simp [unowned e seen]
      obtain ⟨work, ticket, spawned, complete⟩ := finished
      exact .inl ⟨work, ticket, List.mem_append_left es spawned, unchanged ▸ complete⟩
    · exact .inr ⟨task, kept task mem, same, holding⟩

/-- A new task has not had its turn. -/
theorem Orderly.spawn {task : Task} {payload : String} {work : Delivery} {ticket : Option Ticket}
    (orderly : sys.Orderly H) (added : sys'.tasks = sys.tasks ++ [task])
    (next : sys'.nextTask = sys.nextTask + 1) (number : task.id = sys.nextTask)
    (notHolding : ∀ k, task.place ≠ .holding k) (gated : work.isGated)
    (keeps : task.program.Keeps (.turn sys.nextTask work) .before fun _ y =>
      y = .before ∨ y = .after) :
    sys'.Orderly (H ++ [.delivered payload, .spawned sys.nextTask work ticket]) := by
  let arrived : List Entry := [.delivered payload, .spawned sys.nextTask work ticket]
  have noAdmission : ∀ e ∈ arrived, e.isAdmission = false := by simp [arrived, Entry.isAdmission]
  have stands : task.Stands (H ++ arrived) := by
    rw [← number] at keeps
    refine ⟨work, ticket, .before, ?_, gated, keeps, notHolding, ?_⟩
    · rw [number]
      exact List.mem_append_right H (by simp [arrived])
    · refine (forall_task_append (P := (· ≠ task.id)) noAdmission).mpr fun t mem => ?_
      exact Nat.ne_of_lt (number ▸ orderly.below t mem)
  refine orderly.pass noAdmission (by simp [Entry.owner]) (by simp)
    (next ▸ Nat.le_succ _) ?_ ?_
  · exact fun u mem => added ▸ List.mem_append_left _ mem
  · intro u mem
    rw [added] at mem
    refine (List.mem_append.mp mem).imp id fun new => ?_
    obtain rfl := List.mem_singleton.mp new
    exact stands

/-- Arrivals keep the order, if they are not input. -/
theorem Orderly.arrival {payload : String} (orderly : sys.Orderly H)
    (noInput : (Delivery.ofPayload payload).isInput = false)
    (arrival : Arrival sys payload es sys') : sys'.Orderly (H ++ es) := by
  cases arrival with
  | @gated command r =>
    refine orderly.spawn rfl rfl rfl ?_ ?_ (Program.keeps_serve_turn _ _ command r)
    · simp
    · trivial
  | @free command r =>
    refine orderly.spawn rfl rfl rfl ?_ ?_ (Program.keeps_serve_turn _ _ command r)
    · simp
    · trivial
  | refresh =>
    refine orderly.spawn rfl rfl rfl ?_ ?_ (Program.keeps_refreshAfterInterrupt_turn _)
    · simp
    · trivial
  | input delivery =>
    rw [delivery] at noInput
    cases noInput
  | refuse | silent =>
    exact orderly.pass (by simp [Entry.isAdmission]) (by simp [Entry.owner]) (by simp)
      (Nat.le_refl _) (fun _ mem => mem) fun _ mem => .inl mem

/-- Whether an event neither cancels a task nor brings input for the interpreter. -/
def Label.keepsTurns : Label → Prop
  | .cancel _ => False
  | .deliver payload => (Delivery.ofPayload payload).isInput = false
  | _ => True

theorem orderly_invariant :
    Invariant Label.keepsTurns fun sys H => sys.GateOwned ∧ sys.Orderly H where
  move numbered both move :=
    ⟨gateOwned_invariant.move (H := []) numbered both.1 move, both.2.move numbered both.1 move⟩
  arrival numbered noInput both arrival :=
    ⟨gateOwned_invariant.arrival (H := []) numbered trivial both.1 arrival,
      both.2.arrival noInput arrival⟩
  cancel _ kept := kept.elim

end System

end LispBridge
