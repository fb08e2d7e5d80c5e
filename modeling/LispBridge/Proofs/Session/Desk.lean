import LispBridge.Proofs.Relay.Fifo
import LispBridge.Proofs.Session.Alone
import LispBridge.Proofs.Session.RelayUse
import LispBridge.Proofs.Session.Steps

/-!
The tasks of a session are those who use its relay.

Every run of a session is accompanied by a run of a desk (`System.desk_of_run`): the desk has the
relay of the session, its lock and its outbox, and each task stands on it where its program is
(`Program.StandsAt`). What holds of desks therefore holds of sessions: what is queued, say, is the
last of what was printed (`System.queue_suffix_printedIn`).

* `Desk.Shows.perform`, `Desk.Shows.arrive`: what a task does is done on the desk.
* `Session.settle_shows`: so is a run of a task.
* `System.Attends.step`: so is a step of a session.
-/

namespace LispBridge

/-- What the interpreter says to a call. -/
abbrev Reply : Type := Σ c : Call, c.Answer

/-- Where a task that waits stands in a use of the relay. -/
inductive Program.StandsAt : Program Unit → Option (RelayStage Reply) → Prop where
  | waiting {next : Unit → Program Unit} :
      (next ()).TidyFrom .holding → StandsAt (.step .lockRelay next) (some .waiting)
  | working {c : Call} {next : c.Answer → Program Unit} :
      (∀ a, (next a).TidyFrom .closing) → StandsAt (.step (.call c true) next) (some .working)
  | apart {op : Op} {next : op.Result → Program Unit} :
      op.isPlain = true → (∀ a, (next a).Tidy) → StandsAt (.step op next) none

theorem Program.StandsAt.stage_cases {p : Program Unit} {stage : Option (RelayStage Reply)}
    (stands : p.StandsAt stage) :
    stage = some .waiting ∨ stage = some .working ∨ stage = none := by
  cases stands <;> simp

/-- Where a task stands, if there is one. -/
def Task.StandAt (stage : Option (RelayStage Reply)) : Option Task → Prop
  | some t => t.program.StandsAt stage
  | none => stage = none

namespace Desk

variable {d : Desk Reply} {s s' : Session} {t t' : Task} {op : Op} {a : op.Result}
  {phase phase' : RelayPhase}

/-- Whether a desk has the relay of a session, its lock and its outbox. -/
structure Shows (d : Desk Reply) (s : Session) : Prop where
  relay : d.relay = s.relay
  lock : d.lock = s.relayLock
  outbox : d.outbox = s.outbox

/-- Where a task that runs stands in a use of the relay. -/
def Suits (d : Desk Reply) (id : Nat) : RelayPhase → Prop
  | .idle => d.stage id = none
  | .holding => d.stage id = some .waiting ∧ d.lock.holder = some id
  | .working => d.stage id = some .working
  | .closing => ∃ v, d.stage id = some (.closing v)
  | .leaving => ∃ answer, d.stage id = some (.leaving answer)

end Desk

/-! ### What a task does -/

namespace Desk

variable {d : Desk Reply} {s s' : Session} {t t' : Task} {op : Op} {a : op.Result}
  {phase phase' : RelayPhase} {id : Nat}

/-- Who does not use the relay has nothing of its lock to give back. -/
theorem Shows.lock_of_idle (shows : d.Shows s) (attended : d.Attended) (idle : d.stage id = none) :
    d.lock = s.relayLock.leave id := by
  have outside : ¬ s.relayLock.Involves id := fun involved =>
    attended.known id (shows.lock ▸ involved) idle
  exact shows.lock.trans (Lock.leave_eq_self outside).symm

/-- A step that has no part in the relay at most queues messages. -/
theorem Shows.queue (shows : d.Shows s) (id : Nat) (performed : s.perform t op = some (a, s', t'))
    (keepsLock : op ≠ .unlockRelay) (takesNothing : ¬ (op = .flush ∨ op = .discard)) :
    ∃ d', d.Leads id d' ∧ d'.Shows s' ∧ d'.stage = d.stage ∧ d'.lock = d.lock := by
  have lock := Session.perform_relayLock performed
  have relay := Session.perform_relay performed
  rw [if_neg keepsLock] at lock
  rw [if_neg takesNothing] at relay
  refine ⟨_, .queue (s.emitted op), ⟨?_, ?_, ?_⟩, rfl, rfl⟩
  · exact shows.relay.trans relay.symm
  · exact shows.lock.trans lock.symm
  · rw [Session.perform_outbox performed, ← shows.outbox]

/-- Whoever has the lock begins to use the relay. -/
theorem Shows.begin (shows : d.Shows s) (waits : d.stage id = some .waiting)
    (holds : d.lock.holder = some id) (use : RelayUse) :
    ∃ d', d.Leads id d' ∧ d'.Shows s ∧ d'.stage id = some (.first use) := by
  have begun : Change d (.begin id use) _ := .begin waits holds
  exact ⟨_, .step begun rfl, ⟨shows.relay, shows.lock, shows.outbox⟩, by simp⟩

/-- What is queued is forwarded. -/
theorem Shows.flush {stage after : RelayStage Reply} (shows : d.Shows s)
    (now : d.stage id = some stage)
    (takes : ∀ n, (stage.found n).onChunk = some (stage.found (n + 1), .forwarded))
    (ends : (stage.found d.relay.queue.length).onEmpty = some after) :
    ∃ d', d.Leads id d' ∧ d'.Shows s.flush ∧ d'.stage id = some after := by
  obtain ⟨relay, lock, outbox⟩ := shows
  refine ⟨_, .clear now takes ends, ⟨?_, ?_, ?_⟩, by simp⟩
  · simp [clear, Session.flush, Relay.flush, relay]
  · simp [clear, Session.flush, Session.sendAll, lock]
  · simp [clear, messagesIn_taken, forwardedOf, Session.flush, Session.sendAll, Relay.flush, relay,
      outbox]

/-- What is queued is dropped. -/
theorem Shows.discard {stage after : RelayStage Reply} (shows : d.Shows s)
    (now : d.stage id = some stage)
    (takes : ∀ n, (stage.found n).onChunk = some (stage.found (n + 1), .dropped))
    (ends : (stage.found d.relay.queue.length).onEmpty = some after) :
    ∃ d', d.Leads id d' ∧ d'.Shows { s with relay := s.relay.flush.2 } ∧
      d'.stage id = some after := by
  obtain ⟨relay, lock, outbox⟩ := shows
  refine ⟨_, .clear now takes ends, ⟨?_, ?_, ?_⟩, by simp⟩
  · simp [clear, Relay.flush, relay]
  · simp [clear, lock]
  · simp [clear, messagesIn_taken, forwardedOf, outbox]

/-- A step that a task does at once is done on the desk. -/
theorem Shows.perform (shows : d.Shows s) (suits : d.Suits t.id phase)
    (step : phase.Step op phase') (now : op ≠ .lockRelay)
    (performed : s.perform t op = some (a, s', t')) :
    ∃ d', d.Leads t.id d' ∧ d'.Shows s' ∧ d'.Suits t.id phase' := by
  cases step with
  | plain plain =>
    have apart : op ≠ .unlockRelay ∧ ¬ (op = .flush ∨ op = .discard) := by
      cases op <;> simp_all
    obtain ⟨d', leads, shows', stage, -⟩ := shows.queue t.id performed apart.1 apart.2
    exact ⟨d', leads, shows', (congrFun stage t.id).trans suits⟩
  | ask => exact absurd rfl now
  | begin =>
    obtain ⟨waits, holds⟩ := suits
    cases performed
    obtain ⟨d₁, begun, shows₁, opens⟩ := shows.begin waits holds .drive
    obtain ⟨d₂, opened, shows₂, works⟩ := shows₁.flush opens (fun _ => rfl) rfl
    exact ⟨d₂, begun.trans opened, shows₂, works⟩
  | drop =>
    obtain ⟨waits, holds⟩ := suits
    cases performed
    obtain ⟨d₁, begun, shows₁, drops⟩ := shows.begin waits holds .discard
    obtain ⟨d₂, dropped, shows₂, leaves⟩ := shows₁.discard drops (fun _ => rfl) rfl
    exact ⟨d₂, begun.trans dropped, shows₂, _, leaves⟩
  | work => cases performed
  | close =>
    obtain ⟨v, closes⟩ := suits
    cases performed
    obtain ⟨d', closed, shows', leaves⟩ := shows.flush closes (fun _ => rfl) rfl
    exact ⟨d', closed, shows', _, leaves⟩
  | leave =>
    obtain ⟨answer, leaves⟩ := suits
    cases performed
    refine ⟨_, .step (.leave leaves) rfl, ⟨shows.relay, ?_, shows.outbox⟩, by simp [Suits]⟩
    exact congrArg (·.leave t.id) shows.lock

/-- On arriving at a step where it may have to wait, a task asks for the lock, or comes to its call,
or has no part in the relay. -/
theorem Shows.arrive {next : op.Result → Program Unit} (shows : d.Shows s)
    (suits : d.Suits t.id phase) (step : phase.Step op phase') (await : op.isAwait = true)
    (rest : ∀ a, (next a).TidyFrom phase') :
    ∃ d', d.Leads t.id d' ∧ d'.Shows (s.arrive t op).1 ∧
      (Program.step op next).StandsAt (d'.stage t.id) := by
  cases step with
  | @plain op plain =>
    have same : (s.arrive t op).1.relay = s.relay ∧ (s.arrive t op).1.relayLock = s.relayLock ∧
        (s.arrive t op).1.outbox = s.outbox := by
      cases op with
      | lockGate | lockGateWithin =>
        simp only [Session.arrive]
        split <;> exact ⟨rfl, rfl, rfl⟩
      | lockRelay => cases plain
      | _ => exact ⟨rfl, rfl, rfl⟩
    refine ⟨d, .refl, ⟨shows.relay.trans same.1.symm, shows.lock.trans same.2.1.symm,
      shows.outbox.trans same.2.2.symm⟩, ?_⟩
    rw [show d.stage t.id = none from suits]
    exact .apart plain rest
  | ask =>
    refine ⟨_, .step (.ask suits) rfl, ⟨shows.relay, ?_, shows.outbox⟩, ?_⟩
    · exact congrArg (·.join t.id) shows.lock
    · simpa using .waiting (rest ())
  | work =>
    refine ⟨d, .refl, ⟨shows.relay, shows.lock, shows.outbox⟩, ?_⟩
    rw [show d.stage t.id = some .working from suits]
    exact .working rest
  | begin | drop | close | leave => cases await

end Desk

/-- What a run of a task does is done on the desk. The induction is on the program that is run. -/
theorem Session.settle_shows {p : Program Unit} {phase : RelayPhase} {s : Session} {t : Task}
    {d : Desk Reply} (tidy : p.TidyFrom phase) (attended : d.Attended) (shows : d.Shows s)
    (suits : d.Suits t.id phase) :
    ∃ d', d.Leads t.id d' ∧ d'.Shows (s.settle t p).1 ∧
      Task.StandAt (d'.stage t.id) (s.settle t p).2 := by
  induction p generalizing phase s t d with
  | done v =>
    obtain rfl : phase = .idle := tidy
    exact ⟨d, .refl, ⟨shows.relay, shows.lock_of_idle attended suits, shows.outbox⟩, suits⟩
  | step op next ih =>
    obtain ⟨phase', after⟩ := Option.isSome_iff_exists.mp tidy.1
    have step := RelayPhase.step_of_after? after
    have rest (a : op.Result) : (next a).TidyFrom phase' := tidy.2 a phase' after
    cases await : op.isAwait with
    | true =>
      rw [Session.settle_of_isAwait await next t.program]
      exact shows.arrive suits step await rest
    | false =>
      obtain ⟨a, s₁, t₁, performed⟩ := Session.perform_isSome (s := s) (t := t) await
      have asks : op ≠ .lockRelay := by
        rintro rfl
        cases await
      obtain ⟨d₁, first, shows₁, suits₁⟩ := shows.perform suits step asks performed
      have same := Session.perform_id performed
      obtain ⟨d₂, second, shows₂, stands⟩ := ih a (rest a) (first.attended attended) shows₁
        (t := { t₁ with program := t.program }) (same ▸ suits₁)
      rw [Session.settle_of_perform await next t.program performed]
      exact ⟨d₂, first.trans (same ▸ second), shows₂, same ▸ stands⟩

/-- So is the step by which a task goes on from where it waits. -/
theorem Goes.shows {sys : System} {t t' : Task} {l : System.Label} {s : Session}
    {p : Program Unit} {d : Desk Reply} (goes : Goes sys t l s t' p) (shows : d.Shows sys.session)
    (stands : t.program.StandsAt (d.stage t.id)) :
    ∃ d' phase, d.Leads t.id d' ∧ d'.Shows s ∧ d'.Suits t.id phase ∧ p.TidyFrom phase := by
  cases goes with
  | @resume op next r _ _ program performed =>
    rw [program] at stands
    generalize at_stage : d.stage t.id = stage at stands
    cases stands with
    | waiting rest =>
      have holds := Session.holder_of_perform performed
      obtain ⟨d', leads, shows', stage, lock⟩ := shows.queue t.id performed nofun (by simp)
      refine ⟨d', .holding, leads, shows', ⟨?_, ?_⟩, rest⟩
      · rw [stage, at_stage]
      · rw [lock, shows.lock, holds]
    | working rest => cases performed
    | apart plain rest =>
      have suits : d.Suits t.id .idle := at_stage
      have apart : op ≠ .lockRelay := by
        rintro rfl
        cases plain
      obtain ⟨d', leads, shows', suits'⟩ := shows.perform suits (.plain plain) apart performed
      exact ⟨d', .idle, leads, shows', suits', rest _⟩
  | @answer c relaying next a program =>
    rw [program] at stands
    generalize at_stage : d.stage t.id = stage at stands
    cases stands with
    | working rest =>
      have finished := Desk.Change.finish (v := (⟨c, a⟩ : Reply)) at_stage
      exact ⟨_, .closing, .step finished rfl, ⟨shows.relay, shows.lock, shows.outbox⟩,
        ⟨⟨c, a⟩, by simp⟩, rest a⟩
    | apart plain rest => exact ⟨d, .idle, .refl, shows, at_stage, rest a⟩
  | expire program =>
    rw [program] at stands
    generalize at_stage : d.stage t.id = stage at stands
    cases stands with
    | apart plain rest =>
      exact ⟨d, .idle, .refl, ⟨shows.relay, shows.lock, shows.outbox⟩, at_stage, rest false⟩

/-! ### Steps of a session -/

namespace System

variable {sys sys' : System} {d d' : Desk Reply} {l : Label}

/-- Whether a desk has the relay of a session, and the tasks of the session are those who use it. -/
structure Attends (sys : System) (d : Desk Reply) : Prop where
  shows : d.Shows sys.session
  stands : ∀ t ∈ sys.tasks, t.program.StandsAt (d.stage t.id)
  known : ∀ id, d.stage id ≠ none → ∃ t ∈ sys.tasks, t.id = id

namespace Attends

/-- What one task does concerns no other task. -/
theorem update {before after : List Task} {t : Task} {left : Session × Option Task}
    (attends : sys.Attends d) (numbered : sys.WellNumbered)
    (split : sys.tasks = before ++ t :: after) (leads : d.Leads t.id d') (shows : d'.Shows left.1)
    (stands : Task.StandAt (d'.stage t.id) left.2) (same : ∀ u, left.2 = some u → u.id = t.id) :
    (sys.update t.id left).Attends d' := by
  obtain ⟨-, -, elsewhere⟩ := leads.elsewhere
  have apart := numbered.apart split
  have others (u : Task) (mem : u ∈ before ++ after) : u.program.StandsAt (d'.stage u.id) := by
    rw [elsewhere u.id (apart u mem)]
    exact attends.stands u (mem_of_mem_others split mem)
  have stays (id : Nat) (other : id ≠ t.id) (now : d'.stage id ≠ none) :
      ∃ u ∈ before ++ after, u.id = id := by
    rw [elsewhere id other] at now
    obtain ⟨u, mem, rfl⟩ := attends.known id now
    refine ⟨u, mem_others_of_ne split mem ?_, rfl⟩
    rintro rfl
    exact other rfl
  have tasks (u : Task) :
      u ∈ before ++ left.2.toList ++ after ↔ u ∈ before ++ after ∨ left.2 = some u := by
    simp [or_assoc, or_comm]
  rw [update_split split numbered]
  refine ⟨shows, fun u mem => ?_, fun id now => ?_⟩
  · rcases (tasks u).mp mem with other | new
    · exact others u other
    · rw [new] at stands
      exact same u new ▸ stands
  · by_cases other : id = t.id
    · subst other
      obtain gone | ⟨u, new⟩ := left.2.eq_none_or_eq_some
      · rw [gone] at stands
        exact absurd stands now
      · exact ⟨u, (tasks u).mpr (.inr new), same u new⟩
    · obtain ⟨u, mem, rfl⟩ := stays id other now
      exact ⟨u, (tasks u).mpr (.inl mem), rfl⟩

/-- A task goes on. -/
theorem goes {t t' : Task} {s : Session} {p : Program Unit} (attends : sys.Attends d)
    (numbered : sys.WellNumbered) (attended : d.Attended) (found : sys.task? t.id = some t)
    (goes : Goes sys t l s t' p) :
    ∃ d', d.Leads t.id d' ∧ (sys.update t.id (s.settle t' p)).Attends d' := by
  obtain ⟨-, before, after, split⟩ := split_of_task? found
  obtain ⟨d₁, phase, first, shows, suits, tidy⟩ :=
    goes.shows attends.shows (attends.stands t (mem_of_split split))
  have same := id_of_goes goes
  obtain ⟨d₂, second, shows', stands⟩ :=
    Session.settle_shows tidy (first.attended attended) shows (same ▸ suits)
  rw [same] at second stands
  have leads := first.trans second
  refine ⟨d₂, leads, attends.update numbered split leads shows' stands fun u left => ?_⟩
  exact ((Session.settle_settles p s t').2 u left).1.trans same

/-- A new task has no part in the relay. -/
theorem spawn {s : Session} {op : Op} {next : op.Result → Program Unit} {place : Place}
    (attends : sys.Attends d) (numbered : sys.WellNumbered) (shows : d.Shows s)
    (plain : op.isPlain = true) (tidy : (Program.step op next).Tidy) :
    ({ sys with session := s }.spawn (.step op next) place).Attends d where
  shows := shows
  stands := by
    intro t mem
    rcases List.mem_append.mp mem with old | new
    · exact attends.stands t old
    · obtain rfl := List.mem_singleton.mp new
      have idle : d.stage sys.nextTask = none := by
        by_contra now
        obtain ⟨u, mem, same⟩ := attends.known _ now
        exact (numbered.below u mem).ne same
      show (Program.step op next).StandsAt (d.stage sys.nextTask)
      rw [idle]
      exact .apart plain fun a => tidy.2 a .idle (Program.after?_of_isPlain plain)
  known := by
    intro id now
    obtain ⟨u, mem, same⟩ := attends.known id now
    exact ⟨u, List.mem_append_left _ mem, same⟩

/-- The tasks stay where they are. -/
theorem rests (attends : sys.Attends d) (tasks : sys'.tasks = sys.tasks)
    (shows : d'.Shows sys'.session) (stage : d'.stage = d.stage) : sys'.Attends d' where
  shows := shows
  stands := by
    rw [tasks, stage]
    exact attends.stands
  known := by
    rw [tasks, stage]
    exact attends.known

/-- A payload starts a task that has no part in the relay yet, or at most queues a message. -/
theorem arrival {payload : String} {es : List Entry} (attends : sys.Attends d)
    (numbered : sys.WellNumbered) (arrival : Arrival sys payload es sys') :
    ∃ d', d.Leads sys.nextTask d' ∧ sys'.Attends d' := by
  have shows := attends.shows
  cases arrival with
  | gated | free =>
    exact ⟨d, .refl, attends.spawn numbered ⟨shows.relay, shows.lock, shows.outbox⟩ rfl
      (Program.tidy_serve _ _ _ _)⟩
  | refresh =>
    exact ⟨d, .refl, attends.spawn numbered ⟨shows.relay, shows.lock, shows.outbox⟩ rfl
      (Program.tidy_refreshAfterInterrupt _)⟩
  | input => exact ⟨d, .refl, attends.spawn numbered shows rfl (Program.tidy_deliverInput _)⟩
  | @refuse id reason =>
    have outbox := congrArg (· ++ [Response.result (.error reason) id]) shows.outbox
    exact ⟨_, .queue [_], attends.rests rfl ⟨shows.relay, shows.lock, outbox⟩ rfl⟩
  | silent =>
    exact ⟨d, .refl, attends.rests rfl ⟨shows.relay, shows.lock, shows.outbox⟩ rfl⟩

/-- A task that relays forwards the first chunk. -/
theorem forward {t : Task} {s : Session} (attends : sys.Attends d) (mem : t ∈ sys.tasks)
    (forwarded : sys.session.forward t = some s) :
    ∃ d', d.Leads t.id d' ∧ { sys with session := s }.Attends d' := by
  have stands := attends.stands t mem
  obtain ⟨relay, lock, outbox⟩ := attends.shows
  obtain ⟨c, next, chunk, rest, program, first, rfl⟩ := Session.forward_eq_some forwarded
  rw [program] at stands
  generalize at_stage : d.stage t.id = stage at stands
  cases stands with
  | apart plain => cases plain
  | working =>
    unfold Relay.next? at first
    split at first
    · cases first
    · next chunk chunks queue =>
      cases first
      have taken := Desk.Change.take at_stage (relay ▸ queue) rfl
      refine ⟨_, .step taken rfl, attends.rests rfl ⟨?_, lock, ?_⟩ ?_⟩
      · exact congrArg ({ · with queue := chunks }) relay
      · exact congrArg (· ++ [chunk.response]) outbox
      · simp [← at_stage, Desk.take]

/-- A task is given up. -/
theorem cancel {before after : List Task} {t : Task} (attends : sys.Attends d)
    (numbered : sys.WellNumbered) (attended : d.Attended)
    (split : sys.tasks = before ++ t :: after) :
    ∃ d', d.Leads t.id d' ∧ (sys.cancel t).Attends d' := by
  have shows := attends.shows
  have gives {stage : RelayStage Reply} (now : d.stage t.id = some stage)
      (gives : stage = .waiting ∨ stage = .working) :
      ∃ d', d.Leads t.id d' ∧ (sys.cancel t).Attends d' := by
    have cancelled := Desk.Change.cancel now gives
    have given : d.lock.leave t.id = _ := congrArg (·.leave t.id) shows.lock
    exact ⟨_, .step cancelled rfl, attends.update numbered split (.step cancelled rfl)
      ⟨shows.relay, given, shows.outbox⟩ (by simp [Task.StandAt]) nofun⟩
  obtain waits | works | idle := (attends.stands t (mem_of_split split)).stage_cases
  · exact gives waits (.inl rfl)
  · exact gives works (.inr rfl)
  · exact ⟨d, .refl, attends.update numbered split .refl
      ⟨shows.relay, shows.lock_of_idle attended idle, shows.outbox⟩ idle nofun⟩

end Attends

/-! ### Runs -/

/-- What the interpreter prints in a run until its output ends, in order. -/
def printedIn : List Label → List Chunk
  | [] | .closeOutput :: _ => []
  | .print c :: ls => c :: printedIn ls
  | _ :: ls => printedIn ls

end System

/-- What has been sent to a desk, and what will be if a session goes on like this. -/
def Desk.foreseen (d : Desk Reply) (ls : List System.Label) : List Chunk :=
  RelayEvent.sentIn d.log ++ if d.relay.isOpen then System.printedIn ls else []

namespace System

variable {sys sys' : System} {d d' : Desk Reply} {l : Label}

/-- A desk does what a session does, and the interpreter prints to it. -/
theorem Attends.step (attends : sys.Attends d) (numbered : sys.WellNumbered)
    (attended : d.Attended) (stepped : sys.step l = some sys') :
    ∃ steps d', d.run steps = some d' ∧ sys'.Attends d' ∧
      ∀ ls, d'.foreseen ls = d.foreseen (l :: ls) := by
  have inside (id : Nat) (led : ∃ d', d.Leads id d' ∧ sys'.Attends d')
      (silent : ∀ ls, printedIn (l :: ls) = printedIn ls) :
      ∃ steps d', d.run steps = some d' ∧ sys'.Attends d' ∧
        ∀ ls, d'.foreseen ls = d.foreseen (l :: ls) := by
    obtain ⟨d', leads, attends'⟩ := led
    obtain ⟨sent, isOpen, -⟩ := leads.elsewhere
    obtain ⟨steps, ran, -⟩ := leads
    exact ⟨steps, d', ran, attends', fun ls => by simp only [Desk.foreseen, sent, isOpen, silent]⟩
  obtain ⟨relay, lock, outbox⟩ := attends.shows
  cases l with
  | deliver payload =>
    simp only [System.step] at stepped
    split at stepped
    · cases stepped
      exact inside _ (attends.arrival numbered (sys.deliver_arrival payload)) fun _ => rfl
    · cases stepped
  | print c =>
    cases stepped
    cases isOpen : d.relay.isOpen with
    | true =>
      have sent := Desk.Change.send (c := c) isOpen
      refine ⟨[.send c], _, sent.run_eq, attends.rests rfl ⟨?_, lock, outbox⟩ rfl, fun ls => ?_⟩
      · simp [← relay, Relay.print, isOpen]
      · simp [Desk.foreseen, isOpen, printedIn]
    | false =>
      refine ⟨[], d, rfl, attends.rests rfl ⟨?_, lock, outbox⟩ rfl, fun ls => ?_⟩
      · simp [← relay, Relay.print, isOpen]
      · simp [Desk.foreseen, isOpen]
  | closeOutput =>
    cases stepped
    refine ⟨[.close], _, rfl, attends.rests rfl ⟨congrArg Relay.close relay, lock, outbox⟩ rfl,
      fun ls => ?_⟩
    simp [Desk.foreseen, Relay.close, printedIn]
  | tick n =>
    cases stepped
    exact inside 0 ⟨d, .refl, attends.rests rfl ⟨relay, lock, outbox⟩ rfl⟩ fun _ => rfl
  | resume id =>
    obtain ⟨t, s, t', p, found, goes, rfl⟩ := goes_of_resume stepped
    exact inside _ (attends.goes numbered attended found goes) fun _ => rfl
  | answer id c a =>
    obtain ⟨t, s, t', p, found, goes, rfl⟩ := goes_of_answer stepped
    exact inside _ (attends.goes numbered attended found goes) fun _ => rfl
  | expire id =>
    obtain ⟨t, s, t', p, found, goes, rfl⟩ := goes_of_expire stepped
    exact inside _ (attends.goes numbered attended found goes) fun _ => rfl
  | forward id =>
    obtain ⟨t, found, rest⟩ := Option.bind_eq_some_iff.mp stepped
    obtain ⟨s, forwarded, same⟩ := Option.bind_eq_some_iff.mp rest
    cases same
    obtain ⟨-, before, after, split⟩ := split_of_task? found
    exact inside _ (attends.forward (mem_of_split split) forwarded) fun _ => rfl
  | cancel id =>
    obtain ⟨t, found, same⟩ := Option.bind_eq_some_iff.mp stepped
    cases same
    obtain ⟨-, before, after, split⟩ := split_of_task? found
    exact inside _ (attends.cancel numbered attended split) fun _ => rfl

/-- A desk does what a session does in a run. The induction is on the labels of the run. -/
theorem Attends.run {ls : List Label} (attends : sys.Attends d) (numbered : sys.WellNumbered)
    (attended : d.Attended) (ran : sys.run ls = some sys') :
    ∃ steps d', d.run steps = some d' ∧ sys'.Attends d' ∧
      RelayEvent.sentIn d'.log = d.foreseen ls := by
  induction ls generalizing sys d with
  | nil =>
    cases ran
    exact ⟨[], d, rfl, attends, by simp [Desk.foreseen, printedIn]⟩
  | cons l ls ih =>
    obtain ⟨middle, stepped, rest⟩ := Option.bind_eq_some_iff.mp ran
    obtain ⟨steps, d₁, first, attends₁, foreseen⟩ := attends.step numbered attended stepped
    have attended₁ := Desk.invariant_of_run Desk.Attended.step attended first
    obtain ⟨steps', d₂, second, attends₂, sent⟩ :=
      ih attends₁ (numbered.step stepped) attended₁ rest
    refine ⟨steps ++ steps', d₂, ?_, attends₂, sent.trans (foreseen ls)⟩
    rw [Desk.run_append, first, Option.bind_some, second]

/-- **Every run of a session is a run of a desk**, to which the interpreter prints and which the
tasks use. -/
theorem desk_of_run {settings : Settings} {host : Host} {ls : List Label}
    (ran : (System.new settings host).run ls = some sys) :
    ∃ steps d, Desk.run {} steps = some d ∧ sys.Attends d ∧
      RelayEvent.sentIn d.log = printedIn ls := by
  have start : (System.new settings host).Attends {} :=
    ⟨⟨rfl, rfl, rfl⟩, fun _ mem => absurd mem List.not_mem_nil, fun _ now => absurd rfl now⟩
  obtain ⟨steps, d, done, attends, sent⟩ := start.run (.new settings host) .new ran
  exact ⟨steps, d, done, attends, by simpa [Desk.foreseen] using sent⟩

/-- What is queued in the relay is the last of what the interpreter printed: chunks are taken from
the front, and none is lost or changed before. -/
theorem queue_suffix_printedIn {settings : Settings} {host : Host} {ls : List Label}
    (ran : (System.new settings host).run ls = some sys) :
    sys.session.relay.queue <:+ printedIn ls := by
  obtain ⟨steps, d, done, attends, sent⟩ := desk_of_run ran
  rw [← attends.shows.relay, ← sent, (Desk.sound_of_run done).ordered.sent]
  exact List.suffix_append _ _

end System

end LispBridge
