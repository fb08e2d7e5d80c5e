import LispBridge.Proofs.Session.History

/-!
Moves: the smallest steps of a session.

A step of `System.step` runs one task through any number of operations. `Move` takes these one by
one, each with what is seen of it, and `step_moves` says that every step but the arrival of a
payload and a cancellation is a sequence of moves. An invariant of runs therefore has three cases
(`Invariant`): a payload, a cancellation and a move.
-/

namespace LispBridge

/-- Tasks have different numbers, all of them below the next one to be given. -/
structure System.WellNumbered (sys : System) : Prop where
  nodup : (sys.tasks.map Task.id).Nodup
  below : ∀ t ∈ sys.tasks, t.id < sys.nextTask

/-- One move of a session. The task that moves is singled out of the others. -/
inductive Move : System → List Entry → System → Prop where
  /-- A task does a step and goes on to the rest of its program. -/
  | perform {sys : System} {l r : List Task} {t t' : Task} {op : Op}
      {next : op.Result → Program Unit} {a : op.Result} {s : Session} :
      sys.tasks = l ++ t :: r → t.program = .step op next →
      sys.session.perform t op = some (a, s, t') →
      Move sys (t.admission op ++ (sys.session.emitted op).map (.sent (some t.id)))
        { sys with session := s, tasks := l ++ { t' with program := next a } :: r }
  /-- A task arrives at a step where it may have to wait. -/
  | arrive {sys : System} {l r : List Task} {t : Task} {op : Op} {next : op.Result → Program Unit} :
      sys.tasks = l ++ t :: r → t.program = .step op next →
      Move sys []
        { sys with
          session := (sys.session.arrive t op).1
          tasks := l ++ { (sys.session.arrive t op).2 with
            deadline := sys.session.deadlineOf op } :: r }
  /-- A task goes on with the interpreter's answer. -/
  | answer {sys : System} {l r : List Task} {t : Task} {c : Call} {relaying : Bool}
      {next : c.Answer → Program Unit} (a : c.Answer) :
      sys.tasks = l ++ t :: r → t.program = .step (.call c relaying) next →
      Move sys [.answered t.id c a] { sys with tasks := l ++ { t with program := next a } :: r }
  /-- A task that relays forwards one chunk. -/
  | forward {sys : System} {l r : List Task} {t : Task} {c : Call} {next : c.Answer → Program Unit}
      {chunk : Chunk} {relay : Relay} :
      sys.tasks = l ++ t :: r → t.program = .step (.call c true) next →
      Move sys [.sent (some t.id) chunk.response]
        { sys with session := { sys.session.send chunk.response with relay } }
  /-- A task gives up waiting for the gate. -/
  | expire {sys : System} {l r : List Task} {t : Task} {limit : Nat} {next : Bool → Program Unit} :
      sys.tasks = l ++ t :: r → t.program = .step (.lockGateWithin limit) next →
      Move sys []
        { sys with
          session := { sys.session with gate := t.place.leave sys.session.gate }
          tasks := l ++ { t with place := .none, program := next false } :: r }
  /-- A task ends. -/
  | finish {sys : System} {l r : List Task} {t : Task} :
      sys.tasks = l ++ t :: r → t.program = .done () →
      Move sys [] { sys with session := sys.session.leave t, tasks := l ++ r }
  /-- The interpreter prints or ends its output. -/
  | relay {sys : System} (relay : Relay) :
      Move sys [] { sys with session.relay := relay }
  /-- Time passes. -/
  | tick {sys : System} (clock : Nat) :
      Move sys [] { sys with session.clock := clock }

/-- A sequence of moves. -/
inductive Moves : System → List Entry → System → Prop where
  | refl (sys : System) : Moves sys [] sys
  | head {a b c : System} {es es' : List Entry} :
      Move a es b → Moves b es' c → Moves a (es ++ es') c

namespace Moves

theorem single {a b : System} {es : List Entry} (move : Move a es b) : Moves a es b := by
  simpa using Moves.head move (.refl b)

/-- An invariant that each move keeps is kept by a sequence of moves. -/
theorem keep {I : System → List Entry → Prop}
    (kept : ∀ {a H es b}, I a H → Move a es b → I b (H ++ es)) {a b : System} {es : List Entry}
    (moves : Moves a es b) {H : List Entry} (start : I a H) : I b (H ++ es) := by
  induction moves generalizing H with
  | refl sys => simpa using start
  | head move _ ih => simpa using ih (kept start move)

end Moves

namespace Session

variable {s : Session} {t : Task} {op : Op}

/-- The rest of a task's program has no part in a step. -/
theorem perform_program (s : Session) (t : Task) (op : Op) (p : Program Unit) :
    s.perform { t with program := p } op =
      (s.perform t op).map fun (a, s', t') => (a, s', { t' with program := p }) := by
  obtain ⟨id, place, deadline, program⟩ := t
  cases op with
  | lockGate | lockGateWithin =>
    simp only [perform, enterGate?]
    cases place with
    | queued k => cases h : s.gate.enter? k <;> simp [h]
    | none | holding k => rfl
  | resolve number index =>
    simp only [perform]
    cases s.debugger.resolve number index <;> rfl
  | lockRelay => simp only [perform]; split <;> rfl
  | _ => rfl

/-- Nor has it in the arrival at a step. -/
theorem arrive_program (s : Session) (t : Task) (op : Op) (p : Program Unit) :
    s.arrive { t with program := p } op =
      ((s.arrive t op).1, { (s.arrive t op).2 with program := p }) := by
  obtain ⟨id, place, deadline, program⟩ := t
  cases op with
  | lockGate | lockGateWithin => cases place <;> rfl
  | _ => rfl

/-- A task that arrives at a step at most queues at the gate, asks for the relay's lock, or asks the
interpreter. -/
theorem arrive_eq (s : Session) (t : Task) (op : Op) :
    ∃ gate relayLock asked place,
      s.arrive t op = ({ s with gate, relayLock, asked }, { t with place }) ∧
        (relayLock = s.relayLock ∨ relayLock = s.relayLock.join t.id) := by
  obtain ⟨id, place, deadline, program⟩ := t
  cases op with
  | lockGate | lockGateWithin => cases place <;> exact ⟨_, s.relayLock, s.asked, _, rfl, .inl rfl⟩
  | lockRelay => exact ⟨s.gate, _, s.asked, place, rfl, .inr rfl⟩
  | call => exact ⟨s.gate, s.relayLock, _, place, rfl, .inl rfl⟩
  | _ => exact ⟨s.gate, s.relayLock, s.asked, place, rfl, .inl rfl⟩

theorem arrive_outbox (s : Session) (t : Task) (op : Op) :
    (s.arrive t op).1.outbox = s.outbox ∧ (s.arrive t op).1.debugger = s.debugger := by
  obtain ⟨gate, relayLock, asked, place, arrived, -⟩ := arrive_eq s t op
  rw [arrived]
  exact ⟨rfl, rfl⟩

theorem program_arrive (s : Session) (t : Task) (op : Op) :
    (s.arrive t op).2.program = t.program := by
  obtain ⟨gate, relayLock, asked, place, arrived, -⟩ := arrive_eq s t op
  rw [arrived]

theorem arrive_id (s : Session) (t : Task) (op : Op) : (s.arrive t op).2.id = t.id := by
  obtain ⟨gate, relayLock, asked, place, arrived, -⟩ := arrive_eq s t op
  rw [arrived]

/-- A task that comes to a step at most asks for the relay's lock. -/
theorem arrive_relayLock (s : Session) (t : Task) (op : Op) :
    (s.arrive t op).1.relayLock = s.relayLock ∨
      (s.arrive t op).1.relayLock = s.relayLock.join t.id := by
  obtain ⟨gate, relayLock, asked, place, arrived, asks⟩ := arrive_eq s t op
  rw [arrived]
  exact asks

theorem admission_of_not_isAwait (t : Task) (now : op.isAwait = false) : t.admission op = [] := by
  cases op <;> first | rfl | simp [Op.isAwait] at now

/-- A run of a task is a sequence of moves; the induction is on the program that it runs. -/
theorem settle_moves (sys : System) (l r : List Task) (p : Program Unit) :
    ∀ (s : Session) (t : Task), ∃ rs, (s.settle t p).1.outbox = s.outbox ++ rs ∧
      Moves { sys with session := s, tasks := l ++ { t with program := p } :: r }
        (rs.map (.sent (some t.id)))
        { sys with session := (s.settle t p).1, tasks := l ++ (s.settle t p).2.toList ++ r } := by
  induction p with
  | done v =>
    intro s t
    refine ⟨[], by simp [settle, leave], ?_⟩
    have move : Move { sys with session := s, tasks := l ++ { t with program := .done () } :: r }
        [] _ := .finish rfl rfl
    simpa [settle, leave] using Moves.single move
  | step op next ih =>
    intro s t
    cases await : op.isAwait with
    | true =>
      refine ⟨[], by simp [settle, await, arrive_outbox], ?_⟩
      have move : Move { sys with
          session := s, tasks := l ++ { t with program := .step op next } :: r } [] _ :=
        .arrive rfl rfl
      simpa [settle, await, arrive_program] using Moves.single move
    | false =>
      cases performed : s.perform t op with
      | none => exact ⟨[], by simpa [settle, await, performed] using .refl _⟩
      | some outcome =>
        obtain ⟨a, s₁, t₁⟩ := outcome
        obtain ⟨rs, outbox, moves⟩ := ih a s₁ t₁
        refine ⟨s.emitted op ++ rs, ?_, ?_⟩
        · simp [settle, await, performed, outbox, perform_outbox performed]
        · have move : Move { sys with
              session := s, tasks := l ++ { t with program := .step op next } :: r } _ _ :=
            .perform rfl rfl (by rw [perform_program, performed]; rfl)
          simpa [settle, await, performed, perform_id performed,
            admission_of_not_isAwait _ await] using Moves.head move moves

/-! ### How a task goes on -/

section Continuing

variable {s : Session} {t : Task} {left : Session × Option Task}

/-- A task that is resumed does the step at which it waits. -/
theorem resume_eq_some (resumed : s.resume t = some left) :
    ∃ (op : Op) (next : op.Result → Program Unit) (a : op.Result) (s' : Session) (t' : Task),
      t.program = .step op next ∧ s.perform t op = some (a, s', t') ∧
        left = s'.settle t' (next a) := by
  unfold resume at resumed
  split at resumed
  · cases resumed
  · next op next program =>
    split at resumed
    · next a s' t' performed =>
      exact ⟨op, next, a, s', t', program, performed, (Option.some.inj resumed).symm⟩
    · cases resumed

/-- Only the call for which a task waits can be answered. -/
theorem answer_eq_some {c : Call} {a : c.Answer} (answered : s.answer t c a = some left) :
    ∃ (relaying : Bool) (next : c.Answer → Program Unit),
      t.program = .step (.call c relaying) next ∧ left = s.settle t (next a) := by
  unfold answer at answered
  split at answered
  · next c' relaying next program =>
    split at answered
    · next same =>
      subst same
      exact ⟨relaying, next, program, (Option.some.inj answered).symm⟩
    · cases answered
  · cases answered

/-- A task forwards the first chunk that is queued, while it relays. -/
theorem forward_eq_some {s' : Session} (forwarded : s.forward t = some s') :
    ∃ (c : Call) (next : c.Answer → Program Unit) (chunk : Chunk) (relay : Relay),
      t.program = .step (.call c true) next ∧ s.relay.next? = some (chunk, relay) ∧
        s' = { s.send chunk.response with relay } := by
  unfold forward at forwarded
  split at forwarded
  · next c next program =>
    obtain ⟨⟨chunk, relay⟩, first, same⟩ := Option.map_eq_some_iff.mp forwarded
    exact ⟨c, next, chunk, relay, program, first, same.symm⟩
  · cases forwarded

/-- A task gives up waiting for the gate when its time is over. -/
theorem expire_eq_some (expired : s.expire t = some left) :
    ∃ (limit : Nat) (next : Bool → Program Unit), t.program = .step (.lockGateWithin limit) next ∧
      left = { s with gate := t.place.leave s.gate }.settle { t with place := .none }
        (next false) := by
  unfold expire at expired
  split at expired
  · next limit next deadline program _ =>
    split at expired
    · exact ⟨limit, next, program, (Option.some.inj expired).symm⟩
    · cases expired
  · cases expired

end Continuing

end Session

namespace System

variable {sys sys' : System}

/-! ### Steps as moves -/

/-- Other tasks than the one that runs have other numbers. -/
theorem WellNumbered.apart {l r : List Task} {t : Task} (numbered : sys.WellNumbered)
    (split : sys.tasks = l ++ t :: r) : ∀ u ∈ l ++ r, u.id ≠ t.id := by
  have nodup := numbered.nodup
  rw [split, (List.perm_middle.map Task.id).nodup_iff, List.map_cons, List.nodup_cons] at nodup
  intro u mem same
  exact nodup.1 (same ▸ List.mem_map_of_mem mem)

/-- A task is the one that is singled out, or another. -/
theorem mem_singled {l r : List Task} {t u : Task} : u ∈ l ++ t :: r ↔ u = t ∨ u ∈ l ++ r :=
  List.perm_middle.mem_iff.trans List.mem_cons

theorem mem_of_split {l r : List Task} {t : Task} (split : sys.tasks = l ++ t :: r) :
    t ∈ sys.tasks := by
  rw [split]
  exact mem_singled.mpr (.inl rfl)

theorem mem_of_mem_others {l r : List Task} {t u : Task} (split : sys.tasks = l ++ t :: r)
    (mem : u ∈ l ++ r) : u ∈ sys.tasks := by
  rw [split]
  exact mem_singled.mpr (.inr mem)

theorem mem_others_of_ne {l r : List Task} {t u : Task} (split : sys.tasks = l ++ t :: r)
    (mem : u ∈ sys.tasks) (other : u ≠ t) : u ∈ l ++ r := by
  rw [split] at mem
  exact (mem_singled.mp mem).resolve_left other

/-- The number of a task tells which one it is. -/
theorem WellNumbered.eq_of_id {l r : List Task} {t u : Task} (numbered : sys.WellNumbered)
    (split : sys.tasks = l ++ t :: r) (mem : u ∈ sys.tasks) (same : u.id = t.id) : u = t := by
  have apart := numbered.apart split u
  rw [split] at mem
  exact (mem_singled.mp mem).resolve_right fun others => apart others same

/-- Other tasks than the one that runs stay as they are. -/
theorem update_split {l r : List Task} {t : Task} (split : sys.tasks = l ++ t :: r)
    (numbered : sys.WellNumbered) (result : Session × Option Task) :
    sys.update t.id result =
      { sys with session := result.1, tasks := l ++ result.2.toList ++ r } := by
  obtain ⟨left, right⟩ := List.forall_mem_append.mp (numbered.apart split)
  obtain ⟨session, _ | t'⟩ := result
  · have keepLeft : l.filter (fun u => !decide (u.id = t.id)) = l :=
      List.filter_eq_self.mpr fun u mem => by simpa using left u mem
    have keepRight : r.filter (fun u => !decide (u.id = t.id)) = r :=
      List.filter_eq_self.mpr fun u mem => by simpa using right u mem
    simp [update, split, keepLeft, keepRight]
  · have keepLeft : l.map (fun u => if u.id = t.id then t' else u) = l :=
      List.map_congr_left (fun u mem => if_neg (left u mem)) |>.trans (List.map_id _)
    have keepRight : r.map (fun u => if u.id = t.id then t' else u) = r :=
      List.map_congr_left (fun u mem => if_neg (right u mem)) |>.trans (List.map_id _)
    simp [update, split, keepLeft, keepRight]

theorem split_of_task? {id : TaskId} {t : Task} (found : sys.task? id = some t) :
    t.id = id ∧ ∃ l r, sys.tasks = l ++ t :: r :=
  ⟨by simpa using List.find?_some found, List.append_of_mem (List.mem_of_find?_eq_some found)⟩

/-- A task that has done its first step runs on to where it waits next. -/
private theorem run_moves {l r : List Task} {t : Task} {s : Session} {p : Program Unit}
    {H : List Entry} {rs old : List Response} (outbox : s.outbox = old ++ rs)
    (first : Move sys (H ++ rs.map (.sent (some t.id)))
      { sys with session := s, tasks := l ++ { t with program := p } :: r }) :
    Moves sys (H ++ ((s.settle t p).1.outbox.drop old.length).map (.sent (some t.id)))
      { sys with session := (s.settle t p).1, tasks := l ++ (s.settle t p).2.toList ++ r } := by
  obtain ⟨rs', outbox', rest⟩ := Session.settle_moves sys l r p s t
  simpa [outbox', outbox] using Moves.head first rest

theorem resume_moves (numbered : sys.WellNumbered) {id : TaskId}
    (stepped : sys.step (.resume id) = some sys') :
    Moves sys (sys.entries (.resume id) sys') sys' := by
  obtain ⟨t, found, result, resumed, rfl⟩ : ∃ t, sys.task? id = some t ∧
      ∃ result, sys.session.resume t = some result ∧ sys.update id result = sys' := by
    simpa [step, Option.bind_eq_some_iff] using stepped
  obtain ⟨rfl, before, after, split⟩ := split_of_task? found
  rw [update_split split numbered]
  obtain ⟨op, next, a, s, t', program, performed, rfl⟩ := Session.resume_eq_some resumed
  have same := Session.perform_id performed
  have opening : sys.cause (.resume t.id) = t.admission op := by
    obtain ⟨id, place, deadline, _⟩ := t
    obtain rfl : _ = Program.step op next := program
    simp [cause, found]
  have first := Move.perform split program performed
  rw [← same] at first
  simpa [entries, opening, Label.task?, same] using
    run_moves (Session.perform_outbox performed) first

theorem answer_moves (numbered : sys.WellNumbered) {id : TaskId} {c : Call} {a : c.Answer}
    (stepped : sys.step (.answer id c a) = some sys') :
    Moves sys (sys.entries (.answer id c a) sys') sys' := by
  obtain ⟨t, found, result, answered, rfl⟩ : ∃ t, sys.task? id = some t ∧
      ∃ result, sys.session.answer t c a = some result ∧ sys.update id result = sys' := by
    simpa [step, Option.bind_eq_some_iff] using stepped
  obtain ⟨rfl, before, after, split⟩ := split_of_task? found
  rw [update_split split numbered]
  obtain ⟨relaying, next, program, rfl⟩ := Session.answer_eq_some answered
  have first := Move.answer a split program
  have ran : Moves sys ([.answered t.id c a] ++ _) _ :=
    run_moves sys.session.outbox.append_nil.symm first
  simpa [entries, cause, Label.task?] using ran

theorem forward_moves {id : TaskId} (stepped : sys.step (.forward id) = some sys') :
    Moves sys (sys.entries (.forward id) sys') sys' := by
  obtain ⟨t, found, session, forwarded, rfl⟩ : ∃ t, sys.task? id = some t ∧
      ∃ s, sys.session.forward t = some s ∧ { sys with session := s } = sys' := by
    simpa [step, Option.bind_eq_some_iff] using stepped
  obtain ⟨rfl, before, after, split⟩ := split_of_task? found
  obtain ⟨c, next, chunk, relay, program, -, rfl⟩ := Session.forward_eq_some forwarded
  simpa [entries, cause, Label.task?, Session.send] using
    Moves.single (Move.forward split program)

theorem expire_moves (numbered : sys.WellNumbered) {id : TaskId}
    (stepped : sys.step (.expire id) = some sys') :
    Moves sys (sys.entries (.expire id) sys') sys' := by
  obtain ⟨t, found, result, expired, rfl⟩ : ∃ t, sys.task? id = some t ∧
      ∃ result, sys.session.expire t = some result ∧ sys.update id result = sys' := by
    simpa [step, Option.bind_eq_some_iff] using stepped
  obtain ⟨rfl, before, after, split⟩ := split_of_task? found
  rw [update_split split numbered]
  obtain ⟨limit, next, program, rfl⟩ := Session.expire_eq_some expired
  have first := Move.expire split program
  have ran : Moves sys ([] ++ _) _ :=
    run_moves (t := { t with place := .none })
      (s := { sys.session with gate := t.place.leave sys.session.gate })
      sys.session.outbox.append_nil.symm first
  simpa [entries, cause, Label.task?] using ran

/-- Every step but the arrival of a payload and a cancellation is a sequence of moves, and what is
seen of it is what is seen of them. -/
theorem step_moves (numbered : sys.WellNumbered) {l : Label} (stepped : sys.step l = some sys')
    (noPayload : ∀ payload, l ≠ .deliver payload) (noCancel : ∀ id, l ≠ .cancel id) :
    Moves sys (sys.entries l sys') sys' := by
  cases l with
  | deliver payload => exact absurd rfl (noPayload payload)
  | cancel id => exact absurd rfl (noCancel id)
  | resume id => exact resume_moves numbered stepped
  | answer id c a => exact answer_moves numbered stepped
  | forward id => exact forward_moves stepped
  | expire id => exact expire_moves numbered stepped
  | print c | closeOutput =>
    simp only [step, Option.some.injEq] at stepped
    subst stepped
    simpa [entries, cause] using Moves.single (.relay _)
  | tick n =>
    simp only [step, Option.some.injEq] at stepped
    subst stepped
    simpa [entries, cause] using Moves.single (.tick _)

end System

/-! ### Arrivals -/

/-- What the arrival of a payload does, with what is seen of it. -/
inductive Arrival (sys : System) (payload : String) : List Entry → System → Prop where
  /-- A request that needs the gate draws a ticket. -/
  | gated {command : Command} {r : Request} :
      Delivery.ofPayload payload = .serve command r → command.needsGate = true →
      Arrival sys payload
        [.delivered payload,
          .spawned sys.nextTask (.serve command r) (some sys.session.gate.next)]
        ({ sys with session.gate := sys.session.gate.draw.2 }.spawn
          (.serve sys.session.settings sys.session.host command r)
          (.queued sys.session.gate.next))
  | free {command : Command} {r : Request} :
      Delivery.ofPayload payload = .serve command r → command.needsGate = false →
      Arrival sys payload
        [.delivered payload, .spawned sys.nextTask (.serve command r) none]
        (sys.spawn (.serve sys.session.settings sys.session.host command r))
  | refresh : Delivery.ofPayload payload = .interrupt true →
      Arrival sys payload [.delivered payload, .spawned sys.nextTask (.interrupt true) none]
        ({ sys with session := sys.session.ask .interrupt }.spawn
          (.refreshAfterInterrupt sys.session.settings))
  | input {text : String} : Delivery.ofPayload payload = .input text →
      Arrival sys payload [.delivered payload, .spawned sys.nextTask (.input text) none]
        (sys.spawn (.deliverInput text))
  | refuse {id : RequestId} {reason : String} : Delivery.ofPayload payload = .refuse id reason →
      Arrival sys payload [.delivered payload, .sent none (.result (.error reason) id)]
        { sys with session := sys.session.send (.result (.error reason) id) }
  /-- Nothing is answered: there is no request, or the reader fails. -/
  | silent (asked : List Ask) (isReading : Bool) :
      (∀ command r, Delivery.ofPayload payload ≠ .serve command r) →
      (∀ id reason, Delivery.ofPayload payload ≠ .refuse id reason) →
      Arrival sys payload [.delivered payload]
        { sys with session.asked := asked, isReading }

theorem System.deliver_arrival (sys : System) (payload : String) :
    Arrival sys payload (sys.entries (.deliver payload) (sys.deliver payload))
      (sys.deliver payload) := by
  cases delivery : Delivery.ofPayload payload with
  | serve command r =>
    cases gated : command.needsGate with
    | true =>
      have arrival : Arrival sys payload _ _ := .gated delivery gated
      simpa [deliver, delivery, gated, entries, cause, started, drawn, spawn, Gate.draw]
        using arrival
    | false =>
      have arrival : Arrival sys payload _ _ := .free delivery gated
      simpa [deliver, delivery, gated, entries, cause, started, drawn, spawn] using arrival
  | interrupt refreshes =>
    cases refreshes with
    | true =>
      have arrival : Arrival sys payload _ _ := .refresh delivery
      simpa [deliver, delivery, entries, cause, started, spawn, Session.ask] using arrival
    | false =>
      have arrival : Arrival sys payload _ _ :=
        .silent (sys.session.asked ++ [.interrupt]) sys.isReading (by simp [delivery])
          (by simp [delivery])
      simpa [deliver, delivery, entries, cause, started, Session.ask] using arrival
  | input text =>
    have arrival : Arrival sys payload _ _ := .input delivery
    simpa [deliver, delivery, entries, cause, started, spawn] using arrival
  | refuse id reason =>
    have arrival : Arrival sys payload _ _ := .refuse delivery
    simpa [deliver, delivery, entries, cause, started, Label.task?, Session.send] using arrival
  | ignore =>
    have arrival : Arrival sys payload _ _ :=
      .silent sys.session.asked sys.isReading (by simp [delivery]) (by simp [delivery])
    simpa [deliver, delivery, entries, cause, started] using arrival
  | crash =>
    have arrival : Arrival sys payload _ _ :=
      .silent sys.session.asked false (by simp [delivery]) (by simp [delivery])
    simpa [deliver, delivery, entries, cause, started] using arrival

/-! ### Invariants of runs -/

namespace System.WellNumbered

variable {sys : System}

theorem new (settings : Settings) (host : Host) : (System.new settings host).WellNumbered :=
  ⟨.nil, fun _ mem => absurd mem List.not_mem_nil⟩

/-- A task may be replaced by one with its number. -/
theorem replace {l r : List Task} {t t' : Task} {s : Session} (numbered : sys.WellNumbered)
    (split : sys.tasks = l ++ t :: r) (same : t'.id = t.id) :
    { sys with session := s, tasks := l ++ t' :: r }.WellNumbered := by
  obtain ⟨nodup, below⟩ := numbered
  rw [split] at nodup below
  refine ⟨by simpa [same] using nodup, ?_⟩
  simpa [or_imp, forall_and, same] using below

/-- A task may go. -/
theorem remove {l r : List Task} {t : Task} {s : Session} (numbered : sys.WellNumbered)
    (split : sys.tasks = l ++ t :: r) :
    { sys with session := s, tasks := l ++ r }.WellNumbered := by
  obtain ⟨nodup, below⟩ := numbered
  rw [split] at nodup below
  have fewer : (l ++ r).Sublist (l ++ t :: r) := (List.sublist_cons_self t r).append_left l
  exact ⟨nodup.sublist (fewer.map Task.id), fun u mem => below u (fewer.subset mem)⟩

theorem spawn {program : Program Unit} {place : Place} (numbered : sys.WellNumbered) :
    (sys.spawn program place).WellNumbered := by
  refine ⟨?_, ?_⟩
  · simp only [System.spawn, List.map_append, List.map_cons, List.map_nil]
    refine List.nodup_append.mpr ⟨numbered.nodup, by simp, ?_⟩
    intro id mem id' mem' same
    obtain ⟨t, member, rfl⟩ := List.mem_map.mp mem
    exact Nat.ne_of_lt (numbered.below t member) (same.trans (List.mem_singleton.mp mem'))
  · intro t mem
    simp only [System.spawn, List.mem_append, List.mem_singleton] at mem ⊢
    rcases mem with mem | rfl
    · exact Nat.lt_succ_of_lt (numbered.below t mem)
    · exact Nat.lt_succ_self _

theorem move {sys' : System} {es : List Entry} (numbered : sys.WellNumbered)
    (move : Move sys es sys') : sys'.WellNumbered := by
  cases move with
  | perform split _ performed =>
    have same := Session.perform_id performed
    exact numbered.replace split same
  | arrive split => exact numbered.replace split (Session.arrive_id _ _ _)
  | answer a split => exact numbered.replace split rfl
  | expire split => exact numbered.replace split rfl
  | finish split => exact numbered.remove split
  | forward | relay | tick => exact ⟨numbered.nodup, numbered.below⟩

theorem arrival {sys' : System} {payload : String} {es : List Entry} (numbered : sys.WellNumbered)
    (arrival : Arrival sys payload es sys') : sys'.WellNumbered := by
  have sameTasks {sys'' : System} (tasks : sys''.tasks = sys.tasks)
      (next : sys''.nextTask = sys.nextTask) : sys''.WellNumbered :=
    ⟨tasks ▸ numbered.nodup, by rw [tasks, next]; exact numbered.below⟩
  cases arrival with
  | gated | free | refresh | input => exact spawn (sameTasks rfl rfl)
  | refuse | silent => exact sameTasks rfl rfl

end System.WellNumbered

/-- An invariant of the runs whose labels satisfy `P`: it is kept by moves, by arrivals and, if
there are any, by cancellations. -/
structure Invariant (P : System.Label → Prop) (I : System → List Entry → Prop) : Prop where
  move {sys sys' : System} {H es : List Entry} :
    sys.WellNumbered → I sys H → Move sys es sys' → I sys' (H ++ es)
  arrival {sys sys' : System} {H es : List Entry} {payload : String} :
    sys.WellNumbered → P (.deliver payload) → I sys H → Arrival sys payload es sys' →
      I sys' (H ++ es)
  cancel {sys : System} {H : List Entry} {l r : List Task} {t : Task} :
    sys.WellNumbered → P (.cancel t.id) → I sys H → sys.tasks = l ++ t :: r →
      I { sys with session := sys.session.leave t, tasks := l ++ r } H

namespace Invariant

variable {P : System.Label → Prop} {I : System → List Entry → Prop}

/-- What one step keeps. -/
theorem step (inv : Invariant P I) {sys sys' : System} {H : List Entry} {l : System.Label}
    (numbered : sys.WellNumbered) (start : I sys H) (allowed : P l)
    (stepped : sys.step l = some sys') :
    sys'.WellNumbered ∧ I sys' (H ++ sys.entries l sys') := by
  by_cases payload : ∃ payload, l = .deliver payload
  · obtain ⟨payload, rfl⟩ := payload
    simp only [System.step] at stepped
    split at stepped
    · simp only [Option.some.injEq] at stepped
      subst stepped
      have arrival := sys.deliver_arrival payload
      exact ⟨numbered.arrival arrival, inv.arrival numbered allowed start arrival⟩
    · simp at stepped
  by_cases cancelled : ∃ id, l = .cancel id
  · obtain ⟨id, rfl⟩ := cancelled
    simp only [System.step, Option.bind_eq_bind, Option.bind_eq_some_iff, Option.pure_def,
      Option.some.injEq] at stepped
    obtain ⟨t, found, rfl⟩ := stepped
    obtain ⟨rfl, before, after, split⟩ := System.split_of_task? found
    rw [System.cancel, System.update_split split numbered]
    refine ⟨by simpa using numbered.remove split, ?_⟩
    simpa [System.entries, System.cause, Session.leave] using
      inv.cancel numbered allowed start split
  · have moves := System.step_moves numbered stepped (fun p h => payload ⟨p, h⟩)
      (fun id h => cancelled ⟨id, h⟩)
    exact moves.keep (I := fun sys H => sys.WellNumbered ∧ I sys H)
      (fun both move => ⟨both.1.move move, inv.move both.1 both.2 move⟩) ⟨numbered, start⟩

/-- What a whole run keeps; the induction is on the labels of the run. -/
theorem run (inv : Invariant P I) {ls : List System.Label} :
    ∀ {sys sys' : System} {H : List Entry}, sys.WellNumbered → I sys H → (∀ l ∈ ls, P l) →
      sys.run ls = some sys' → sys'.WellNumbered ∧ I sys' (H ++ sys.history ls) := by
  induction ls with
  | nil =>
    intro sys sys' H numbered start _ ran
    simp only [System.run, Option.some.injEq] at ran
    subst ran
    simpa [System.history] using ⟨numbered, start⟩
  | cons l ls ih =>
    intro sys sys' H numbered start allowed ran
    simp only [System.run, Option.bind_eq_bind, Option.bind_eq_some_iff] at ran
    obtain ⟨mid, stepped, ran⟩ := ran
    obtain ⟨numbered', kept⟩ := inv.step numbered start (allowed l List.mem_cons_self) stepped
    simpa [System.history, stepped] using
      ih numbered' kept (fun m mem => allowed m (List.mem_cons_of_mem _ mem)) ran

/-- What holds of a new session and is kept by every step holds after every run. -/
theorem holds (inv : Invariant P I) {settings : Settings} {host : Host} {ls : List System.Label}
    {sys : System} (start : I (.new settings host) []) (allowed : ∀ l ∈ ls, P l)
    (ran : (System.new settings host).run ls = some sys) :
    sys.WellNumbered ∧ I sys ((System.new settings host).history ls) :=
  inv.run (.new settings host) start allowed ran

end Invariant

theorem System.WellNumbered.step {sys sys' : System} {l : System.Label}
    (numbered : sys.WellNumbered) (stepped : sys.step l = some sys') : sys'.WellNumbered := by
  have inv : Invariant (fun _ => True) fun _ _ => True :=
    ⟨fun _ _ _ => trivial, fun _ _ _ _ => trivial, fun _ _ _ _ => trivial⟩
  exact (inv.step (H := []) numbered trivial trivial stepped).1

end LispBridge
