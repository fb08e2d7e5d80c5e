import LispBridge.Proofs.Session.GateUse
import LispBridge.Proofs.Session.Turns
import Mathlib.Data.List.Sort

/-!
What a history records of a session.

* `System.Recorded`: the outbox is what was sent, and no number is given to two tasks.
* `System.Lined`: tickets are drawn and admitted in order.
* `Lined.dispatched_sublist`: requests that keep the ticket they drew on arrival are admitted in the
  order of arrival.
-/

namespace LispBridge

variable {H es : List Entry}

/-! ### The outbox and the tasks -/

/-- Whether a task was started. -/
def Entry.isStart : Entry → Bool
  | .spawned .. => true
  | _ => false

/-- Admission is no message, and starts nothing. -/
theorem Task.mem_admission {t : Task} {op : Op} {e : Entry} (mem : e ∈ t.admission op) :
    ∃ k, e = .admitted t.id k ∧ t.place = .queued k := by
  cases op with
  | lockGate | lockGateWithin =>
    cases place : t.place with
    | queued k =>
      simp only [admission, place, List.mem_singleton] at mem
      exact ⟨k, mem, rfl⟩
    | none | holding k => simp [admission, place] at mem
  | _ => simp [admission] at mem

theorem Task.responses_admission (t : Task) (op : Op) : responses (t.admission op) = [] := by
  refine List.filterMap_eq_nil_iff.mpr fun e mem => ?_
  obtain ⟨k, rfl, -⟩ := mem_admission mem
  rfl

namespace System

variable {sys sys' : System}

/-- A history tells all that was queued for the editor, and what each task is for. -/
structure Recorded (sys : System) (H : List Entry) : Prop where
  outbox : sys.session.outbox = responses H
  below : ∀ id work ticket, .spawned id work ticket ∈ H → id < sys.nextTask
  once : ∀ id work work' ticket ticket', .spawned id work ticket ∈ H →
    .spawned id work' ticket' ∈ H → work = work'

/-- A move queues what is seen of it, and starts no task. -/
theorem Recorded.move (recorded : sys.Recorded H) (move : Move sys es sys') :
    sys'.Recorded (H ++ es) := by
  obtain ⟨sent, next, noStart⟩ : sys'.session.outbox = sys.session.outbox ++ responses es ∧
      sys'.nextTask = sys.nextTask ∧ ∀ e ∈ es, e.isStart = false := by
    cases move with
    | @perform l r t t' op _ a s split program performed =>
      refine ⟨?_, rfl, ?_⟩
      · rw [responses_append, Task.responses_admission, List.nil_append]
        exact (Session.perform_outbox performed).trans
          (congrArg _ (responses_sentBy t.id _).symm)
      · rw [List.forall_mem_append]
        refine ⟨fun e mem => ?_, by simp [Entry.isStart]⟩
        obtain ⟨k, rfl, -⟩ := Task.mem_admission mem
        rfl
    | @arrive l r t op =>
      refine ⟨?_, rfl, by simp⟩
      rw [responses_nil, List.append_nil]
      exact (Session.arrive_outbox sys.session t op).1
    | answer => exact ⟨by simp, rfl, by simp [Entry.isStart]⟩
    | forward => exact ⟨rfl, rfl, by simp [Entry.isStart]⟩
    | expire | relay | tick => exact ⟨by simp, rfl, by simp⟩
    | finish => exact ⟨by simp [Session.leave], rfl, by simp⟩
  obtain ⟨outbox, below, once⟩ := recorded
  have before {id work ticket} (mem : .spawned id work ticket ∈ H ++ es) :
      .spawned id work ticket ∈ H := by
    rcases List.mem_append.mp mem with old | new
    · exact old
    · cases noStart _ new
  refine ⟨by rw [sent, outbox, responses_append], fun id work ticket mem => ?_,
    fun id work work' ticket ticket' mem mem' => once _ _ _ _ _ (before mem) (before mem')⟩
  exact next ▸ below id work ticket (before mem)

/-- A task that is started has a new number. -/
theorem Recorded.spawn {payload : String} {work : Delivery} {ticket : Option Ticket}
    (recorded : sys.Recorded H) (outbox : sys'.session.outbox = sys.session.outbox)
    (next : sys'.nextTask = sys.nextTask + 1) :
    sys'.Recorded (H ++ [.delivered payload, .spawned sys.nextTask work ticket]) := by
  obtain ⟨sent, below, once⟩ := recorded
  have old {id work' ticket'}
      (mem : .spawned id work' ticket' ∈
        H ++ [.delivered payload, .spawned sys.nextTask work ticket]) :
      .spawned id work' ticket' ∈ H ∨ id = sys.nextTask ∧ work' = work := by
    simp only [List.mem_append, List.mem_cons, List.not_mem_nil, or_false, reduceCtorEq, false_or,
      Entry.spawned.injEq] at mem
    exact mem.imp_right fun new => ⟨new.1, new.2.1⟩
  refine ⟨?_, ?_, ?_⟩
  · rw [outbox, sent, responses_append]
    exact (List.append_nil _).symm
  · intro id work' ticket' mem
    rw [next]
    rcases old mem with mem | ⟨rfl, -⟩
    · exact Nat.lt_succ_of_lt (below _ _ _ mem)
    · exact Nat.lt_succ_self _
  · intro id work₁ work₂ ticket₁ ticket₂ mem₁ mem₂
    rcases old mem₁ with mem₁ | ⟨rfl, rfl⟩
    · rcases old mem₂ with mem₂ | ⟨rfl, -⟩
      · exact once _ _ _ _ _ mem₁ mem₂
      · exact absurd (below _ _ _ mem₁) (Nat.lt_irrefl _)
    · rcases old mem₂ with mem₂ | ⟨-, rfl⟩
      · exact absurd (below _ _ _ mem₂) (Nat.lt_irrefl _)
      · rfl

theorem Recorded.arrival {payload : String} (recorded : sys.Recorded H)
    (arrival : Arrival sys payload es sys') : sys'.Recorded (H ++ es) := by
  cases arrival with
  | gated | free | refresh | input => exact recorded.spawn rfl rfl
  | refuse | silent =>
    obtain ⟨outbox, below, once⟩ := recorded
    refine ⟨?_, ?_, ?_⟩
    · rw [responses_append, ← outbox]
      first | rfl | exact (List.append_nil _).symm
    · intro id work ticket mem
      exact below id work ticket (by simpa using mem)
    · intro id work work' ticket ticket' mem mem'
      exact once id work work' ticket ticket' (by simpa using mem) (by simpa using mem')

theorem recorded_invariant : Invariant (fun _ => True) Recorded where
  move _ recorded move := recorded.move move
  arrival _ _ recorded arrival := recorded.arrival arrival
  cancel _ _ recorded _ := ⟨recorded.outbox, recorded.below, recorded.once⟩

end System

/-! ### Tickets -/

/-- A change of a gate that takes no place in its queue but at the end. -/
structure Gate.Follows (g g' : Gate) : Prop where
  next : g.next ≤ g'.next
  queue : ∀ k ∈ g'.queue, k ∈ g.queue ∨ g.next ≤ k

namespace Gate.Follows

theorem refl (g : Gate) : g.Follows g :=
  ⟨Nat.le_refl _, fun _ mem => .inl mem⟩

theorem draw (g : Gate) : g.Follows g.draw.2 := by
  refine ⟨Nat.le_succ _, fun k mem => ?_⟩
  rcases List.mem_append.mp mem with old | new
  · exact .inl old
  · exact .inr (Nat.le_of_eq (List.mem_singleton.mp new).symm)

theorem leave (p : Place) (g : Gate) : g.Follows (p.leave g) := by
  cases p with
  | none => exact refl g
  | queued k => exact ⟨Nat.le_refl _, fun _ mem => .inl (List.mem_of_mem_filter mem)⟩
  | holding k =>
    by_cases held : g.holder = some k
    · rw [Place.leave, Gate.release, if_pos held]
      exact ⟨Nat.le_refl _, fun _ mem => .inl mem⟩
    · rw [Place.leave, Gate.release, if_neg held]
      exact refl g

theorem arrive {s : Session} (t : Task) (op : Op) : s.gate.Follows (s.arrive t op).1.gate := by
  cases op with
  | lockGate | lockGateWithin =>
    cases place : t.place with
    | none =>
      rw [Session.arrive, place]
      exact draw s.gate
    | queued k | holding k =>
      rw [Session.arrive, place]
      exact refl s.gate
  | _ => exact refl s.gate

end Gate.Follows

/-- The ticket that a task drew when it was started. -/
def Entry.dispatch? : Entry → Option (TaskId × Ticket)
  | .spawned id _ ticket => ticket.map (id, ·)
  | _ => none

/-- The tickets that were drawn on arrival, in order, with the tasks that drew them. -/
def dispatches (H : List Entry) : List (TaskId × Ticket) :=
  H.filterMap Entry.dispatch?

theorem dispatches_eq_nil (noStart : ∀ e ∈ es, e.isStart = false) : dispatches es = [] := by
  refine List.filterMap_eq_nil_iff.mpr fun e mem => ?_
  cases e with
  | spawned => exact absurd (noStart _ mem) (by simp [Entry.isStart])
  | _ => rfl

theorem dispatches_append (H es : List Entry) :
    dispatches (H ++ es) = dispatches H ++ dispatches es :=
  List.filterMap_append

namespace System

variable {sys sys' : System}

/-- Tickets are drawn in order and admitted in order, before those that still wait. -/
structure Lined (sys : System) (H : List Entry) : Prop where
  admitted : (admissions H).Pairwise (·.2 < ·.2)
  dispatched : (dispatches H).Pairwise (·.2 < ·.2)
  passed : ∀ a ∈ admissions H, a.2 < sys.session.gate.next ∧ ∀ k ∈ sys.session.gate.queue, a.2 < k
  drawn : ∀ d ∈ dispatches H, d.2 < sys.session.gate.next

/-- What admits no one keeps tickets in order, if the tickets that are drawn are new. -/
theorem Lined.follow (lined : sys.Lined H) (follows : sys.session.gate.Follows sys'.session.gate)
    (noAdmission : admissions es = []) (inOrder : (dispatches es).Pairwise (·.2 < ·.2))
    (new : ∀ d ∈ dispatches es, sys.session.gate.next ≤ d.2 ∧ d.2 < sys'.session.gate.next) :
    sys'.Lined (H ++ es) := by
  obtain ⟨admitted, dispatched, passed, drawn⟩ := lined
  rw [← List.append_nil (admissions H), ← noAdmission, ← admissions_append] at admitted passed
  refine ⟨admitted, ?_, fun a mem => ⟨?_, fun k waits => ?_⟩, ?_⟩
  · rw [dispatches_append, List.pairwise_append]
    exact ⟨dispatched, inOrder,
      fun d mem d' mem' => Nat.lt_of_lt_of_le (drawn d mem) (new d' mem').1⟩
  · exact Nat.lt_of_lt_of_le (passed a mem).1 follows.next
  · rcases follows.queue k waits with old | new
    · exact (passed a mem).2 k old
    · exact Nat.lt_of_lt_of_le (passed a mem).1 new
  · rw [dispatches_append, List.forall_mem_append]
    exact ⟨fun d mem => Nat.lt_of_lt_of_le (drawn d mem) follows.next, fun d mem => (new d mem).2⟩

theorem Lined.pass (lined : sys.Lined H) (follows : sys.session.gate.Follows sys'.session.gate)
    (noAdmission : admissions es = []) (noDispatch : dispatches es = []) :
    sys'.Lined (H ++ es) :=
  lined.follow follows noAdmission (noDispatch ▸ .nil) (by simp [noDispatch])

/-- The ticket that is admitted is the least of those that wait. -/
theorem Lined.enter {id : TaskId} {k : Ticket} (lined : sys.Lined H) (owned : sys.GateOwned)
    (entered : sys.session.gate.enter? k = some sys'.session.gate) :
    sys'.Lined (H ++ [.admitted id k]) := by
  obtain ⟨-, rest, queue, gate⟩ := Gate.enter?_eq_some entered
  have sorted := owned.sorted
  have below := owned.drawn
  rw [queue, List.pairwise_cons] at sorted
  rw [queue, List.forall_mem_cons] at below
  obtain ⟨admitted, dispatched, passed, drawn⟩ := lined
  rw [queue] at passed
  have noDispatch : dispatches [.admitted id k] = [] := rfl
  refine ⟨?_, ?_, ?_, ?_⟩
  · rw [admissions_append, List.pairwise_append]
    refine ⟨admitted, List.pairwise_singleton _ _, fun a mem b last => ?_⟩
    rw [List.mem_singleton.mp last]
    exact (passed a mem).2 k List.mem_cons_self
  · rwa [dispatches_append, noDispatch, List.append_nil]
  · rw [admissions_append, gate]
    refine List.forall_mem_append.mpr ⟨fun a mem => ?_, fun a last => ?_⟩
    · exact ⟨(passed a mem).1, fun k' waits => (passed a mem).2 k' (List.mem_cons_of_mem k waits)⟩
    · rw [List.mem_singleton.mp last]
      exact ⟨below.1, sorted.1⟩
  · rw [dispatches_append, noDispatch, List.append_nil, gate]
    exact drawn

/-- A step draws no ticket, and admits a task by its turn. -/
theorem Lined.perform {l r : List Task} {t t' : Task} {op : Op} {p : Program Unit}
    {a : op.Result} {s : Session} (lined : sys.Lined H) (owned : sys.GateOwned)
    (performed : sys.session.perform t op = some (a, s, t')) :
    { sys with session := s, tasks := l ++ { t' with program := p } :: r }.Lined
      (H ++ (t.admission op ++ sentBy t.id (sys.session.emitted op))) := by
  have done := Session.perform_eq_some performed
  have quiet : admissions (sentBy t.id (sys.session.emitted op)) = [] :=
    admissions_eq_nil (isAdmission_sentBy _ _)
  have noDispatch : dispatches (sentBy t.id (sys.session.emitted op)) = [] :=
    dispatches_eq_nil (by simp [sentBy, Entry.isStart])
  cases op with
  | lockGate | lockGateWithin =>
    obtain ⟨k, place, rfl, rfl⟩ | ⟨k, gate, place, entered, rfl, rfl⟩ :=
      Session.enterGate?_eq_some done
    · simp only [Task.admission, place]
      exact lined.pass (.refl _) quiet noDispatch
    · simp only [Task.admission, place]
      exact lined.enter owned entered
  | releaseGate =>
    obtain ⟨rfl, rfl⟩ := done
    exact lined.pass (.leave _ _) quiet noDispatch
  | resolve =>
    obtain ⟨rfl, ⟨-, -, rfl⟩ | ⟨r, debugger, -, -, rfl⟩⟩ := done <;>
      exact lined.pass (.refl _) quiet noDispatch
  | emit | flush | enter =>
    obtain ⟨rfl, rfl⟩ := done
    exact lined.pass (.refl _) quiet noDispatch
  | _ =>
    obtain ⟨-, -, sameGate, rfl⟩ := done
    exact lined.pass (sameGate ▸ .refl _) quiet noDispatch

theorem Lined.move (lined : sys.Lined H) (owned : sys.GateOwned) (move : Move sys es sys') :
    sys'.Lined (H ++ es) := by
  cases move with
  | perform split program performed => exact lined.perform owned performed
  | @arrive l r t op => exact lined.pass (.arrive t op) rfl rfl
  | expire | finish => exact lined.pass (.leave _ _) rfl rfl
  | answer | forward | relay | tick => exact lined.pass (.refl _) rfl rfl

theorem Lined.arrival {payload : String} (lined : sys.Lined H)
    (arrival : Arrival sys payload es sys') : sys'.Lined (H ++ es) := by
  cases arrival with
  | gated =>
    refine lined.follow (.draw _) rfl (List.pairwise_singleton _ _) fun d last => ?_
    rw [List.mem_singleton.mp last]
    exact ⟨Nat.le_refl _, Nat.lt_succ_self _⟩
  | free | refresh | input | refuse | silent => exact lined.pass (.refl _) rfl rfl

theorem lined_invariant : Invariant (fun _ => True) fun sys H => sys.GateOwned ∧ sys.Lined H where
  move numbered both move :=
    ⟨gateOwned_invariant.move (H := []) numbered both.1 move, both.2.move both.1 move⟩
  arrival numbered _ both arrival :=
    ⟨gateOwned_invariant.arrival (H := []) numbered trivial both.1 arrival, both.2.arrival arrival⟩
  cancel := by
    intro sys H l r t numbered _ both split
    refine ⟨gateOwned_invariant.cancel (H := []) numbered trivial both.1 split, ?_⟩
    have passes : { sys with session := sys.session.leave t, tasks := l ++ r }.Lined (H ++ []) :=
      both.2.pass (.leave _ _) rfl rfl
    rwa [List.append_nil] at passes

/-- Requests that keep the ticket they drew on arrival are admitted in the order of arrival. -/
theorem Lined.dispatched_sublist (lined : sys.Lined H) :
    ((admissions H).filter (· ∈ dispatches H)).Sublist (dispatches H) := by
  have antisymm : Std.Antisymm fun a b : TaskId × Ticket => a.2 < b.2 :=
    ⟨fun a b less greater => absurd greater (Nat.lt_asymm less)⟩
  have inOrder := lined.admitted.filter (· ∈ dispatches H)
  have nodup : ((admissions H).filter (· ∈ dispatches H)).Nodup := by
    refine inOrder.imp ?_
    rintro a _ less rfl
    exact Nat.lt_irrefl _ less
  have kept : (admissions H).filter (· ∈ dispatches H) ⊆ dispatches H := fun a mem => by
    simpa using (List.mem_filter.mp mem).2
  exact List.sublist_of_subperm_of_pairwise (List.subperm_of_subset nodup kept) inOrder
    lined.dispatched

end System

end LispBridge
