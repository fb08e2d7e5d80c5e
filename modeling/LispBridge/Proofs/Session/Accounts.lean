import LispBridge.Proofs.Debugger.Levels
import LispBridge.Proofs.Session.Debts
import Mathlib.Tactic.Abel

/-!
Accounts: debts are neither created nor lost.

* `Debugger.owes`: the debts that the debugger holds, one result and one closing for each level.
* `System.Balanced`: what was told to the editor, what the debugger holds and what the live tasks
  owe is together what payloads asked for and announcements promised.
* `balanced`: so it is in every state that is reached without cancellations.
* `one_result_per_request`: each request gets one result.
-/

namespace LispBridge

/-! ### Debts of the debugger -/

namespace Debugger

/-- The debts that the active levels hold. -/
def owes (d : Debugger) : Multiset Debt :=
  owedFor (innermostFirst d.levels 1)

@[simp] theorem owedFor_innermostFirst_cons (l : Level) (levels : List Level) (first : Nat) :
    owedFor (innermostFirst (l :: levels) first) =
      {.closing first, .result l.id} + owedFor (innermostFirst levels (first + 1)) := by
  simp [innermostFirst, owedFor, List.mapIdx_cons, List.sum_reverse, add_comm, add_left_comm]

theorem owedFor_innermostFirst_append (levels levels' : List Level) (first : Nat) :
    owedFor (innermostFirst (levels ++ levels') first) =
      owedFor (innermostFirst levels first) +
        owedFor (innermostFirst levels' (first + levels.length)) := by
  induction levels generalizing first with
  | nil => simp [innermostFirst]
  | cons l levels ih =>
    have shift : first + 1 + levels.length = first + (l :: levels).length := by
      rw [List.length_cons, add_assoc, add_comm 1]
    rw [List.cons_append, owedFor_innermostFirst_cons, owedFor_innermostFirst_cons, ih, shift,
      add_assoc]

theorem owes_push (d : Debugger) (l : Level) :
    (d.push l).owes = d.owes + {.closing (d.depth + 1), .result l.id} := by
  rw [owes, push, owedFor_innermostFirst_append, owedFor_innermostFirst_cons, add_comm 1, owes]
  rfl

/-- Leaving levels hands over what they hold. -/
theorem owes_resolve {d d' : Debugger} {number index : Nat} {r : Resolution}
    (resolved : d.resolve number index = some (r, d')) :
    d.owes = d'.owes + owedFor ((number, r.level) :: (r.above ++ r.below)) := by
  obtain ⟨rest, above, split, rfl, -, -, aboveIs, cleared⟩ := resolve_eq_some resolved
  rw [owes, split, owedFor_innermostFirst_append, owedFor_innermostFirst_cons, owedFor_cons,
    owedFor_append, aboveIs, add_comm 1]
  rcases cleared with ⟨-, belowIs, rest'⟩ | ⟨-, belowIs, rest'⟩
  · rw [owes, rest', belowIs]
    simp [innermostFirst, add_comm]
  · rw [owes, rest', belowIs]
    simp

end Debugger

/-! ### Debts of the tasks -/

/-- A task owes something if it pays that before it ends, whatever happens. Only tasks of requests
owe anything. -/
structure Task.Owes (H : List Entry) (t : Task) (owed : Multiset Debt) : Prop where
  keeps : t.program.Keeps .debts owed fun _ rest => rest = 0
  serves : owed ≠ 0 → Serves H t.id

/-- The debts of tasks, taken together. -/
def Books (H : List Entry) : List Task → Multiset Debt → Prop
  | [], total => total = 0
  | t :: ts, total => ∃ owed rest, total = owed + rest ∧ t.Owes H owed ∧ Books H ts rest

namespace Books

variable {H : List Entry} {l r : List Task} {t : Task} {total : Multiset Debt}

theorem middle : Books H (l ++ t :: r) total ↔
    ∃ owed rest, total = owed + rest ∧ t.Owes H owed ∧ Books H (l ++ r) rest := by
  induction l generalizing total with
  | nil => rfl
  | cons u l ih =>
    constructor
    · rintro ⟨owed, _, rfl, owes, books⟩
      obtain ⟨owed', rest, rfl, owes', books⟩ := ih.mp books
      exact ⟨owed', owed + rest, add_left_comm _ _ _, owes', owed, rest, rfl, owes, books⟩
    · rintro ⟨owed', _, rfl, owes', owed, rest, rfl, owes, books⟩
      exact ⟨owed, owed' + rest, add_left_comm _ _ _, owes, ih.mpr ⟨_, _, rfl, owes', books⟩⟩

theorem append_singleton {ts : List Task} : Books H (ts ++ [t]) total ↔
    ∃ owed rest, total = owed + rest ∧ t.Owes H owed ∧ Books H ts rest := by
  simpa using middle (H := H) (l := ts) (r := [])

/-- What was owed is owed when more was seen. -/
theorem extend {ts : List Task} (es : List Entry) (books : Books H ts total) :
    Books (H ++ es) ts total := by
  induction ts generalizing total with
  | nil => exact books
  | cons t ts ih =>
    obtain ⟨owed, rest, rfl, ⟨keeps, serves⟩, books⟩ := books
    exact ⟨owed, rest, rfl, ⟨keeps, fun some => (serves some).append es⟩, ih books⟩

/-- Nothing is owed while no request is served. -/
theorem eq_zero {ts : List Task} (books : Books H ts total) (idle : ∀ t ∈ ts, ¬ Serves H t.id) :
    total = 0 := by
  induction ts generalizing total with
  | nil => exact books
  | cons t ts ih =>
    obtain ⟨owed, rest, rfl, owes, books⟩ := books
    rw [List.forall_mem_cons] at idle
    have nothing : owed = 0 := by_contra fun some => idle.1 (owes.serves some)
    rw [nothing, ih books idle.2, add_zero]

end Books

/-! ### The balance -/

/-- The request that a payload asks for: its id, or the id that can be recovered from a payload that
is not a message. -/
def requestId? (payload : String) : Option RequestId :=
  match Inbound.ofPayload payload with
  | .ok (.request r) => some r.id
  | .ok (.interrupt _) | .ok (.input ..) => none
  | .error _ =>
    match salvage payload with
    | .found id => some id
    | .nothing | .splitCharacter => none

/-- The request that is to be answered in the end. -/
def Delivery.requestId? : Delivery → Option RequestId
  | .serve _ r => some r.id
  | .refuse id _ => some id
  | .interrupt _ | .input _ | .ignore | .crash => none

/-- A payload that asks for a request is served or refused under its id. -/
theorem requestId?_ofPayload (payload : String) :
    (Delivery.ofPayload payload).requestId? = requestId? payload := by
  unfold Delivery.ofPayload requestId?
  rcases Inbound.ofPayload payload with fault | (r | thread | ⟨thread, tag, text⟩)
  · cases salvage payload <;> rfl
  · cases known : Command.ofTag r.tag <;> simp [known, Delivery.requestId?]
  · rfl
  · rfl

/-- The debts that a payload makes. -/
def Entry.incurred : Entry → Multiset Debt
  | .delivered payload => (requestId? payload).elim 0 fun id => {.result id}
  | _ => 0

/-- The debts that payloads made. -/
def incurredBy (H : List Entry) : Multiset Debt :=
  (H.map Entry.incurred).sum

/-- The debts that messages made. -/
def promisedBy (rs : List Response) : Multiset Debt :=
  (rs.map Response.promised).sum

@[simp] theorem incurredBy_append (H es : List Entry) :
    incurredBy (H ++ es) = incurredBy H + incurredBy es := by
  simp [incurredBy]

@[simp] theorem promisedBy_cons (r : Response) (rs : List Response) :
    promisedBy (r :: rs) = r.promised + promisedBy rs := by
  simp [promisedBy]

@[simp] theorem promisedBy_append (rs rs' : List Response) :
    promisedBy (rs ++ rs') = promisedBy rs + promisedBy rs' := by
  simp [promisedBy]

namespace System

/-- What was told, what the debugger holds and what the live tasks owe is what was asked for and
promised. -/
def Balanced (sys : System) (H : List Entry) : Prop :=
  ∃ owed, Books H sys.tasks owed ∧
    paidBy sys.session.outbox + sys.session.debugger.owes + owed =
      incurredBy H + promisedBy sys.session.outbox

end System

namespace Session

variable {s s' : Session} {t t' : Task} {op : Op} {a : op.Result}

/-- Output that is forwarded neither pays nor promises anything. -/
theorem paidBy_chunks (chunks : List Chunk) :
    paidBy (chunks.map Chunk.response) = 0 ∧ promisedBy (chunks.map Chunk.response) = 0 := by
  constructor <;> exact List.sum_eq_zero (by simp [Chunk.response])

/-- A step of a task moves debts between the task, the debugger and the editor. -/
theorem perform_balance (performed : s.perform t op = some (a, s', t')) (plain : op.promised = 0) :
    paidBy s'.outbox + s'.debugger.owes + op.gained a + promisedBy s.outbox =
      paidBy s.outbox + s.debugger.owes + op.due + promisedBy s'.outbox := by
  have done := perform_eq_some performed
  cases op with
  | lockGate | lockGateWithin =>
    obtain ⟨outbox, debugger⟩ := enterGate?_outbox done
    rw [outbox, debugger]
    rfl
  | resolve number index =>
    obtain ⟨-, ⟨-, rfl, rfl⟩ | ⟨r, debugger, resolved, rfl, rfl⟩⟩ := done
    · rfl
    · simp [Debugger.owes_resolve resolved, add_assoc]
  | emit r =>
    obtain ⟨rfl, -⟩ := done
    have plain : promisedBy [r] = 0 := by simpa [promisedBy] using plain
    simp [send, plain, add_right_comm]
  | enter l =>
    obtain ⟨rfl, -⟩ := done
    have announced : promisedBy [.event (l.debugEvent (s.debugger.depth + 1)),
        .event (.debugActivate (s.debugger.depth + 1))] = {.closing (s.debugger.depth + 1)} := rfl
    have paid : paidBy [.event (l.debugEvent (s.debugger.depth + 1)),
        .event (.debugActivate (s.debugger.depth + 1))] = 0 := rfl
    have split : ({.closing (s.debugger.depth + 1), .result l.id} : Multiset Debt) =
        {.result l.id} + {.closing (s.debugger.depth + 1)} := by
      rw [add_comm ({.result l.id} : Multiset Debt), Multiset.singleton_add]
      rfl
    simp only [Session.enter, sendAll, paidBy_append, promisedBy_append, announced, paid,
      Debugger.owes_push, split, Op.gained, Op.due]
    abel
  | flush =>
    obtain ⟨rfl, -⟩ := done
    obtain ⟨paid, promised⟩ := paidBy_chunks s.relay.queue
    simp [flush, Relay.flush, sendAll, paid, promised]
  | releaseGate =>
    obtain ⟨rfl, -⟩ := done
    rfl
  | _ =>
    obtain ⟨outbox, debugger, -, -⟩ := done
    rw [outbox, debugger]
    rfl

end Session

namespace System

variable {sys sys' : System} {H es : List Entry}

theorem incurredBy_admission (t : Task) (op : Op) : incurredBy (t.admission op) = 0 := by
  unfold Task.admission
  split
  · split <;> rfl
  · split <;> rfl
  · rfl

theorem incurredBy_sent (id : Option TaskId) (rs : List Response) :
    incurredBy (rs.map (.sent id)) = 0 :=
  List.sum_eq_zero (by simp [Entry.incurred])

theorem gained_eq_zero {op : Op} (stays : op.leaves = false) (a : op.Result) :
    op.gained a = 0 := by
  cases op with
  | resolve => simp at stays
  | _ => rfl

/-- One task goes on, and what it owes changes by what the editor is told and the debugger holds;
all other tasks owe what they owed. -/
theorem Balanced.exchange {l r : List Task} {t t' : Task} {s : Session} (balanced : sys.Balanced H)
    (split : sys.tasks = l ++ t :: r) (same : t'.id = t.id) (free : incurredBy es = 0)
    (pays : ∀ owed, t.program.Keeps .debts owed (fun _ rest => rest = 0) →
      ∃ owed', t'.program.Keeps .debts owed' (fun _ rest => rest = 0) ∧ (owed' ≠ 0 → owed ≠ 0) ∧
        paidBy s.outbox + s.debugger.owes + owed' + promisedBy sys.session.outbox =
          paidBy sys.session.outbox + sys.session.debugger.owes + owed + promisedBy s.outbox) :
    { sys with session := s, tasks := l ++ t' :: r }.Balanced (H ++ es) := by
  obtain ⟨total, books, balance⟩ := balanced
  rw [split, Books.middle] at books
  obtain ⟨owed, rest, rfl, ⟨keeps, serves⟩, others⟩ := books
  obtain ⟨owed', keeps', indebted, moved⟩ := pays owed keeps
  have serves' : owed' ≠ 0 → Serves (H ++ es) t'.id := fun some =>
    same ▸ (serves (indebted some)).append es
  refine ⟨owed' + rest,
    Books.middle.mpr ⟨owed', rest, rfl, ⟨keeps', serves'⟩, others.extend es⟩, ?_⟩
  ext d
  have balance := congrArg (Multiset.count d) balance
  have moved := congrArg (Multiset.count d) moved
  simp only [Multiset.count_add, incurredBy_append, free, Multiset.count_zero] at balance moved ⊢
  omega

/-- A task that goes on and owes what it owed. -/
theorem Balanced.pass {l r : List Task} {t t' : Task} {s : Session} (balanced : sys.Balanced H)
    (split : sys.tasks = l ++ t :: r) (same : t'.id = t.id) (free : incurredBy es = 0)
    (outbox : s.outbox = sys.session.outbox) (debugger : s.debugger = sys.session.debugger)
    (keeps : ∀ owed, t.program.Keeps .debts owed (fun _ rest => rest = 0) →
      t'.program.Keeps .debts owed fun _ rest => rest = 0) :
    { sys with session := s, tasks := l ++ t' :: r }.Balanced (H ++ es) :=
  balanced.exchange split same free fun owed kept =>
    ⟨owed, keeps owed kept, id, by rw [outbox, debugger]⟩

/-- A task pays what its step is due, and owes what it takes over from the debugger. -/
theorem Balanced.perform {l r : List Task} {t t' : Task} {op : Op} {next : op.Result → Program Unit}
    {a : op.Result} {s : Session} (balanced : sys.Balanced H) (split : sys.tasks = l ++ t :: r)
    (program : t.program = .step op next) (performed : sys.session.perform t op = some (a, s, t')) :
    { sys with session := s, tasks := l ++ { t' with program := next a } :: r }.Balanced
      (H ++ (t.admission op ++ (sys.session.emitted op).map (Entry.sent (some t.id)))) := by
  have same : t'.id = t.id := Session.perform_id performed
  refine balanced.exchange split same ?_ fun owed keeps => ?_
  · rw [incurredBy_append, incurredBy_admission, incurredBy_sent, add_zero]
  rw [program] at keeps
  obtain ⟨⟨due, plain, indebted⟩, rest⟩ := keeps
  obtain ⟨slack, rfl⟩ := Multiset.le_iff_exists_add.mp due
  refine ⟨_, rest _ _ rfl, ?_, ?_⟩
  · intro owes nothing
    rw [add_tsub_cancel_left, (add_eq_zero.mp nothing).2, zero_add] at owes
    refine indebted (by_contra fun stays => ?_) nothing
    exact owes (gained_eq_zero (by simpa using stays) _)
  · rw [add_tsub_cancel_left]
    have moved := Session.perform_balance performed plain
    ext d
    have moved := congrArg (Multiset.count d) moved
    simp only [Multiset.count_add] at moved ⊢
    omega

/-- Moves keep the balance. -/
theorem Balanced.move (balanced : sys.Balanced H) (move : Move sys es sys') :
    sys'.Balanced (H ++ es) := by
  cases move with
  | perform split program performed => exact balanced.perform split program performed
  | @arrive l r t op next split program =>
    have same := Session.arrive_id sys.session t op
    obtain ⟨outbox, debugger⟩ := Session.arrive_outbox sys.session t op
    refine balanced.pass split same rfl outbox debugger fun owed keeps => ?_
    exact (Session.program_arrive sys.session t op).symm ▸ keeps
  | answer a split program =>
    refine balanced.pass split rfl rfl rfl rfl fun owed keeps => ?_
    rw [program] at keeps
    exact keeps.2 a owed (by simp)
  | @forward l r t c next chunk relay split program =>
    obtain ⟨total, books, balance⟩ := balanced
    obtain ⟨paid, promised⟩ := Session.paidBy_chunks [chunk]
    rw [List.map_singleton] at paid promised
    have free := incurredBy_sent (some t.id) [chunk.response]
    rw [List.map_singleton] at free
    exact ⟨total, books.extend _, by simpa [Session.send, paid, promised, free] using balance⟩
  | expire split program =>
    refine balanced.pass split rfl rfl rfl rfl fun owed keeps => ?_
    rw [program] at keeps
    exact keeps.2 false owed (by simp)
  | finish split program =>
    obtain ⟨total, books, balance⟩ := balanced
    rw [split, Books.middle] at books
    obtain ⟨owed, rest, rfl, ⟨keeps, -⟩, others⟩ := books
    rw [program] at keeps
    obtain rfl : owed = 0 := keeps
    exact ⟨rest, by simpa using others, by simpa [Session.leave] using balance⟩
  | relay | tick => simpa [Balanced] using balanced

/-- A new task owes what its payload asks for. -/
theorem Balanced.spawn {s : Session} {program : Program Unit} {place : Place}
    {owed : Multiset Debt} (balanced : sys.Balanced H) (outbox : s.outbox = sys.session.outbox)
    (debugger : s.debugger = sys.session.debugger)
    (keeps : program.Keeps .debts owed fun _ rest => rest = 0)
    (serves : owed ≠ 0 → Serves (H ++ es) sys.nextTask) (incurred : incurredBy es = owed) :
    ({ sys with session := s }.spawn program place).Balanced (H ++ es) := by
  obtain ⟨total, books, balance⟩ := balanced
  refine ⟨owed + total, Books.append_singleton.mpr ⟨owed, total, rfl, ⟨keeps, serves⟩,
    books.extend es⟩, ?_⟩
  simp only [System.spawn, outbox, debugger, incurredBy_append, incurred]
  rw [add_left_comm, balance, add_left_comm, add_assoc]

theorem incurredBy_delivered (payload : String) (es : List Entry) :
    incurredBy (.delivered payload :: es) =
      ((Delivery.ofPayload payload).requestId?.elim 0 fun id => {.result id}) + incurredBy es := by
  rw [requestId?_ofPayload]
  simp [incurredBy, Entry.incurred]

theorem incurredBy_spawned (id : TaskId) (work : Delivery) (ticket : Option Ticket) :
    incurredBy [.spawned id work ticket] = 0 := rfl

/-- Arrivals keep the balance: what a payload asks for is owed by its task, or paid at once. -/
theorem Balanced.arrival {payload : String} (balanced : sys.Balanced H)
    (arrival : Arrival sys payload es sys') : sys'.Balanced (H ++ es) := by
  cases arrival with
  | gated delivery | free delivery =>
    refine balanced.spawn rfl rfl (Program.keeps_serve_debts _ _ _ _) (fun _ => ?_) ?_
    · exact ⟨_, _, _, List.mem_append_right H (List.mem_cons_of_mem _ List.mem_cons_self)⟩
    · rw [incurredBy_delivered, delivery, incurredBy_spawned, add_zero]
      rfl
  | refresh delivery =>
    refine balanced.spawn rfl rfl (Program.keeps_refreshAfterInterrupt_debts _)
      (fun owes => absurd rfl owes) ?_
    rw [incurredBy_delivered, delivery, incurredBy_spawned]
    rfl
  | input delivery =>
    refine balanced.spawn rfl rfl (Program.keeps_deliverInput_debts _)
      (fun owes => absurd rfl owes) ?_
    rw [incurredBy_delivered, delivery, incurredBy_spawned]
    rfl
  | @refuse id reason delivery =>
    obtain ⟨total, books, balance⟩ := balanced
    have incurred : incurredBy [.delivered payload, .sent none (.result (.error reason) id)] =
        {.result id} := by
      rw [incurredBy_delivered, delivery]
      rfl
    have promised : promisedBy [.result (.error reason) id] = 0 := rfl
    refine ⟨total, books.extend _, ?_⟩
    simp only [Session.send, paidBy_append, paidBy_cons, paidBy_nil, promisedBy_append,
      incurredBy_append, incurred, promised, Response.paid, add_zero]
    calc paidBy sys.session.outbox + {.result id} + sys.session.debugger.owes + total
        = paidBy sys.session.outbox + sys.session.debugger.owes + total + {.result id} := by abel
      _ = incurredBy H + {.result id} + promisedBy sys.session.outbox := by
        rw [balance, add_right_comm]
  | silent asked isReading notServed notRefused =>
    obtain ⟨total, books, balance⟩ := balanced
    have unasked : (Delivery.ofPayload payload).requestId? = none := by
      cases delivery : Delivery.ofPayload payload with
      | serve command r => exact absurd delivery (notServed command r)
      | refuse id reason => exact absurd delivery (notRefused id reason)
      | _ => rfl
    have incurred : incurredBy [.delivered payload] = 0 := by
      rw [incurredBy_delivered, unasked]
      rfl
    exact ⟨total, books.extend _, by simpa [incurred] using balance⟩

/-! ### Runs -/

/-- Whether an event is not a cancellation. -/
def Label.keepsTasks : Label → Prop
  | .cancel _ => False
  | _ => True

theorem balanced_invariant : Invariant Label.keepsTasks Balanced where
  move _ balanced move := balanced.move move
  arrival _ _ balanced arrival := balanced.arrival arrival
  cancel _ kept := kept.elim

/-- Every state that is reached without cancellations is balanced. -/
theorem balanced {settings : Settings} {host : Host} {ls : List Label}
    (uncancelled : ∀ id, .cancel id ∉ ls)
    (ran : (System.new settings host).run ls = some sys) :
    sys.Balanced ((System.new settings host).history ls) := by
  have start : (System.new settings host).Balanced [] := ⟨0, rfl, rfl⟩
  refine (balanced_invariant.holds start (fun l mem => ?_) ran).2
  cases l with
  | cancel id => exact uncancelled id mem
  | _ => trivial

end System

/-! ### One result for each request -/

/-- Whether a message is the result of a request. -/
def Response.answers (id : RequestId) : Response → Bool
  | .result _ id' => id' = id
  | .event _ => false

/-- Whether an event is the arrival of a payload that asks for a request. -/
def System.Label.asks (id : RequestId) : System.Label → Bool
  | .deliver payload => requestId? payload = some id
  | _ => false

theorem count_paidBy (id : RequestId) (rs : List Response) :
    (paidBy rs).count (.result id) = rs.countP (Response.answers id) := by
  induction rs with
  | nil => rfl
  | cons r rs ih =>
    rw [paidBy_cons, Multiset.count_add, ih, List.countP_cons, add_comm]
    congr 1
    cases r with
    | event e => cases e <;> simp [Response.answers]
    | result verdict id' => simp [Response.answers, Multiset.count_singleton, eq_comm]

theorem count_promisedBy (id : RequestId) (rs : List Response) :
    (promisedBy rs).count (.result id) = 0 := by
  induction rs with
  | nil => rfl
  | cons r rs ih =>
    rw [promisedBy_cons, Multiset.count_add, ih]
    rcases r with ⟨_ | _ | _ | _ | _ | _ | _⟩ | _ <;> simp

theorem count_owes (id : RequestId) (d : Debugger) :
    d.owes.count (.result id) = d.levels.countP (·.id = id) := by
  unfold Debugger.owes
  generalize 1 = first
  induction d.levels generalizing first with
  | nil => rfl
  | cons l levels ih =>
    rw [Debugger.owedFor_innermostFirst_cons, Multiset.count_add, ih, List.countP_cons, add_comm]
    congr 1
    simp [Multiset.count_singleton, eq_comm]

namespace System

theorem incurredBy_started (sys : System) (payload : String) :
    incurredBy (sys.started payload) = 0 := by
  unfold started
  split <;> rfl

/-- What a step makes owed is what its payload asks for, if it is the arrival of one. -/
theorem count_incurredBy_cause (id : RequestId) (sys : System) (l : Label) :
    (incurredBy (sys.cause l)).count (.result id) = if l.asks id then 1 else 0 := by
  cases l with
  | deliver payload =>
    rw [cause, incurredBy_delivered, incurredBy_started, add_zero, requestId?_ofPayload]
    cases asked : requestId? payload with
    | none => simp [Label.asks, asked]
    | some id' => simp [Label.asks, asked, Multiset.count_singleton, eq_comm]
  | resume task =>
    simp only [cause]
    split
    · rw [incurredBy_admission]
      rfl
    · rfl
  | _ => rfl

theorem count_incurredBy (id : RequestId) {ls : List Label} : ∀ {sys sys' : System},
    sys.run ls = some sys' →
      (incurredBy (sys.history ls)).count (.result id) = ls.countP (Label.asks id) := by
  induction ls with
  | nil => exact fun _ => rfl
  | cons l ls ih =>
    intro sys sys' ran
    simp only [System.run, Option.bind_eq_bind, Option.bind_eq_some_iff] at ran
    obtain ⟨mid, stepped, ran⟩ := ran
    rw [history, stepped, incurredBy_append, Multiset.count_add, ih ran, List.countP_cons,
      entries, incurredBy_append, incurredBy_sent, add_zero, count_incurredBy_cause, add_comm]

/-- **Each request gets one result.** However tasks run and whatever the interpreter answers, the
results that were queued for an id and the debugger levels that hold its result are never more than
the payloads that asked for it, and as many as these when no task is left. -/
theorem one_result_per_request {settings : Settings} {host : Host} {ls : List Label} {sys : System}
    (uncancelled : ∀ task, .cancel task ∉ ls)
    (ran : (System.new settings host).run ls = some sys) (id : RequestId) :
    sys.session.outbox.countP (Response.answers id) +
          sys.session.debugger.levels.countP (·.id = id) ≤ ls.countP (Label.asks id) ∧
      (sys.tasks = [] → sys.session.outbox.countP (Response.answers id) +
          sys.session.debugger.levels.countP (·.id = id) = ls.countP (Label.asks id)) := by
  obtain ⟨owed, books, balance⟩ := balanced uncancelled ran
  have counts := congrArg (Multiset.count (Debt.result id)) balance
  simp only [Multiset.count_add, count_paidBy, count_owes, count_promisedBy,
    count_incurredBy id ran, add_zero] at counts
  refine ⟨Nat.le.intro counts, fun none => ?_⟩
  rw [none] at books
  obtain rfl : owed = 0 := books
  simpa using counts

/-- An unknown command is refused, and an evaluation raises a condition: one result is queued, the
other waits for the debugger level. -/
theorem one_result_per_failed_request :
    let ls : List Label :=
      [.deliver "(:emacs-rex (swank:nonsense) nil t 7)",
       .deliver "(:emacs-rex (swank:interactive-eval \"(car 1)\") nil t 1)",
       .resume 0, .resume 0, .resume 0,
       .answer 0 (.eval "(car 1)") (.error (.interpreter { message := "not a list" })), .resume 0]
    ∃ sys, (System.new {}).run ls = some sys ∧ sys.tasks = [] ∧
      sys.session.outbox.countP (Response.answers 1) +
          sys.session.debugger.levels.countP (·.id = 1) = ls.countP (Label.asks 1) ∧
      sys.session.outbox.countP (Response.answers 7) +
          sys.session.debugger.levels.countP (·.id = 7) = ls.countP (Label.asks 7) ∧
      ls.countP (Label.asks 1) = 1 ∧ ls.countP (Label.asks 7) = 1 := by
  intro ls
  have ends : ((System.new {}).run ls).map (fun sys => sys.tasks.length) = some 0 := by
    decide +kernel
  obtain ⟨sys, ran, length⟩ := Option.map_eq_some_iff.mp ends
  have none : sys.tasks = [] := List.eq_nil_of_length_eq_zero length
  have uncancelled : ∀ task, .cancel task ∉ ls := by simp [ls]
  exact ⟨sys, ran, none, (one_result_per_request uncancelled ran 1).2 none,
    (one_result_per_request uncancelled ran 7).2 none, by decide +kernel, by decide +kernel⟩

end System

end LispBridge
