import LispBridge.Proofs.Program.Relaying
import LispBridge.Proofs.Relay.Lock
import LispBridge.Proofs.Session.Moves

/-!
The lock of the relay in a session.

A task evaluates only while it has the right to take output from the relay
(`Discipline.relaying`, `Program.Tidy.relays`), so in every reachable state a task that waits for
the end of an evaluation holds the lock (`System.RelayOwned.holder_of_eval`). Until the evaluation
ends, nobody else gets it.
-/

namespace LispBridge

/-! ### Steps and the lock -/

namespace Session

variable {s s' : Session} {t t' : Task} {op : Op} {a : op.Result}

/-- A step leaves the relay alone, unless it takes what is queued, and the relay's lock, unless it
gives the lock back. -/
theorem perform_relay_eq (performed : s.perform t op = some (a, s', t')) :
    s'.relay = (if op = .flush ∨ op = .discard then s.relay.flush.2 else s.relay) ∧
      s'.relayLock = if op = .unlockRelay then s.relayLock.leave t.id else s.relayLock := by
  cases op with
  | lockGate | lockGateWithin =>
    have entered := perform_eq_some performed
    obtain ⟨k, -, rfl, -⟩ | ⟨k, gate, -, -, rfl, -⟩ := enterGate?_eq_some entered <;> simp
  | resolve =>
    obtain ⟨-, ⟨-, -, rfl⟩ | ⟨r, debugger, -, -, rfl⟩⟩ := perform_eq_some performed <;> simp
  | lockRelay =>
    simp only [perform] at performed
    split at performed
    · cases performed
      simp
    · cases performed
  | call => cases performed
  | _ =>
    cases performed
    simp [send, enter, sendAll, flush]

theorem perform_relay (performed : s.perform t op = some (a, s', t')) :
    s'.relay = if op = .flush ∨ op = .discard then s.relay.flush.2 else s.relay :=
  (perform_relay_eq performed).1

theorem perform_relayLock (performed : s.perform t op = some (a, s', t')) :
    s'.relayLock = if op = .unlockRelay then s.relayLock.leave t.id else s.relayLock :=
  (perform_relay_eq performed).2

/-- A task that goes on from waiting for the relay's lock holds it. -/
theorem holder_of_perform {a : Op.lockRelay.Result}
    (performed : s.perform t .lockRelay = some (a, s', t')) : s.relayLock.holder = some t.id := by
  simp only [perform] at performed
  split at performed
  · next held => exact held
  · cases performed

theorem perform_movedBy (performed : s.perform t op = some (a, s', t')) :
    s.relayLock.MovedBy t.id s'.relayLock := by
  have lock := perform_relayLock performed
  split at lock
  · exact .inr (.inr lock)
  · exact .inl lock

end Session

/-! ### The discipline of relaying -/

/-- Whether a step is to evaluate code of the user. -/
def Op.evaluates : Op → Bool
  | .call c _ => c.isEval
  | _ => false

/-- Whether a task has the right to take output after a step, if it had it before or not. -/
def Op.relays (hasRight : Bool) : Op → Bool
  | .lockRelay => true
  | .unlockRelay => false
  | _ => hasRight

attribute [simp] Op.evaluates Op.relays

/-- The discipline of relaying: evaluations are asked for only with the right to take output. -/
def Discipline.relaying : Discipline Bool where
  allows hasRight op := op.evaluates = true → hasRight = true
  moves hasRight op _ y := y = op.relays hasRight

/-- A program that evaluates only while it relays. -/
def Program.Relays {α : Type} (p : Program α) (hasRight : Bool) : Prop :=
  p.Keeps .relaying hasRight fun _ _ => True

/-- Who uses the relay as it should evaluates only with the right to take output. -/
theorem Program.Tidy.relays {α : Type} {p : Program α} {x : Bool} (tidy : p.Tidy) : p.Relays x := by
  refine (Keeps.simulate (fun phase right => phase ≠ .idle → right = true) ?_ ?_ ?_ tidy).mono
    fun _ _ _ => trivial
  · intro phase right op related allowed evaluates
    cases op with
    | call c relaying =>
      refine related ?_
      rintro rfl
      simp_all
    | _ => cases evaluates
  · rintro phase right op r _ related allowed rfl
    obtain ⟨phase', after⟩ := Option.isSome_iff_exists.mp allowed
    refine ⟨phase', after, fun busy => ?_⟩
    cases op with
    | lockRelay => rfl
    | unlockRelay => cases phase <;> simp_all
    | _ =>
      refine related ?_
      rintro rfl
      simp_all
  · exact fun busy => absurd rfl busy

/-! ### Who holds the lock -/

namespace System

variable {sys sys' : System}

/-- The lock of the relay is in order: nobody waits for it while it is free, and who takes part in
it is a task. -/
structure RelayInOrder (sys : System) : Prop where
  fair : sys.session.relayLock.IsFair
  known : ∀ p, sys.session.relayLock.Involves p → p < sys.nextTask

/-- The lock of the relay is in order, and tasks that evaluate hold it. -/
structure RelayOwned (sys : System) : Prop extends sys.RelayInOrder where
  relays : ∀ t ∈ sys.tasks, ∃ x, t.program.Relays x ∧
    (x = true → sys.session.relayLock.holder = some t.id)

namespace RelayOwned

variable {l r : List Task} {t : Task}

/-- What one task does with the lock concerns no other task. -/
theorem step (owned : sys.RelayOwned) (numbered : sys.WellNumbered)
    (split : sys.tasks = l ++ t :: r) (same : sys'.nextTask = sys.nextTask)
    (moved : sys.session.relayLock.MovedBy t.id sys'.session.relayLock)
    (tasks : ∀ u ∈ sys'.tasks, u ∈ l ++ r ∨
      ∃ x, u.program.Relays x ∧ (x = true → sys'.session.relayLock.holder = some u.id)) :
    sys'.RelayOwned where
  fair := owned.fair.move moved
  known := by
    intro p involved
    rw [same]
    rcases moved.involves involved with before | rfl
    · exact owned.known p before
    · exact numbered.below t (mem_of_split split)
  relays := by
    intro u mem
    rcases tasks u mem with other | stands
    · obtain ⟨x, relays, holds⟩ := owned.relays u (mem_of_mem_others split other)
      refine ⟨x, relays, fun right => moved.holder (holds right) ?_⟩
      exact (numbered.apart split u other).symm
    · exact stands

/-- A task goes on, and the others stay as they are. -/
theorem exchange {s : Session} {t' : Task} (owned : sys.RelayOwned) (numbered : sys.WellNumbered)
    (split : sys.tasks = l ++ t :: r) (moved : sys.session.relayLock.MovedBy t.id s.relayLock)
    (stands : ∃ x, t'.program.Relays x ∧ (x = true → s.relayLock.holder = some t'.id)) :
    { sys with session := s, tasks := l ++ t' :: r }.RelayOwned := by
  refine owned.step numbered split rfl moved ?_
  intro u mem
  rcases mem_singled.mp mem with rfl | others
  · exact .inr stands
  · exact .inl others

/-- A task leaves, and the others stay as they are. -/
theorem remove (owned : sys.RelayOwned) (numbered : sys.WellNumbered)
    (split : sys.tasks = l ++ t :: r) :
    { sys with session := sys.session.leave t, tasks := l ++ r }.RelayOwned :=
  owned.step numbered split rfl (.inr (.inr rfl)) fun _ mem => .inl mem

theorem perform {t' : Task} {op : Op} {next : op.Result → Program Unit} {a : op.Result}
    {s : Session} (owned : sys.RelayOwned) (numbered : sys.WellNumbered)
    (split : sys.tasks = l ++ t :: r) (program : t.program = .step op next)
    (performed : sys.session.perform t op = some (a, s, t')) :
    { sys with session := s, tasks := l ++ { t' with program := next a } :: r }.RelayOwned := by
  obtain ⟨x, relays, holds⟩ := owned.relays t (mem_of_split split)
  rw [program] at relays
  refine owned.exchange numbered split (Session.perform_movedBy performed) ?_
  refine ⟨op.relays x, relays.2 a _ rfl, ?_⟩
  have lock := Session.perform_relayLock performed
  show op.relays x = true → s.relayLock.holder = some t'.id
  rw [Session.perform_id performed]
  cases op with
  | lockRelay =>
    intro _
    rw [lock]
    exact Session.holder_of_perform performed
  | unlockRelay => exact fun right => by cases right
  | _ =>
    rw [lock]
    exact holds

theorem move {es : List Entry} (owned : sys.RelayOwned) (numbered : sys.WellNumbered)
    (move : Move sys es sys') : sys'.RelayOwned := by
  cases move with
  | perform split program performed => exact owned.perform numbered split program performed
  | @arrive _ _ t op _ split program =>
    obtain ⟨x, relays, holds⟩ := owned.relays t (mem_of_split split)
    have asks := Session.arrive_relayLock sys.session t op
    refine owned.exchange numbered split (asks.imp id .inl) ⟨x, ?_, fun right => ?_⟩
    · show (sys.session.arrive t op).2.program.Relays x
      rwa [Session.program_arrive]
    · show _ = some (sys.session.arrive t op).2.id
      rw [Session.arrive_id]
      rcases asks with same | joined
      · rw [same, holds right]
      · rw [joined, Lock.holder_join (holds right)]
  | @answer _ _ t c _ _ a split program =>
    obtain ⟨x, relays, holds⟩ := owned.relays t (mem_of_split split)
    rw [program] at relays
    exact owned.exchange numbered split (.inl rfl) ⟨x, relays.2 a _ rfl, holds⟩
  | @expire _ _ t _ _ split program =>
    obtain ⟨x, relays, holds⟩ := owned.relays t (mem_of_split split)
    rw [program] at relays
    exact owned.exchange numbered split (.inl rfl) ⟨x, relays.2 false _ rfl, holds⟩
  | finish split => exact owned.remove numbered split
  | forward | relay | tick => exact ⟨⟨owned.fair, owned.known⟩, owned.relays⟩

/-- A new task has no part in the lock. -/
theorem spawn {s : Session} {program : Program Unit} {place : Place} (owned : sys.RelayOwned)
    (same : s.relayLock = sys.session.relayLock) (relays : program.Relays false) :
    ({ sys with session := s }.spawn program place).RelayOwned where
  fair := by
    show s.relayLock.IsFair
    exact same ▸ owned.fair
  known := by
    intro p involved
    exact Nat.lt_succ_of_lt (owned.known p (same ▸ involved))
  relays := by
    intro t mem
    rcases List.mem_append.mp mem with old | new
    · obtain ⟨x, relays, holds⟩ := owned.relays t old
      exact ⟨x, relays, fun right => (congrArg Lock.holder same).trans (holds right)⟩
    · obtain rfl := List.mem_singleton.mp new
      exact ⟨false, relays, fun right => by cases right⟩

theorem arrival {payload : String} {es : List Entry} (owned : sys.RelayOwned)
    (arrival : Arrival sys payload es sys') : sys'.RelayOwned := by
  cases arrival with
  | gated | free => exact owned.spawn rfl (Program.tidy_serve _ _ _ _).relays
  | refresh => exact owned.spawn rfl (Program.tidy_refreshAfterInterrupt _).relays
  | input => exact owned.spawn rfl (Program.tidy_deliverInput _).relays
  | refuse | silent => exact ⟨⟨owned.fair, owned.known⟩, owned.relays⟩

end RelayOwned

theorem relayOwned_invariant : Invariant (fun _ => True) fun sys _ => sys.RelayOwned where
  move numbered owned move := owned.move numbered move
  arrival _ _ owned arrival := owned.arrival arrival
  cancel numbered _ owned split := owned.remove numbered split

/-- In every reachable state tasks are numbered apart, and the lock of the relay is in order. -/
theorem relayOwned {settings : Settings} {host : Host} {ls : List Label}
    (ran : (System.new settings host).run ls = some sys) : sys.WellNumbered ∧ sys.RelayOwned := by
  refine relayOwned_invariant.holds ⟨⟨fun _ => rfl, ?_⟩, ?_⟩ (fun _ _ => trivial) ran
  · rintro p (holder | waits)
    · cases holder
    · cases waits
  · intro t mem
    cases mem

/-- **A task that evaluates holds the lock of the relay** until the interpreter answers. -/
theorem RelayOwned.holder_of_eval (owned : sys.RelayOwned) {t : Task} (mem : t ∈ sys.tasks)
    {code : String} {relaying : Bool} {next : (Call.eval code).Answer → Program Unit}
    (evaluates : t.program = .step (.call (.eval code) relaying) next) :
    sys.session.relayLock.holder = some t.id := by
  obtain ⟨x, relays, holds⟩ := owned.relays t mem
  rw [evaluates] at relays
  exact holds (relays.1 rfl)

end System

end LispBridge
