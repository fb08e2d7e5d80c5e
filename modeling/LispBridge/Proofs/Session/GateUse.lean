import LispBridge.Proofs.Gate.Ownership
import LispBridge.Proofs.Session.Moves

/-!
The gate in a session.

In every reachable state, whatever was cancelled on the way, the gate and the places of the live
tasks agree (`gateOwned`). So nothing that a task drew or acquired outlives the task:
`gate_accounts_for_live_tasks`.
-/

namespace LispBridge

open Gate

namespace System

/-- The gate and the places of the live tasks agree. -/
def GateOwned (sys : System) : Prop :=
  sys.session.gate.Owned (sys.tasks.map Task.place)

theorem gateOwned_split {sys : System} {l r : List Task} {t : Task}
    (split : sys.tasks = l ++ t :: r) (owned : sys.GateOwned) :
    sys.session.gate.Owned (l.map Task.place ++ t.place :: r.map Task.place) := by
  simpa [GateOwned, split] using owned

end System

namespace Session

variable {s s' : Session} {t t' : Task} {op : Op} {l r : List Place}

theorem perform_owned {a : op.Result} (owned : s.gate.Owned (l ++ t.place :: r))
    (performed : s.perform t op = some (a, s', t')) :
    s'.gate.Owned (l ++ t'.place :: r) := by
  have done := perform_eq_some performed
  cases op with
  | lockGate | lockGateWithin =>
    obtain ⟨k, place, rfl, rfl⟩ | ⟨k, gate, place, entered, rfl, rfl⟩ := enterGate?_eq_some done
    · exact owned
    · rw [place] at owned
      exact owned.enter entered
  | releaseGate =>
    obtain ⟨rfl, rfl⟩ := done
    exact owned.leave
  | resolve =>
    obtain ⟨rfl, ⟨-, -, rfl⟩ | ⟨r, debugger, -, -, rfl⟩⟩ := done <;> exact owned
  | emit | flush | enter =>
    obtain ⟨rfl, rfl⟩ := done
    exact owned
  | _ =>
    obtain ⟨-, -, sameGate, rfl⟩ := done
    exact sameGate ▸ owned

theorem arrive_owned (owned : s.gate.Owned (l ++ t.place :: r)) :
    (s.arrive t op).1.gate.Owned (l ++ (s.arrive t op).2.place :: r) := by
  cases op with
  | lockGate | lockGateWithin =>
    cases place : t.place with
    | none =>
      rw [place] at owned
      simpa [arrive, place, draw] using owned.draw
    | queued k | holding k => simpa [arrive, place] using owned
  | _ => exact owned

end Session

namespace System

/-- However tasks run, wait, end or are cancelled, the gate agrees with their places. -/
theorem gateOwned_invariant : Invariant (fun _ => True) fun sys _ => sys.GateOwned where
  move := by
    intro sys sys' H es _ owned move
    cases move with
    | perform split _ performed =>
      simpa [GateOwned] using Session.perform_owned (gateOwned_split split owned) performed
    | arrive split => simpa [GateOwned] using Session.arrive_owned (gateOwned_split split owned)
    | answer a split => simpa [GateOwned] using gateOwned_split split owned
    | expire split => simpa [GateOwned] using (gateOwned_split split owned).leave
    | finish split =>
      simpa [GateOwned, Session.leave] using
        Owned.none_iff.mp (gateOwned_split split owned).leave
    | forward | relay | tick => exact owned
  arrival := by
    intro sys sys' H es payload _ _ owned arrival
    have room : sys.session.gate.Owned (sys.tasks.map Task.place ++ .none :: []) :=
      Owned.none_iff.mpr (by simpa [GateOwned] using owned)
    cases arrival with
    | gated => simpa [GateOwned, spawn, draw] using room.draw
    | free | refresh | input => simpa [GateOwned, spawn, Session.ask] using room
    | refuse | silent => exact owned
  cancel := by
    intro sys H l r t _ _ owned split
    simpa [GateOwned, Session.leave] using Owned.none_iff.mp (gateOwned_split split owned).leave

/-- In every reachable state the gate and the places of the live tasks agree. -/
theorem gateOwned {settings : Settings} {host : Host} {ls : List Label} {sys : System}
    (ran : (System.new settings host).run ls = some sys) : sys.GateOwned :=
  (gateOwned_invariant.holds Owned.new (fun _ _ => trivial) ran).2

/-- **The gate never leaks.** In every reachable state the gate is held exactly by the one live
task that owns its guard, as many tickets wait as live tasks own unadmitted ones, and every
acquisition but that guard's has been released. Once no task is left, the gate is as free as a new
one. -/
theorem gate_accounts_for_live_tasks {settings : Settings} {host : Host} {ls : List Label}
    {sys : System} (ran : (System.new settings host).run ls = some sys) :
    (∀ k, sys.session.gate.holder = some k ↔ ∃ t ∈ sys.tasks, t.place = .holding k) ∧
      sys.tasks.countP (·.place.guard?.isSome) = sys.session.gate.isHeld.toNat ∧
      sys.tasks.countP (·.place.ticket?.isSome) = sys.session.gate.queue.length ∧
      sys.session.gate.acquired = sys.session.gate.released + sys.session.gate.isHeld.toNat ∧
      (sys.tasks = [] → sys.session.gate.isHeld = false ∧ sys.session.gate.queue = [] ∧
        sys.session.gate.acquired = sys.session.gate.released) := by
  have owned := gateOwned ran
  have guards := owned.countP_guard
  have tickets := owned.countP_ticket
  rw [List.countP_map] at guards tickets
  refine ⟨fun k => by simpa using owned.holder_eq_some_iff, guards, tickets, owned.balance, ?_⟩
  intro none
  rw [none] at guards tickets
  have free : sys.session.gate.isHeld = false := by simpa using guards.symm
  exact ⟨free, List.eq_nil_of_length_eq_zero tickets.symm, by simpa [free] using owned.balance⟩

/-- Two evaluations arrive, the first acquires the gate and is cancelled inside its evaluation, the
second while it waits: the gate was acquired once, and it is free again. -/
theorem gate_accounts_for_cancelled_tasks :
    ∃ sys, (System.new {}).run
        [.deliver "(:emacs-rex (swank:interactive-eval \"1\") nil t 1)",
         .deliver "(:emacs-rex (swank:load-file \"f\") nil t 2)",
         .resume 0, .resume 0, .resume 0, .resume 1, .cancel 0, .cancel 1] = some sys ∧
      sys.tasks = [] ∧ sys.session.gate.acquired = 1 ∧ sys.session.gate.released = 1 ∧
      sys.session.gate.isHeld = false ∧ sys.session.gate.queue = [] := by
  have ends : ((System.new {}).run
        [.deliver "(:emacs-rex (swank:interactive-eval \"1\") nil t 1)",
         .deliver "(:emacs-rex (swank:load-file \"f\") nil t 2)",
         .resume 0, .resume 0, .resume 0, .resume 1, .cancel 0, .cancel 1]).map
      (fun sys => (sys.tasks.length, sys.session.gate.acquired)) = some (0, 1) := by
    decide +kernel
  obtain ⟨sys, ran, counts⟩ := Option.map_eq_some_iff.mp ends
  obtain ⟨length, acquired⟩ := Prod.mk.inj counts
  have none : sys.tasks = [] := List.eq_nil_of_length_eq_zero length
  obtain ⟨free, queue, balance⟩ := (gate_accounts_for_live_tasks ran).2.2.2.2 none
  exact ⟨sys, ran, none, acquired, balance ▸ acquired, free, queue⟩

end System

end LispBridge
