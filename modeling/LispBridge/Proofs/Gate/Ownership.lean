import LispBridge.Gate.Basic
import Mathlib.Data.List.Nodup

/-!
Who has what of the gate.

`Gate.Owned g places` ties a gate to the places of its participants: its queue is made of their
tickets, its holder is the one participant that has its guard, and its counters differ by the guard
that is out. Each of the ways in which a place changes keeps this: drawing a ticket
(`Owned.draw`), admission (`Owned.enter`), and giving back whatever there is (`Owned.leave`).
-/

namespace LispBridge

namespace Place

/-- The ticket of a participant that waits for admission. -/
def ticket? : Place → Option Ticket
  | .queued t => some t
  | .none | .holding _ => Option.none

/-- The ticket of a participant that holds the gate. -/
def guard? : Place → Option Ticket
  | .holding t => some t
  | .none | .queued _ => Option.none

@[simp] theorem ticket?_none : Place.none.ticket? = Option.none := rfl

@[simp] theorem ticket?_queued (t : Ticket) : (queued t).ticket? = some t := rfl

@[simp] theorem ticket?_holding (t : Ticket) : (holding t).ticket? = Option.none := rfl

@[simp] theorem guard?_none : Place.none.guard? = Option.none := rfl

@[simp] theorem guard?_queued (t : Ticket) : (queued t).guard? = Option.none := rfl

@[simp] theorem guard?_holding (t : Ticket) : (holding t).guard? = some t := rfl

end Place

namespace Gate

/-- A gate and the places of those who use it agree. -/
structure Owned (g : Gate) (places : List Place) : Prop where
  queue : g.queue.Perm (places.filterMap Place.ticket?)
  holder : places.filterMap Place.guard? = g.holder.toList
  sorted : g.queue.Pairwise (· < ·)
  drawn : ∀ t ∈ g.queue, t < g.next
  balance : g.acquired = g.released + g.isHeld.toNat

/-- The front of the queue is admitted while the gate is free. -/
theorem enter?_eq_some {g g' : Gate} {t : Ticket} (entered : g.enter? t = some g') :
    g.holder = none ∧ ∃ rest, g.queue = t :: rest ∧
      g' = { g with queue := rest, holder := some t, acquired := g.acquired + 1 } := by
  unfold enter? at entered
  split at entered
  · next front rest holder queue =>
    split at entered
    · next same => exact ⟨holder, rest, same ▸ queue, by simpa using entered.symm⟩
    · simp at entered
  · simp at entered

namespace Owned

variable {g g' : Gate} {l r : List Place} {t : Ticket}

theorem new : Owned {} [] :=
  ⟨.nil, rfl, .nil, by simp, rfl⟩

/-- Who has nothing of the gate does not matter to it. -/
theorem none_iff : Owned g (l ++ .none :: r) ↔ Owned g (l ++ r) := by
  constructor
  all_goals
    rintro ⟨queue, holder, sorted, drawn, balance⟩
    exact ⟨by simpa [List.filterMap_cons] using queue,
      by simpa [List.filterMap_cons] using holder, sorted, drawn, balance⟩

/-- The order of the participants does not matter to it. -/
theorem perm {places places' : List Place} (owned : Owned g places)
    (reordered : places.Perm places') : Owned g places' := by
  obtain ⟨queue, holder, sorted, drawn, balance⟩ := owned
  refine ⟨queue.trans (reordered.filterMap _), ?_, sorted, drawn, balance⟩
  have guards := reordered.filterMap Place.guard?
  rw [holder] at guards
  cases held : g.holder with
  | none => simpa [held] using guards
  | some t => simpa [held, eq_comm] using guards

theorem draw (owned : Owned g (l ++ .none :: r)) :
    Owned g.draw.2 (l ++ .queued g.next :: r) := by
  obtain ⟨queue, holder, sorted, drawn, balance⟩ := none_iff.mp owned
  refine ⟨?_, by simpa [Gate.draw, List.filterMap_cons] using holder, ?_, ?_, balance⟩
  · have moved : (g.queue ++ [g.next]).Perm
        (g.next :: (l.filterMap Place.ticket? ++ r.filterMap Place.ticket?)) :=
      (List.perm_append_singleton _ _).trans ((by simpa using queue : List.Perm _ _).cons _)
    simpa [Gate.draw, List.filterMap_cons] using moved.trans List.perm_middle.symm
  · refine List.pairwise_append.mpr ⟨sorted, List.pairwise_singleton _ _, ?_⟩
    intro t mem u last
    rw [List.mem_singleton.mp last]
    exact drawn t mem
  · intro t mem
    rcases List.mem_append.mp mem with mem | mem
    · exact Nat.lt_succ_of_lt (drawn t mem)
    · rw [List.mem_singleton.mp mem]
      exact Nat.lt_succ_self _

theorem enter (owned : Owned g (l ++ .queued t :: r)) (entered : g.enter? t = some g') :
    Owned g' (l ++ .holding t :: r) := by
  obtain ⟨queue, holder, sorted, drawn, balance⟩ := owned
  obtain ⟨free, rest, front, rfl⟩ := enter?_eq_some entered
  rw [front] at queue sorted drawn
  refine ⟨?_, ?_, sorted.of_cons, fun u mem => drawn u (List.mem_cons_of_mem _ mem), ?_⟩
  · have moved : (t :: rest).Perm (t :: (l.filterMap Place.ticket? ++ r.filterMap Place.ticket?)) :=
      queue.trans (by simp [List.perm_middle])
    simpa [List.filterMap_cons] using moved.cons_inv
  · simp only [free, Option.toList_none, List.filterMap_append, List.filterMap_cons,
      Place.guard?_queued, List.append_eq_nil_iff] at holder
    simp [holder]
  · simp [isHeld, free] at balance
    simp [isHeld, balance]

/-- A participant that holds the gate is its holder, and no other holds it. -/
theorem holder_of_holding (owned : Owned g (l ++ .holding t :: r)) :
    g.holder = some t ∧ l.filterMap Place.guard? = [] ∧ r.filterMap Place.guard? = [] := by
  have holder := owned.holder
  cases held : g.holder with
  | none => simp [held] at holder
  | some u =>
    have single : l.filterMap Place.guard? ++ t :: r.filterMap Place.guard? = [u] := by
      simpa [held] using holder
    have lengths := congrArg List.length single
    simp only [List.length_append, List.length_cons, List.length_nil] at lengths
    have left : l.filterMap Place.guard? = [] := List.eq_nil_of_length_eq_zero (by omega)
    have right : r.filterMap Place.guard? = [] := List.eq_nil_of_length_eq_zero (by omega)
    rw [left, right] at single
    exact ⟨by simpa using single.symm, left, right⟩

/-- A participant may give back what it has at any time. -/
theorem leave {p : Place} (owned : Owned g (l ++ p :: r)) :
    Owned (p.leave g) (l ++ .none :: r) := by
  cases p with
  | none => exact owned
  | queued t =>
    obtain ⟨queue, holder, sorted, drawn, balance⟩ := owned
    have fewer : (g.abandon t).queue.Sublist g.queue := List.filter_sublist
    refine ⟨?_, by simpa [Place.leave, abandon, List.filterMap_cons] using holder,
      sorted.sublist fewer, fun u mem => drawn u (fewer.subset mem), balance⟩
    have listed : g.queue.Perm (l.filterMap Place.ticket? ++ t :: r.filterMap Place.ticket?) := by
      simpa using queue
    have nodup := listed.nodup_iff.mp sorted.nodup
    rw [List.nodup_middle, List.nodup_cons] at nodup
    have others := List.filter_eq_self (p := (· ≠ t)) |>.mpr fun u mem => by
      simpa using ne_of_mem_of_not_mem mem nodup.1
    simpa [Place.leave, abandon, List.filterMap_cons] using
      (listed.filter (· ≠ t)).trans (by simpa using List.Perm.of_eq others)
  | holding t =>
    obtain ⟨held, left, right⟩ := owned.holder_of_holding
    obtain ⟨queue, holder, sorted, drawn, balance⟩ := owned
    simp only [isHeld, held] at balance
    simp only [Place.leave, release, held, if_true]
    exact ⟨by simpa [List.filterMap_cons] using queue,
      by simp [List.filterMap_cons, left, right], sorted, drawn, by simpa [isHeld] using balance⟩

/-- The gate's holder is the participant that has its guard. -/
theorem holder_eq_some_iff {places : List Place} (owned : Owned g places) :
    g.holder = some t ↔ .holding t ∈ places := by
  rw [← Option.mem_toList, ← owned.holder, List.mem_filterMap]
  constructor
  · rintro ⟨p, mem, guard⟩
    cases p with
    | none | queued => simp at guard
    | holding u => simpa [← Option.some.inj guard] using mem
  · exact fun mem => ⟨_, mem, rfl⟩

/-- There is one guard while the gate is held, and none while it is free. -/
theorem countP_guard {places : List Place} (owned : Owned g places) :
    places.countP (·.guard?.isSome) = g.isHeld.toNat := by
  rw [← List.length_filterMap_eq_countP, owned.holder]
  cases held : g.holder <;> simp [isHeld, held]

/-- The tickets of the queue are those of the participants that wait. -/
theorem countP_ticket {places : List Place} (owned : Owned g places) :
    places.countP (·.ticket?.isSome) = g.queue.length := by
  rw [← List.length_filterMap_eq_countP, owned.queue.length_eq]

end Owned

end Gate

end LispBridge
