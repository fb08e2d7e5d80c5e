import LispBridge.Gate.Custody
import LispBridge.Proofs.Gate.Ownership

/-!
The order of admissions: a gate is a first-come first-served lock, whatever its participants do.

* `Custody.step_eq_some`: all that a step can do.
* `Custody.Sound`: what every step keeps. The queue, the holder and the counters of a gate are tied
  to what is owned of it and to what came about at it.
* `Custody.admitted_in_order`: tickets are admitted in the order in which they were drawn, one at a
  time, each once.
-/

namespace LispBridge

namespace Custody

variable {c c' : Custody} {l : Label} {t : Ticket}

/-! ### Steps -/

/-- A ticket is drawn, an attempt is refused or admits the ticket, and what is dropped was owned. -/
theorem step_eq_some : c.step l = some c' →
    match l with
    | .draw => c' =
        { gate := c.gate.draw.2
          handles := c.handles ++ [.ticket c.gate.next false]
          log := c.log ++ [.drawn c.gate.next] }
    | .attempt t => .ticket t false ∈ c.handles ∧
        ((c.gate.enter? t = none ∧ c' = c) ∨ ∃ gate, c.gate.enter? t = some gate ∧ c' =
          { gate
            handles := c.handles.erase (.ticket t false) ++ [.ticket t true, .guard t]
            log := c.log ++ [.admitted t] })
    | .drop h => h ∈ c.handles ∧ c' =
        { gate := h.place.leave c.gate
          handles := c.handles.erase h
          log := c.log ++ h.parting } := by
  intro stepped
  cases l with
  | draw => simpa [step, Gate.draw, eq_comm] using stepped
  | attempt t =>
    simp only [step] at stepped
    split at stepped
    · next owned =>
      refine ⟨owned, ?_⟩
      split at stepped
      · next gate entered => exact .inr ⟨gate, entered, by simpa using stepped.symm⟩
      · next refused => exact .inl ⟨refused, by simpa using stepped.symm⟩
    · simp at stepped
  | drop h =>
    simp only [step] at stepped
    split at stepped
    · next owned => exact ⟨owned, by simpa using stepped.symm⟩
    · simp at stepped

/-! ### What every step keeps -/

/-- The gate agrees with what is owned of it, and with what came about at it. -/
structure Sound (c : Custody) : Prop where
  owned : c.gate.Owned (c.handles.map Handle.place)
  /-- Those who were admitted and those who wait are all that were not given up, in the order in
  which they were drawn. -/
  line : c.admitted ++ c.gate.queue = (List.range c.gate.next).filter (· ∉ c.abandoned)
  /-- Whoever was admitted gave the gate back before the next was admitted. -/
  turns : c.admitted = c.released ++ c.gate.holder.toList
  gone : ∀ t ∈ c.abandoned, t < c.gate.next
  acquired : c.gate.acquired = c.admitted.length
  released : c.gate.released = c.released.length

theorem sound_new : Sound {} where
  owned := Gate.Owned.new
  line := rfl
  turns := rfl
  gone := by simp [abandoned]
  acquired := rfl
  released := rfl

namespace Sound

/-- No ticket is listed twice. -/
theorem nodup (sound : c.Sound) : (c.admitted ++ c.gate.queue).Nodup := by
  rw [sound.line]
  exact List.nodup_range.filter _

/-- The tickets in the queue are those that are owned and were not admitted. -/
theorem mem_queue_iff (sound : c.Sound) : t ∈ c.gate.queue ↔ .ticket t false ∈ c.handles := by
  rw [sound.owned.queue.mem_iff, List.filterMap_map, List.mem_filterMap]
  constructor
  · rintro ⟨h, mem, number⟩
    rcases h with ⟨u, _ | _⟩ | u
    · obtain rfl : u = t := by simpa [Handle.place] using number
      exact mem
    · simp [Handle.place] at number
    · simp [Handle.place] at number
  · intro mem
    exact ⟨_, mem, rfl⟩

/-- The guard that is out is the holder's. -/
theorem guards_eq (sound : c.Sound) : c.guards = c.gate.holder.toList := by
  rw [← sound.owned.holder, List.filterMap_map, guards]
  refine List.filterMap_congr fun h _ => ?_
  rcases h with ⟨u, _ | _⟩ | u <;> rfl

theorem holder_of_guard (sound : c.Sound) (mem : .guard t ∈ c.handles) :
    c.gate.holder = some t :=
  sound.owned.holder_eq_some_iff.mpr (List.mem_map.mpr ⟨_, mem, rfl⟩)

/-! ### One step -/

/-- Whatever is dropped, what is left of the handles agrees with the gate. -/
theorem owned_erase {h : Handle} (sound : c.Sound) (mem : h ∈ c.handles) :
    (h.place.leave c.gate).Owned ((c.handles.erase h).map Handle.place) := by
  obtain ⟨before, after, -, split, erased⟩ := List.exists_erase_eq mem
  have owned := sound.owned
  rw [split, List.map_append, List.map_cons] at owned
  rw [erased, List.map_append]
  exact Gate.Owned.none_iff.mp owned.leave

theorem draw (sound : c.Sound) (stepped : c.step .draw = some c') : c'.Sound := by
  obtain rfl : c' = _ := step_eq_some stepped
  obtain ⟨owned, line, turns, gone, acquired, released⟩ := sound
  have fresh : c.gate.next ∉ c.abandoned := fun mem => Nat.lt_irrefl _ (gone _ mem)
  constructor
  · have room := Gate.Owned.none_iff (l := c.handles.map Handle.place) (r := []) |>.mpr
      (by simpa using owned)
    simpa [Handle.place] using room.draw
  · have longer : c.admitted ++ (c.gate.queue ++ [c.gate.next]) =
        (List.range (c.gate.next + 1)).filter (· ∉ c.abandoned) := by
      rw [← List.append_assoc, line, List.range_succ, List.filter_append]
      simp [fresh]
    simpa [admitted, abandoned, Gate.draw] using longer
  · simpa [admitted, Custody.released, Gate.draw] using turns
  · intro t mem
    have before : t ∈ c.abandoned := by simpa [abandoned] using mem
    exact Nat.lt_succ_of_lt (gone t before)
  · simpa [admitted, Gate.draw] using acquired
  · simpa [Custody.released, Gate.draw] using released

theorem attempt (sound : c.Sound) (stepped : c.step (.attempt t) = some c') : c'.Sound := by
  obtain ⟨mem, ⟨-, rfl⟩ | ⟨gate, entered, rfl⟩⟩ := step_eq_some stepped
  · exact sound
  obtain ⟨owned, line, turns, gone, acquired, released⟩ := sound
  obtain ⟨before, after, -, split, erased⟩ := List.exists_erase_eq mem
  obtain ⟨free, rest, front, rfl⟩ := Gate.enter?_eq_some entered
  constructor
  · rw [split, List.map_append, List.map_cons] at owned
    have inside := owned.enter entered
    have last : Gate.Owned _
        ((before ++ after).map Handle.place ++ [.holding t]) :=
      inside.perm (by simpa using List.perm_middle.trans (List.perm_append_singleton _ _).symm)
    simpa [erased, Handle.place] using Gate.Owned.none_iff.mpr last
  · have moved : c.admitted ++ [t] ++ rest = c.admitted ++ c.gate.queue := by simp [front]
    simpa [admitted, abandoned] using moved.trans line
  · have idle : c.admitted = c.released := by simpa [free] using turns
    simpa [admitted, Custody.released] using congrArg (· ++ [t]) idle
  · simpa [abandoned] using gone
  · simpa [admitted] using acquired
  · simpa [Custody.released] using released

/-- A ticket that is given up leaves the line. -/
theorem dropTicket (sound : c.Sound) (stepped : c.step (.drop (.ticket t false)) = some c') :
    c'.Sound := by
  obtain ⟨mem, rfl⟩ := step_eq_some stepped
  have queued := sound.mem_queue_iff.mpr mem
  have distinct := sound.nodup
  have remaining := sound.owned_erase mem
  have left : (Handle.ticket t false).place.leave c.gate =
      { c.gate with queue := c.gate.queue.filter (· ≠ t) } := rfl
  rw [left] at remaining ⊢
  obtain ⟨owned, line, turns, gone, acquired, released⟩ := sound
  have unadmitted : t ∉ c.admitted := fun admitted =>
    List.disjoint_of_nodup_append distinct admitted queued
  constructor
  · exact remaining
  · have kept : c.admitted.filter (· ≠ t) = c.admitted :=
      List.filter_eq_self.mpr fun u mem => by simpa using ne_of_mem_of_not_mem mem unadmitted
    have shorter : c.admitted ++ c.gate.queue.filter (· ≠ t) =
        (List.range c.gate.next).filter (· ∉ c.abandoned ++ [t]) := by
      calc c.admitted ++ c.gate.queue.filter (· ≠ t)
          = (c.admitted ++ c.gate.queue).filter (· ≠ t) := by rw [List.filter_append, kept]
        _ = ((List.range c.gate.next).filter (· ∉ c.abandoned)).filter (· ≠ t) := by rw [line]
        _ = _ := by
            rw [List.filter_filter]
            refine List.filter_congr fun u _ => ?_
            simp [and_comm]
    simpa [admitted, abandoned, Handle.parting] using shorter
  · simpa [admitted, Custody.released, Handle.parting] using turns
  · intro u mem
    have given : u ∈ c.abandoned ++ [t] := by
      simpa [abandoned, Handle.parting] using mem
    rcases List.mem_append.mp given with earlier | now
    · exact gone u earlier
    · rw [List.mem_singleton.mp now]
      exact owned.drawn t queued
  · simpa [admitted, Handle.parting] using acquired
  · simpa [Custody.released, Handle.parting] using released

/-- A ticket that was admitted has nothing left to give back. -/
theorem dropSpent (sound : c.Sound) (stepped : c.step (.drop (.ticket t true)) = some c') :
    c'.Sound := by
  obtain ⟨mem, rfl⟩ := step_eq_some stepped
  have remaining := sound.owned_erase mem
  obtain ⟨-, line, turns, gone, acquired, released⟩ := sound
  simp only [Handle.parting, List.append_nil]
  exact ⟨remaining, line, turns, gone, acquired, released⟩

/-- A guard gives the gate back. -/
theorem dropGuard (sound : c.Sound) (stepped : c.step (.drop (.guard t)) = some c') :
    c'.Sound := by
  obtain ⟨mem, rfl⟩ := step_eq_some stepped
  have held := sound.holder_of_guard mem
  have remaining := sound.owned_erase mem
  have left : (Handle.guard t).place.leave c.gate =
      { c.gate with holder := none, released := c.gate.released + 1 } := if_pos held
  rw [left] at remaining ⊢
  obtain ⟨-, line, turns, gone, acquired, released⟩ := sound
  constructor
  · exact remaining
  · simpa [admitted, abandoned, Handle.parting] using line
  · simpa [admitted, Custody.released, Handle.parting, held] using turns
  · simpa [abandoned, Handle.parting] using gone
  · simpa [admitted, Handle.parting] using acquired
  · simpa [Custody.released, Handle.parting] using released

/-! ### Runs -/

/-- Every step keeps the gate sound, one case for each kind of step. -/
theorem step (sound : c.Sound) (stepped : c.step l = some c') : c'.Sound := by
  cases l with
  | draw => exact sound.draw stepped
  | attempt t => exact sound.attempt stepped
  | drop h =>
    rcases h with ⟨t, _ | _⟩ | t
    · exact sound.dropTicket stepped
    · exact sound.dropSpent stepped
    · exact sound.dropGuard stepped

/-- So does every run; the induction is on its steps. -/
theorem run {ls : List Label} (sound : c.Sound) (ran : c.run ls = some c') : c'.Sound := by
  induction ls generalizing c with
  | nil =>
    obtain rfl : c = c' := by simpa [Custody.run] using ran
    exact sound
  | cons l ls ih =>
    simp only [Custody.run, Option.bind_eq_bind, Option.bind_eq_some_iff] at ran
    obtain ⟨mid, stepped, ran⟩ := ran
    exact ih (sound.step stepped) ran

/-- Every ticket that waits was drawn after all that were admitted. -/
theorem lt_of_admitted (sound : c.Sound) {u : Ticket} (before : u ∈ c.admitted)
    (waits : t ∈ c.gate.queue) : u < t := by
  have sorted : (c.admitted ++ c.gate.queue).Pairwise (· < ·) := by
    rw [sound.line]
    exact List.pairwise_lt_range.filter _
  exact (List.pairwise_append.mp sorted).2.2 u before t waits

/-- A ticket that is dropped before admission is gone, and the others keep their places. -/
theorem dropped (sound : c.Sound) (mem : .ticket t false ∈ c.handles) :
    ∃ c', c.step (.drop (.ticket t false)) = some c' ∧ c'.gate.queue = c.gate.queue.erase t ∧
      t ∉ c'.gate.queue := by
  have erased : c.gate.queue.filter (· ≠ t) = c.gate.queue.erase t := by
    rw [sound.owned.sorted.nodup.erase_eq_filter]
    refine List.filter_congr fun u _ => ?_
    by_cases same : u = t
    · simp [same]
    · simp [same]
  refine ⟨_, if_pos mem, erased, ?_⟩
  simp [Handle.place, Place.leave, Gate.abandon]

end Sound

/-- Who tries is admitted exactly if the gate is free and its ticket is the first in the queue. -/
theorem enter?_isSome_iff (g : Gate) (t : Ticket) :
    (g.enter? t).isSome ↔ g.holder = none ∧ g.queue.head? = some t := by
  obtain ⟨next, queue, holder, acquired, released⟩ := g
  cases holder with
  | some u => simp [Gate.enter?]
  | none =>
    cases queue with
    | nil => simp [Gate.enter?]
    | cons front rest =>
      by_cases first : front = t <;> simp [Gate.enter?, first]

/-- Whoever waits with the first ticket of the queue is admitted to a free gate by its next try. -/
theorem exists_attempt (mem : .ticket t false ∈ c.handles) (free : c.gate.holder = none)
    (front : c.gate.queue.head? = some t) :
    ∃ c', c.step (.attempt t) = some c' ∧ c'.gate.holder = some t := by
  have admitted := (enter?_isSome_iff c.gate t).mpr ⟨free, front⟩
  obtain ⟨gate, entered⟩ := Option.isSome_iff_exists.mp admitted
  have held : gate.holder = some t := by
    obtain ⟨-, rest, -, rfl⟩ := Gate.enter?_eq_some entered
    rfl
  exact ⟨_, by simp only [step, if_pos mem, entered]; rfl, held⟩

/-- **First come, first served.** After any steps of any number of participants:

* at most one guard is out, and the holder of the gate is its ticket;
* the queue holds the tickets that are owned and were not admitted, in ascending order, and all of
  them were drawn after every ticket that was admitted;
* the tickets that were not given up are admitted in the order in which they were drawn, and a try
  succeeds exactly for the first of the queue at a free gate;
* no ticket is admitted twice, each is released before the next one is admitted and none is released
  twice, and the counters say how many were;
* a ticket that is dropped before admission leaves the queue, and the others keep their order. -/
theorem admitted_in_order {ls : List Label} (ran : ({} : Custody).run ls = some c) :
    c.guards = c.gate.holder.toList ∧
      (∀ t, t ∈ c.gate.queue ↔ .ticket t false ∈ c.handles) ∧
      c.gate.queue.Pairwise (· < ·) ∧
      (∀ u ∈ c.admitted, ∀ t ∈ c.gate.queue, u < t) ∧
      c.admitted ++ c.gate.queue = (List.range c.gate.next).filter (· ∉ c.abandoned) ∧
      (∀ t, (c.gate.enter? t).isSome ↔ c.gate.holder = none ∧ c.gate.queue.head? = some t) ∧
      c.admitted.Nodup ∧ c.released.Nodup ∧ c.admitted = c.released ++ c.gate.holder.toList ∧
      c.gate.acquired = c.admitted.length ∧ c.gate.released = c.released.length ∧
      c.gate.acquired = c.gate.released + c.gate.isHeld.toNat ∧
      ∀ t, .ticket t false ∈ c.handles → ∃ c', c.step (.drop (.ticket t false)) = some c' ∧
        c'.gate.queue = c.gate.queue.erase t ∧ t ∉ c'.gate.queue := by
  have sound := sound_new.run ran
  have distinct : c.admitted.Nodup := sound.nodup.of_append_left
  have once : c.released.Nodup := by
    rw [sound.turns] at distinct
    exact distinct.of_append_left
  exact ⟨sound.guards_eq, fun t => sound.mem_queue_iff, sound.owned.sorted,
    fun u before t waits => sound.lt_of_admitted before waits, sound.line,
    enter?_isSome_iff c.gate, distinct, once, sound.turns, sound.acquired, sound.released,
    sound.owned.balance, fun t mem => sound.dropped mem⟩

/-- Three tickets are drawn. The last one tries first and is refused, the first is admitted, the
second is given up and the first guard dropped: the last is admitted next, and the gate counts two
admissions and one release. -/
theorem admitted_in_order_past_abandoned :
    ∃ c, ({} : Custody).run
        [.draw, .draw, .draw, .attempt 2, .attempt 0, .drop (.ticket 0 true), .attempt 2,
          .drop (.ticket 1 false), .drop (.guard 0), .attempt 2] = some c ∧
      c.admitted = [0, 2] ∧ c.abandoned = [1] ∧ c.guards = [2] ∧ c.gate.holder = some 2 ∧
      c.gate.acquired = 2 ∧ c.gate.released = 1 := by
  have ends : (({} : Custody).run
      [.draw, .draw, .draw, .attempt 2, .attempt 0, .drop (.ticket 0 true), .attempt 2,
        .drop (.ticket 1 false), .drop (.guard 0), .attempt 2]).map
      (fun c => (c.admitted, c.abandoned, c.gate.holder, c.gate.released)) =
        some ([0, 2], [1], some 2, 1) := by
    decide
  obtain ⟨c, ran, ends⟩ := Option.map_eq_some_iff.mp ends
  simp only [Prod.mk.injEq] at ends
  obtain ⟨admitted, abandoned, holder, released⟩ := ends
  obtain ⟨guards, -, -, -, -, -, -, -, -, acquired, -⟩ := admitted_in_order ran
  rw [holder] at guards
  rw [admitted] at acquired
  exact ⟨c, ran, admitted, abandoned, guards, holder, acquired, released⟩

end Custody

end LispBridge
