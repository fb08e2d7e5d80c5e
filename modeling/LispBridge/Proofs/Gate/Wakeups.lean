import LispBridge.Gate.WaitingRoom
import LispBridge.Proofs.Gate.Admissions

/-!
No wakeup is lost: who is first in the queue of a free gate does not sleep through it.

A waiter asks to be told of changes before it tries, so a change that comes between its try and its
sleep still reaches it. The invariant (`WaitingRoom.Attentive`) says this of every waiter that will
not look at the gate again by itself: it cannot be admitted, unless a change is still to be
announced.

* `WaitingRoom.step_eq_some`: all that a step can do.
* `WaitingRoom.Attentive.step`, `WaitingRoom.Attentive.run`: one step, and a whole run.
* `WaitingRoom.front_waiter_awake`: the first in the queue of a free gate gets in by its own steps.
-/

namespace LispBridge

/-- Whether a waiter looks at the gate again only when it is told of a change. -/
def WaiterStage.isUnaware : WaiterStage → Bool
  | .refused false | .asleep => true
  | .ready | .listening _ | .refused true => false

namespace WaitingRoom

variable {r r' : WaitingRoom} {l : Label} {t : Ticket} {s : WaiterStage}

/-! ### Waiters -/

theorem mem_of_stage? (waits : r.stage? t = some s) : (t, s) ∈ r.waiters := by
  obtain ⟨before, after, split, -⟩ := List.lookup_eq_some_iff.mp waits
  rw [split]
  exact List.mem_append_right before List.mem_cons_self

/-- After a waiter moved on, its stage is the new one, and the others are where they were. -/
theorem mem_setStage {w : Ticket × WaiterStage} (mem : w ∈ (r.setStage t s).waiters) :
    w = (t, s) ∨ w ∈ r.waiters := by
  obtain ⟨u, mem, rfl⟩ := List.mem_map.mp mem
  by_cases same : u.1 = t
  · exact .inl (if_pos same)
  · exact .inr (by rwa [if_neg same])

theorem stage?_setStage {s' : WaiterStage} (waits : r.stage? t = some s') :
    (r.setStage t s).stage? t = some s := by
  obtain ⟨custody, waiters, unannounced⟩ := r
  simp only [stage?, setStage] at waits ⊢
  induction waiters with
  | nil => simp at waits
  | cons w waiters ih =>
    by_cases same : w.1 = t
    · simp [same]
    · have other : (t == w.1) = false := by simpa using Ne.symm same
      obtain ⟨u, stage⟩ := w
      rw [List.lookup_cons, other] at waits
      simp only [List.map_cons, if_neg same, List.lookup_cons, other]
      exact ih waits

/-! ### Steps -/

/-- What each step does, and when it can happen. -/
theorem step_eq_some : r.step l = some r' →
    match l with
    | .draw => ∃ custody, r.custody.step .draw = some custody ∧ r' = { r with custody }
    | .wait t => .ticket t false ∈ r.custody.handles ∧ r.stage? t = none ∧
        r' = { r with waiters := r.waiters ++ [(t, .ready)] }
    | .listen t => r.stage? t = some .ready ∧ r' = r.setStage t (.listening false)
    | .attempt t => ∃ told custody, r.stage? t = some (.listening told) ∧
        r.custody.step (.attempt t) = some custody ∧
        r' = if (r.gate.enter? t).isSome then { r.remove t with custody }
          else r.setStage t (.refused told)
    | .rest t => ∃ told, r.stage? t = some (.refused told) ∧
        r' = r.setStage t (if told then .ready else .asleep)
    | .drop h => ∃ custody, r.custody.step (.drop h) = some custody ∧
        r' = { r.remove h.number with
          custody
          unannounced := if h.isSpent then r.unannounced else r.unannounced + 1 }
    | .announce => ∃ n, r.unannounced = n + 1 ∧
        r' = { r with waiters := r.waiters.map fun w => (w.1, tell w.2), unannounced := n } := by
  intro stepped
  cases l with
  | draw | drop =>
    simp only [step, Option.map_eq_some_iff] at stepped
    obtain ⟨custody, changed, rfl⟩ := stepped
    exact ⟨custody, changed, rfl⟩
  | wait t =>
    simp only [step] at stepped
    split at stepped
    · next fresh => exact ⟨fresh.1, fresh.2, by simpa using stepped.symm⟩
    · cases stepped
  | listen t =>
    simp only [step] at stepped
    split at stepped
    · next waits => exact ⟨waits, by simpa using stepped.symm⟩
    · cases stepped
  | attempt t =>
    simp only [step] at stepped
    split at stepped
    · next told waits =>
      obtain ⟨custody, tried, moved⟩ := Option.bind_eq_some_iff.mp stepped
      exact ⟨told, custody, waits, tried, by simpa using moved.symm⟩
    · cases stepped
  | rest t =>
    simp only [step] at stepped
    split at stepped
    · next told waits => exact ⟨told, waits, by simpa using stepped.symm⟩
    · cases stepped
  | announce =>
    simp only [step] at stepped
    split at stepped
    · cases stepped
    · next n pending => exact ⟨n, pending, by simpa using stepped.symm⟩

/-! ### What every step keeps -/

/-- There is a reason why a waiter with a ticket may sleep: it cannot be admitted now, or it will be
told of a change. -/
def MaySleep (r : WaitingRoom) (t : Ticket) : Prop :=
  0 < r.unannounced ∨ r.gate.holder ≠ none ∨ r.gate.queue.head? ≠ some t

/-- Who waits owns a ticket in the queue, and who sleeps, or is about to, may do so. -/
structure Attentive (r : WaitingRoom) : Prop where
  sound : r.custody.Sound
  waiting : ∀ w ∈ r.waiters, .ticket w.1 false ∈ r.custody.handles
  unaware : ∀ w ∈ r.waiters, w.2.isUnaware = true → r.MaySleep w.1

theorem attentive_new : Attentive {} where
  sound := Custody.sound_new
  waiting := by simp
  unaware := by simp

/-- A waiter is refused only at a gate that is held, or behind another ticket. -/
theorem maySleep_of_refused (refused : r.gate.enter? t = none) : r.MaySleep t := by
  by_contra stuck
  simp only [MaySleep, not_or, not_not] at stuck
  have entered := (Custody.enter?_isSome_iff r.gate t).mpr stuck.2
  simp [refused] at entered

namespace Attentive

/-- A waiter may move on to a stage in which it looks at the gate again, or may sleep. -/
theorem setStage (attentive : r.Attentive) (waits : r.stage? t = some s) {s' : WaiterStage}
    (reason : s'.isUnaware = true → r.MaySleep t) : (r.setStage t s').Attentive := by
  constructor
  · exact attentive.sound
  · intro w mem
    rcases mem_setStage mem with rfl | mem
    · exact attentive.waiting (t, s) (mem_of_stage? waits)
    · exact attentive.waiting w mem
  · intro w mem unaware
    rcases mem_setStage mem with rfl | mem
    · exact reason unaware
    · exact attentive.unaware w mem unaware

/-- A new ticket goes behind those that wait. -/
theorem draw (attentive : r.Attentive) (stepped : r.step .draw = some r') : r'.Attentive := by
  obtain ⟨custody, drew, rfl⟩ := step_eq_some stepped
  have sound := attentive.sound.draw drew
  obtain rfl : custody = _ := Custody.step_eq_some drew
  constructor
  · exact sound
  · intro w mem
    exact List.mem_append_left _ (attentive.waiting w mem)
  · intro w mem unaware
    have queued := attentive.sound.mem_queue_iff.mpr (attentive.waiting w mem)
    have same : (r.gate.queue ++ [r.gate.next]).head? = r.gate.queue.head? :=
      List.head?_append_of_ne_nil _ (List.ne_nil_of_mem queued)
    have reason := attentive.unaware w mem unaware
    unfold MaySleep at reason ⊢
    rw [← same] at reason
    exact reason

/-- Whoever begins to wait looks at the gate first. -/
theorem wait (attentive : r.Attentive) (stepped : r.step (.wait t) = some r') : r'.Attentive := by
  obtain ⟨kept, -, rfl⟩ := step_eq_some stepped
  constructor
  · exact attentive.sound
  · intro w mem
    rcases List.mem_append.mp mem with mem | mem
    · exact attentive.waiting w mem
    · rw [List.mem_singleton.mp mem]
      exact kept
  · intro w mem unaware
    rcases List.mem_append.mp mem with mem | mem
    · exact attentive.unaware w mem unaware
    · rw [List.mem_singleton.mp mem] at unaware
      cases unaware

theorem listen (attentive : r.Attentive) (stepped : r.step (.listen t) = some r') :
    r'.Attentive := by
  obtain ⟨waits, rfl⟩ := step_eq_some stepped
  refine attentive.setStage waits fun unaware => ?_
  cases unaware

/-- A waiter that is admitted closes the gate, so the others may sleep; one that is refused sees why
it may. -/
theorem attempt (attentive : r.Attentive) (stepped : r.step (.attempt t) = some r') :
    r'.Attentive := by
  obtain ⟨told, custody, waits, tried, rfl⟩ := step_eq_some stepped
  have sound := attentive.sound.attempt tried
  obtain ⟨mem, ⟨refused, rfl⟩ | ⟨gate, entered, rfl⟩⟩ := Custody.step_eq_some tried
  · rw [if_neg (by simp [WaitingRoom.gate, refused])]
    exact attentive.setStage waits fun _ => maySleep_of_refused refused
  · rw [if_pos (by simp [WaitingRoom.gate, entered])]
    obtain ⟨-, rest, -, rfl⟩ := Gate.enter?_eq_some entered
    constructor
    · exact sound
    · intro w waiting
      obtain ⟨waiting, other⟩ := List.mem_filter.mp waiting
      have kept := attentive.waiting w waiting
      refine List.mem_append_left _ ((List.mem_erase_of_ne ?_).mpr kept)
      simpa using other
    · intro w _ _
      exact .inr (.inl (Option.some_ne_none t))

/-- A waiter that was told of a change looks at the gate again, and one that was not had a reason to
sleep all along. -/
theorem rest (attentive : r.Attentive) (stepped : r.step (.rest t) = some r') : r'.Attentive := by
  obtain ⟨told, waits, rfl⟩ := step_eq_some stepped
  refine attentive.setStage waits fun unaware => ?_
  cases told with
  | true => cases unaware
  | false => exact attentive.unaware _ (mem_of_stage? waits) rfl

/-- What changes the gate will be announced. -/
theorem drop {h : Handle} (attentive : r.Attentive) (stepped : r.step (.drop h) = some r') :
    r'.Attentive := by
  obtain ⟨custody, dropped, rfl⟩ := step_eq_some stepped
  have sound := attentive.sound.step dropped
  obtain ⟨mem, rfl⟩ := Custody.step_eq_some dropped
  constructor
  · exact sound
  · intro w waiting
    obtain ⟨waiting, other⟩ := List.mem_filter.mp waiting
    refine (List.mem_erase_of_ne ?_).mpr (attentive.waiting w waiting)
    rintro rfl
    simp [Handle.number] at other
  · intro w waiting unaware
    obtain ⟨waiting, -⟩ := List.mem_filter.mp waiting
    have reason := attentive.unaware w waiting unaware
    rcases h with ⟨u, _ | _⟩ | u
    · exact .inl (Nat.succ_pos _)
    · exact reason
    · exact .inl (Nat.succ_pos _)

/-- Nobody who has asked sleeps through an announcement. -/
theorem announce (attentive : r.Attentive) (stepped : r.step .announce = some r') :
    r'.Attentive := by
  obtain ⟨n, -, rfl⟩ := step_eq_some stepped
  constructor
  · exact attentive.sound
  · intro w mem
    obtain ⟨u, waiting, rfl⟩ := List.mem_map.mp mem
    exact attentive.waiting u waiting
  · intro w mem unaware
    obtain ⟨⟨u, stage⟩, -, rfl⟩ := List.mem_map.mp mem
    cases stage <;> cases unaware

/-- One step, by its kind. -/
theorem step (attentive : r.Attentive) (stepped : r.step l = some r') : r'.Attentive := by
  cases l with
  | draw => exact attentive.draw stepped
  | wait t => exact attentive.wait stepped
  | listen t => exact attentive.listen stepped
  | attempt t => exact attentive.attempt stepped
  | rest t => exact attentive.rest stepped
  | drop h => exact attentive.drop stepped
  | announce => exact attentive.announce stepped

/-- A whole run; the induction is on its steps. -/
theorem run {ls : List Label} (attentive : r.Attentive) (ran : r.run ls = some r') :
    r'.Attentive := by
  induction ls generalizing r with
  | nil =>
    obtain rfl : r = r' := by simpa [WaitingRoom.run] using ran
    exact attentive
  | cons l ls ih =>
    simp only [WaitingRoom.run, Option.bind_eq_bind, Option.bind_eq_some_iff] at ran
    obtain ⟨mid, stepped, ran⟩ := ran
    exact ih (attentive.step stepped) ran

/-! ### Getting in -/

section FrontWaiter

variable (free : r.gate.holder = none) (front : r.gate.queue.head? = some t)
include free front

/-- A waiter that has asked is admitted by its next try. -/
theorem enters (attentive : r.Attentive) {told : Bool}
    (waits : r.stage? t = some (.listening told)) :
    ∃ r', r.run [.attempt t] = some r' ∧ r'.gate.holder = some t := by
  have owned := attentive.waiting (t, .listening told) (mem_of_stage? waits)
  obtain ⟨custody, tried, held⟩ := Custody.exists_attempt owned free front
  have admitted := (Custody.enter?_isSome_iff r.gate t).mpr ⟨free, front⟩
  refine ⟨{ r.remove t with custody }, ?_, held⟩
  simp [WaitingRoom.run, WaitingRoom.step, waits, tried, admitted]

/-- A waiter that has yet to ask is admitted when it has asked. -/
theorem enters_of_ready (attentive : r.Attentive) (waits : r.stage? t = some .ready) :
    ∃ r', r.run [.listen t, .attempt t] = some r' ∧ r'.gate.holder = some t := by
  have asked : r.step (.listen t) = some (r.setStage t (.listening false)) := by
    simp [WaitingRoom.step, waits]
  obtain ⟨r', ran, held⟩ :=
    enters (r := r.setStage t (.listening false)) free front (attentive.step asked)
      (stage?_setStage waits)
  refine ⟨r', ?_, held⟩
  rw [WaitingRoom.run, asked]
  exact ran

/-- A waiter that was refused, and told of a change meanwhile, is admitted when it has asked
again. -/
theorem enters_of_refused (attentive : r.Attentive) (waits : r.stage? t = some (.refused true)) :
    ∃ r', r.run [.rest t, .listen t, .attempt t] = some r' ∧ r'.gate.holder = some t := by
  have went : r.step (.rest t) = some (r.setStage t .ready) := by
    simp [WaitingRoom.step, waits]
  obtain ⟨r', ran, held⟩ :=
    enters_of_ready (r := r.setStage t .ready) free front (attentive.step went)
      (stage?_setStage waits)
  refine ⟨r', ?_, held⟩
  rw [WaitingRoom.run, went]
  exact ran

/-- Whoever will look at the gate again gets in by its own steps. -/
theorem enters_of_aware (attentive : r.Attentive) (waits : r.stage? t = some s)
    (aware : s.isUnaware = false) :
    ∃ steps r', steps ⊆ [.listen t, .attempt t, .rest t] ∧ r.run steps = some r' ∧
      r'.gate.holder = some t := by
  cases s with
  | ready =>
    obtain ⟨r', entered, held⟩ := enters_of_ready free front attentive waits
    exact ⟨_, r', by simp, entered, held⟩
  | listening told =>
    obtain ⟨r', entered, held⟩ := enters free front attentive waits
    exact ⟨_, r', by simp, entered, held⟩
  | refused told =>
    cases told with
    | false => cases aware
    | true =>
      obtain ⟨r', entered, held⟩ := enters_of_refused free front attentive waits
      exact ⟨_, r', by simp, entered, held⟩
  | asleep => cases aware

end FrontWaiter

/-- Once all changes are announced, the first in the queue of a free gate looks at the gate again. -/
theorem isUnaware_front (attentive : r.Attentive) (announced : r.unannounced = 0)
    (free : r.gate.holder = none) (front : r.gate.queue.head? = some t)
    (waits : r.stage? t = some s) : s.isUnaware = false := by
  by_contra unaware
  have sleeps : s.isUnaware = true := by simpa using unaware
  rcases attentive.unaware (t, s) (mem_of_stage? waits) sleeps with pending | held | behind
  · omega
  · exact held free
  · exact behind front

end Attentive

/-- Nothing happens of itself: there is no change to announce, and no waiter goes on. -/
def IsQuiescent (r : WaitingRoom) : Prop :=
  r.step .announce = none ∧
    ∀ t, r.step (.listen t) = none ∧ r.step (.attempt t) = none ∧ r.step (.rest t) = none

theorem IsQuiescent.unannounced_eq_zero (quiescent : r.IsQuiescent) : r.unannounced = 0 := by
  by_contra pending
  obtain ⟨n, unannounced⟩ := Nat.exists_eq_succ_of_ne_zero pending
  simp [IsQuiescent, step, unannounced] at quiescent

/-- Where nothing happens of itself, a waiter's own steps lead nowhere. -/
theorem IsQuiescent.eq_of_run (quiescent : r.IsQuiescent) {steps : List Label}
    (own : steps ⊆ [.listen t, .attempt t, .rest t]) (ran : r.run steps = some r') : r' = r := by
  cases steps with
  | nil => simpa [run, eq_comm] using ran
  | cons l steps =>
    obtain ⟨listens, tries, rests⟩ := quiescent.2 t
    have first := own List.mem_cons_self
    simp only [List.mem_cons, List.not_mem_nil, or_false] at first
    rcases first with rfl | rfl | rfl <;> simp [run, listens, tries, rests] at ran

/-- **No wakeup is lost.** Whenever all changes are announced and the gate is free, whoever waits
with the first ticket of the queue neither sleeps nor is about to, and gets in by its own steps. So
where nothing happens of itself and the gate is free, nobody waits with the first ticket. -/
theorem front_waiter_awake {ls : List Label} (ran : ({} : WaitingRoom).run ls = some r)
    (free : r.gate.holder = none) (front : r.gate.queue.head? = some t) :
    (r.unannounced = 0 → ∀ s, r.stage? t = some s → s ≠ .asleep ∧ s ≠ .refused false ∧
        ∃ steps r', steps ⊆ [.listen t, .attempt t, .rest t] ∧ r.run steps = some r' ∧
          r'.gate.holder = some t) ∧
      (r.IsQuiescent → r.stage? t = none) := by
  have attentive := attentive_new.run ran
  refine ⟨?_, ?_⟩
  · intro announced s waits
    have aware := attentive.isUnaware_front announced free front waits
    refine ⟨?_, ?_, attentive.enters_of_aware free front waits aware⟩
    · rintro rfl
      cases aware
    · rintro rfl
      cases aware
  · intro quiescent
    cases waits : r.stage? t with
    | none => rfl
    | some s =>
      have aware := attentive.isUnaware_front quiescent.unannounced_eq_zero free front waits
      obtain ⟨steps, r', own, entered, held⟩ :=
        attentive.enters_of_aware free front waits aware
      rw [quiescent.eq_of_run own entered, free] at held
      cases held

/-- The second of two participants tries in vain, and the gate is given back before it sleeps. It
sleeps, is told of the change, and does not sleep any more: it gets in. -/
theorem front_waiter_awake_after_release :
    let ls : List Label :=
      [.draw, .draw, .wait 0, .listen 0, .attempt 0, .wait 1, .listen 1, .attempt 1,
        .drop (.guard 0), .rest 1, .announce]
    ∃ r, ({} : WaitingRoom).run ls = some r ∧ r.gate.holder = none ∧
      r.gate.queue.head? = some 1 ∧ r.unannounced = 0 ∧ r.stage? 1 = some .ready ∧
      ∃ steps r', r.run steps = some r' ∧ r'.gate.holder = some 1 := by
  intro ls
  have ends : (({} : WaitingRoom).run ls).map (fun r =>
      (r.gate.holder, r.gate.queue.head?, r.unannounced, r.stage? 1)) =
        some (none, some 1, 0, some .ready) := by
    decide
  obtain ⟨r, ran, ends⟩ := Option.map_eq_some_iff.mp ends
  simp only [Prod.mk.injEq] at ends
  obtain ⟨free, front, announced, waits⟩ := ends
  obtain ⟨awake, -⟩ := front_waiter_awake ran free front
  obtain ⟨-, -, steps, r', -, entered, held⟩ := awake announced _ waits
  exact ⟨r, ran, free, front, announced, waits, steps, r', entered, held⟩

end WaitingRoom

end LispBridge
