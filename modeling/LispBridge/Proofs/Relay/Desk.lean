import LispBridge.Proofs.Relay.Lock
import LispBridge.Relay.Desk

/-!
The steps of those who use a relay.

* `Desk.Change`: the steps, one rule for each (`Desk.change_of_step`, `Desk.Change.step_eq`).
* `Desk.Ordered`: what was sent is what was taken, in this order, and then what is queued.
* `Desk.Exclusive`: one use at a time has begun.
* `Desk.run_looks`, `Desk.run_to_end`: what a use can do by looking alone.
-/

namespace LispBridge

variable {α : Type}

/-! ### The log -/

namespace RelayEvent

variable {log log' : List (RelayEvent α)} {e : RelayEvent α}

attribute [simp] sent? taken? message?

@[simp] theorem sentIn_nil : sentIn ([] : List (RelayEvent α)) = [] := rfl

@[simp] theorem takenIn_nil : takenIn ([] : List (RelayEvent α)) = [] := rfl

@[simp] theorem messagesIn_nil : messagesIn ([] : List (RelayEvent α)) = [] := rfl

@[simp] theorem sentIn_cons : sentIn (e :: log) = e.sent?.toList ++ sentIn log := by
  cases e <;> rfl

@[simp] theorem takenIn_cons : takenIn (e :: log) = e.taken?.toList ++ takenIn log := by
  cases e <;> rfl

@[simp] theorem messagesIn_cons : messagesIn (e :: log) = e.message?.toList ++ messagesIn log := by
  cases e with
  | taken c fate => cases fate <;> rfl
  | _ => rfl

@[simp] theorem sentIn_append : sentIn (log ++ log') = sentIn log ++ sentIn log' :=
  List.filterMap_append

@[simp] theorem takenIn_append : takenIn (log ++ log') = takenIn log ++ takenIn log' :=
  List.filterMap_append

@[simp] theorem messagesIn_append : messagesIn (log ++ log') = messagesIn log ++ messagesIn log' :=
  List.filterMap_append

theorem eq_of_mem_takenIn {c : Chunk} {fate : Fate} (mem : (c, fate) ∈ takenIn [e]) :
    e = .taken c fate := by
  cases e with
  | taken => simpa [eq_comm] using mem
  | _ => simp at mem

/-- Whatever is taken while output is forwarded is forwarded. -/
theorem fate_of_forwarding (forwarding : ∀ e ∈ log, e.isForwarding) :
    ∀ x ∈ takenIn log, x.2 = .forwarded := by
  intro x mem
  obtain ⟨e, inside, taken⟩ := List.mem_filterMap.mp mem
  have allowed := forwarding e inside
  cases e with
  | taken c fate =>
    cases taken
    cases fate with
    | forwarded => rfl
    | dropped => cases allowed
  | _ => cases taken

end RelayEvent

open RelayEvent

/-- An element of a list to which one was added at the end is that one, or was there before. -/
theorem split_concat {β : Type} {log before after : List β} {e x : β}
    (split : log ++ [e] = before ++ x :: after) :
    (∃ after', after = after' ++ [e] ∧ log = before ++ x :: after') ∨
      after = [] ∧ before = log ∧ x = e := by
  obtain rfl | ⟨after', y, rfl⟩ := List.eq_nil_or_concat after
  · obtain ⟨rfl, same⟩ := List.append_inj' split rfl
    exact .inr ⟨rfl, rfl, by simpa using same.symm⟩
  · have assoc : log ++ [e] = (before ++ x :: after') ++ [y] := by simp [split]
    obtain ⟨rfl, same⟩ := List.append_inj' assoc rfl
    exact .inl ⟨after', by simpa using same.symm, rfl⟩

/-! ### Stages -/

namespace RelayStage

variable {stage after : RelayStage α} {fate : Fate}

/-- A stage in which so many more chunks were found. -/
def found (n : Nat) : RelayStage α → RelayStage α
  | flushing m => flushing (m + n)
  | discarding m => discarding (m + n)
  | stage => stage

@[simp] theorem found_zero : stage.found 0 = stage := by
  cases stage <;> rfl

theorem found_found (m n : Nat) : (stage.found m).found n = stage.found (m + n) := by
  cases stage <;> simp [found, Nat.add_assoc]

theorem ne_waiting_of_onChunk (found : stage.onChunk = some (after, fate)) : stage ≠ .waiting := by
  rintro rfl
  cases found

theorem ne_waiting_of_onEmpty (missed : stage.onEmpty = some after) : stage ≠ .waiting := by
  rintro rfl
  cases missed

/-- Whether a stage is the one in which a use of some kind begins. -/
def begins (use : RelayUse) (stage : RelayStage α) : Prop :=
  match use, stage with
  | .drive, opening | .flush, flushing _ | .discard, discarding _ => True
  | _, _ => False

theorem begins_first (use : RelayUse) : (first use : RelayStage α).begins use := by
  cases use <;> trivial

theorem begins_only {use : RelayUse} (begins : stage.begins use) :
    stage ≠ .waiting ∧ stage ≠ .working ∧ ∀ answer, stage ≠ .leaving answer := by
  cases use <;> cases stage <;> cases begins <;> simp

/-- A use goes on as it began while it finds chunks, and a discard drops them. -/
theorem begins_onChunk {use : RelayUse} (begins : stage.begins use)
    (found : stage.onChunk = some (after, fate)) :
    after.begins use ∧ (use = .discard → fate = .dropped) := by
  cases use <;> cases stage <;> cases begins
  all_goals
    cases found
    exact ⟨trivial, by simp⟩

end RelayStage

open RelayStage

/-! ### Steps -/

namespace Desk

variable {d d' : Desk α} {l : Label α} {ls : List (Label α)} {id : Nat} {stage : RelayStage α}

attribute [simp] move note

/-- What the steps of a desk do. -/
inductive Change (d : Desk α) : Label α → Desk α → Prop where
  | send {c : Chunk} : d.relay.isOpen →
      Change d (.send c) ({ d with relay.queue := d.relay.queue ++ [c] }.note (.sent c))
  | close : Change d .close { d with relay := d.relay.close }
  | queue {r : Response} :
      Change d (.queue r) ({ d with outbox := d.outbox ++ [r] }.note (.queued r))
  | ask {id : Nat} : d.stage id = none →
      Change d (.ask id) ({ d with lock := d.lock.join id }.move id (some .waiting))
  | begin {id : Nat} {use : RelayUse} : d.stage id = some .waiting → d.lock.holder = some id →
      Change d (.begin id use) ((d.move id (some (.first use))).note (.began id use))
  /-- The first chunk is taken. -/
  | take {id : Nat} {stage stage' : RelayStage α} {c : Chunk} {cs : List Chunk} {fate : Fate} :
      d.stage id = some stage → d.relay.queue = c :: cs → stage.onChunk = some (stage', fate) →
      Change d (.look id) ((d.take c { d.relay with queue := cs } fate).move id (some stage'))
  /-- Nothing is there to be taken. -/
  | miss {id : Nat} {stage stage' : RelayStage α} :
      d.stage id = some stage → d.relay.queue = [] → stage.onEmpty = some stage' →
      Change d (.look id) (d.move id (some stage'))
  | finish {id : Nat} {v : α} : d.stage id = some .working →
      Change d (.finish id v) ((d.move id (some (.closing v))).note (.finished id v))
  | leave {id : Nat} {answer : RelayAnswer α} : d.stage id = some (.leaving answer) →
      Change d (.leave id)
        (({ d with lock := d.lock.leave id }.move id none).note (.returned id answer))
  | cancel {id : Nat} {stage : RelayStage α} :
      d.stage id = some stage → stage = .waiting ∨ stage = .working →
      Change d (.cancel id) ({ d with lock := d.lock.leave id }.move id none)

/-- After a move, the stage is that of the one who moved, or another's as before. -/
theorem stage_move {mover : Nat} {after : Option (RelayStage α)}
    (now : (d.move mover after).stage id = some stage) :
    id = mover ∧ after = some stage ∨ id ≠ mover ∧ d.stage id = some stage := by
  by_cases same : id = mover
  · subst same
    exact .inl ⟨rfl, by simpa using now⟩
  · exact .inr ⟨same, by simpa [same] using now⟩

/-- What is taken leaves the queue, and is queued for the editor if it is forwarded. -/
theorem take_eq (d : Desk α) (c : Chunk) (relay : Relay) (fate : Fate) :
    d.take c relay fate =
      { d with
        relay
        outbox := d.outbox ++ (RelayEvent.taken (α := α) c fate).message?.toList
        log := d.log ++ [.taken c fate] } := by
  cases fate with
  | forwarded => rfl
  | dropped => simp [take]

theorem Change.of_look (looked : d.look id stage = some d') (now : d.stage id = some stage) :
    Change d (.look id) d' := by
  unfold look at looked
  cases queue : d.relay.queue with
  | nil =>
    simp only [Relay.next?, queue, Option.bind_eq_bind, Option.bind_eq_some_iff] at looked
    obtain ⟨stage', found, same⟩ := looked
    obtain rfl := Option.some.inj same
    exact .miss now queue found
  | cons c cs =>
    simp only [Relay.next?, queue, Option.bind_eq_bind, Option.bind_eq_some_iff] at looked
    obtain ⟨⟨stage', fate⟩, found, same⟩ := looked
    obtain rfl := Option.some.inj same
    exact .take now queue found

/-- Every step is one of these. -/
theorem change_of_step (stepped : d.step l = some d') : Change d l d' := by
  cases l with
  | send c =>
    simp only [step] at stepped
    split at stepped
    · next isOpen =>
      cases stepped
      simpa [Relay.print, isOpen] using Change.send (c := c) isOpen
    · cases stepped
  | close => cases stepped; exact .close
  | queue r => cases stepped; exact .queue
  | ask id =>
    simp only [step] at stepped
    split at stepped
    · next idle => cases stepped; exact .ask idle
    · cases stepped
  | begin id use =>
    simp only [step] at stepped
    split at stepped
    · next waits =>
      split at stepped
      · next holds => cases stepped; exact .begin waits holds
      · cases stepped
    · cases stepped
  | look id =>
    obtain ⟨stage, now, looked⟩ := Option.bind_eq_some_iff.mp stepped
    exact .of_look looked now
  | finish id v =>
    simp only [step] at stepped
    split at stepped
    · next works => cases stepped; exact .finish works
    · cases stepped
  | leave id =>
    simp only [step] at stepped
    split at stepped
    · next leaves => cases stepped; exact .leave leaves
    · cases stepped
  | cancel id =>
    simp only [step] at stepped
    split at stepped
    · next waits => cases stepped; exact .cancel waits (.inl rfl)
    · next works => cases stepped; exact .cancel works (.inr rfl)
    · cases stepped

/-- Each of them can happen. -/
theorem Change.step_eq (change : Change d l d') : d.step l = some d' := by
  cases change with
  | send isOpen => simp [step, Relay.print, isOpen]
  | close | queue => rfl
  | ask idle => simp [step, idle]
  | begin waits holds => simp [step, waits, holds]
  | take now queue found => simp [step, look, now, Relay.next?, queue, found]
  | miss now empty missed => simp [step, look, now, Relay.next?, empty, missed]
  | finish works => simp [step, works]
  | leave leaves => simp [step, leaves]
  | cancel now gives =>
    rcases gives with rfl | rfl
    all_goals simp [step, now]

theorem Change.run_eq (change : Change d l d') : d.run [l] = some d' := by
  simp [run, change.step_eq]

/-- What holds of a new desk and is kept by every step holds after any run. -/
theorem invariant_of_run {I : Desk α → Prop} (kept : ∀ {d l d'}, I d → Change d l d' → I d')
    (start : I d) (ran : d.run ls = some d') : I d' := by
  induction ls generalizing d with
  | nil => exact Option.some.inj ran ▸ start
  | cons l ls ih =>
    obtain ⟨middle, stepped, rest⟩ := Option.bind_eq_some_iff.mp ran
    exact ih (kept start (change_of_step stepped)) rest

/-! ### The chunks -/

/-- What was sent is what was taken, in the same order, and what is queued; the messages are those
of the log. -/
structure Ordered (d : Desk α) : Prop where
  sent : sentIn d.log = (takenIn d.log).map Prod.fst ++ d.relay.queue
  outbox : d.outbox = messagesIn d.log

theorem Ordered.step (ordered : d.Ordered) (change : Change d l d') : d'.Ordered := by
  obtain ⟨sent, outbox⟩ := ordered
  cases change with
  | take _ queue _ =>
    rw [take_eq]
    exact ⟨by simp [sent, queue], by simp [outbox]⟩
  | _ => exact ⟨by simp [sent, Relay.close], by simp [outbox]⟩

/-- Once nothing is queued, everything that was sent has been taken. -/
theorem Ordered.length_of_empty (ordered : d.Ordered) (empty : d.relay.queue = []) :
    (sentIn d.log).length = (takenIn d.log).length := by
  rw [ordered.sent, empty, List.append_nil, List.length_map]

/-! ### The lock -/

/-- Whoever has begun to use the relay holds its lock. -/
def Exclusive (d : Desk α) : Prop :=
  ∀ id stage, d.stage id = some stage → stage ≠ .waiting → d.lock.holder = some id

/-- While one has the lock, all others wait. -/
theorem Exclusive.waits (exclusive : d.Exclusive) {holder : Nat}
    (held : d.lock.holder = some holder) (now : d.stage id = some stage) (other : id ≠ holder) :
    stage = .waiting := by
  by_contra begun
  have same := (exclusive id stage now begun).symm.trans held
  exact other (Option.some.inj same)

theorem Exclusive.step (exclusive : d.Exclusive) (change : Change d l d') : d'.Exclusive := by
  intro id stage now begun
  cases change with
  | send | close | queue => exact exclusive id stage now begun
  | @ask asker idle =>
    obtain ⟨rfl, same⟩ | ⟨other, now⟩ := stage_move now
    · exact absurd (Option.some.inj same).symm begun
    · exact Lock.holder_join (exclusive id stage now begun)
  | @begin user use _ holds =>
    obtain ⟨rfl, -⟩ | ⟨other, now⟩ := stage_move now
    · exact holds
    · exact exclusive id stage now begun
  | @take user before after _ _ _ was _ found =>
    rw [take_eq] at now ⊢
    obtain ⟨rfl, -⟩ | ⟨other, now⟩ := stage_move now
    · exact exclusive id before was (ne_waiting_of_onChunk found)
    · exact exclusive id stage now begun
  | @miss user before _ was _ found =>
    obtain ⟨rfl, -⟩ | ⟨other, now⟩ := stage_move now
    · exact exclusive id before was (ne_waiting_of_onEmpty found)
    · exact exclusive id stage now begun
  | @finish user _ works =>
    obtain ⟨rfl, -⟩ | ⟨other, now⟩ := stage_move now
    · exact exclusive id .working works nofun
    · exact exclusive id stage now begun
  | @leave user answer leaves =>
    obtain ⟨rfl, gone⟩ | ⟨other, now⟩ := stage_move now
    · cases gone
    · have held := exclusive user _ leaves nofun
      exact absurd (exclusive.waits held now other) begun
  | @cancel user _ _ _ =>
    obtain ⟨rfl, gone⟩ | ⟨other, now⟩ := stage_move now
    · cases gone
    · exact Lock.holder_leave (exclusive id stage now begun) (Ne.symm other)

/-- Whoever takes part in the lock uses the relay, and takes part once. -/
structure Attended (d : Desk α) : Prop where
  once : d.lock.members.Nodup
  known : ∀ id, d.lock.Involves id → d.stage id ≠ none

theorem Attended.new : ({} : Desk α).Attended :=
  ⟨List.nodup_nil, by simp [Lock.Involves]⟩

/-- Somebody goes on to another stage. -/
theorem Attended.move {after : RelayStage α} (attended : d.Attended) (lock : d'.lock = d.lock)
    (stage : d'.stage = Function.update d.stage id (some after)) : d'.Attended where
  once := lock ▸ attended.once
  known other involved := by
    rw [lock] at involved
    by_cases same : other = id
    · simp [stage, same]
    · simpa [stage, same] using attended.known other involved

/-- Somebody gives back the lock, or gives it up. -/
theorem Attended.leave (attended : d.Attended) (lock : d'.lock = d.lock.leave id)
    (stage : d'.stage = Function.update d.stage id none) : d'.Attended where
  once := lock ▸ Lock.nodup_members_leave attended.once
  known other involved := by
    rw [lock] at involved
    have apart : other ≠ id := by
      rintro rfl
      exact Lock.not_involves_leave attended.once involved
    simpa [stage, apart] using attended.known other involved.of_leave

theorem Attended.step (attended : d.Attended) (change : Change d l d') : d'.Attended := by
  cases change with
  | send | close | queue => exact ⟨attended.once, attended.known⟩
  | @ask asker idle =>
    have outside : ¬ d.lock.Involves asker := fun involved => attended.known asker involved idle
    refine ⟨Lock.nodup_members_join attended.once outside, fun other involved => ?_⟩
    by_cases same : other = asker
    · simp [same]
    · simpa [same] using attended.known other (involved.of_join.resolve_right same)
  | begin | miss | finish => exact attended.move rfl rfl
  | take =>
    rw [take_eq]
    exact attended.move rfl rfl
  | leave | cancel => exact attended.leave rfl rfl

/-! ### What a use can do alone -/

/-- The chunks that a use forwards if it takes them to some end. -/
def forwardedOf (fate : Fate) (cs : List Chunk) : List Chunk :=
  match fate with
  | .forwarded => cs
  | .dropped => []

theorem messagesIn_taken (fate : Fate) (cs : List Chunk) :
    messagesIn (cs.map (taken (α := α) · fate)) = (forwardedOf fate cs).map Chunk.response := by
  cases fate <;> induction cs <;> simp_all [forwardedOf]

/-- A desk whose queue was taken as a whole. -/
def clear (d : Desk α) (fate : Fate) : Desk α :=
  { d with
    relay.queue := []
    outbox := d.outbox ++ messagesIn (d.relay.queue.map (taken (α := α) · fate))
    log := d.log ++ d.relay.queue.map (.taken · fate) }

theorem run_append (d : Desk α) (ls ls' : List (Label α)) :
    d.run (ls ++ ls') = (d.run ls).bind (run · ls') := by
  induction ls generalizing d with
  | nil => rfl
  | cons l ls ih =>
    cases stepped : d.step l with
    | none => simp [run, stepped]
    | some middle => simp [run, stepped, ih]

theorem clear_of_empty {fate : Fate} (empty : d.relay.queue = []) : d.clear fate = d := by
  obtain ⟨⟨queue, isOpen⟩, lock, stages, outbox, log⟩ := d
  obtain rfl : queue = [] := empty
  simp [clear]

/-- A queue is taken as a whole by taking its first chunk and then the others. -/
theorem clear_take {fate : Fate} {c : Chunk} {cs : List Chunk} (queue : d.relay.queue = c :: cs) :
    (d.take c { d.relay with queue := cs } fate).clear fate = d.clear fate := by
  rw [take_eq]
  simp [clear, queue]

/-- Looking once for each chunk takes them all. The induction is on the queue, from its front. -/
theorem run_looks {fate : Fate} (now : d.stage id = some stage)
    (takes : ∀ n, (stage.found n).onChunk = some (stage.found (n + 1), fate)) :
    d.run (List.replicate d.relay.queue.length (.look id)) =
      some ((d.clear fate).move id (some (stage.found d.relay.queue.length))) := by
  induction queue : d.relay.queue generalizing d stage with
  | nil =>
    have stays : d.move id (some (stage.found 0)) = d := by
      simp [← now]
    rw [clear_of_empty queue, List.length_nil, stays]
    rfl
  | cons c cs ih =>
    have found : stage.onChunk = some (stage.found 1, fate) := by simpa using takes 0
    have stepped := (Change.take now queue found).step_eq
    have next (n : Nat) : ((stage.found 1).found n).onChunk =
        some ((stage.found 1).found (n + 1), fate) := by
      simpa only [found_found, Nat.add_comm 1, Nat.add_right_comm] using takes (n + 1)
    let rest := (d.take c { d.relay with queue := cs } fate).move id (some (stage.found 1))
    have all : (rest.clear fate).move id (some ((stage.found 1).found cs.length)) =
        (d.clear fate).move id (some (stage.found (cs.length + 1))) := by
      rw [found_found, Nat.add_comm 1, ← clear_take queue]
      simp [rest, clear]
    calc d.run (List.replicate (cs.length + 1) (.look id))
        = rest.run (List.replicate cs.length (.look id)) := by
          rw [List.replicate_succ, run, stepped]
          rfl
      _ = some ((rest.clear fate).move id (some ((stage.found 1).found cs.length))) :=
          ih (by simp [rest]) next (by simp [rest, take_eq])
      _ = _ := congrArg some all

/-- A look that finds the queue empty after that ends the stage. -/
theorem run_to_empty {fate : Fate} {after : RelayStage α} (now : d.stage id = some stage)
    (takes : ∀ n, (stage.found n).onChunk = some (stage.found (n + 1), fate))
    (ends : (stage.found d.relay.queue.length).onEmpty = some after) :
    d.run (List.replicate (d.relay.queue.length + 1) (.look id)) =
      some ((d.clear fate).move id (some after)) := by
  let last := (d.clear fate).move id (some (stage.found d.relay.queue.length))
  have missed : Change last (.look id) (last.move id (some after)) :=
    .miss (by simp [last]) rfl ends
  rw [List.replicate_succ', run_append, run_looks now takes, Option.bind_some]
  show last.run [.look id] = _
  rw [missed.run_eq]
  simp [last]

/-- A use that has nothing to wait for takes the rest of the queue and returns. -/
theorem run_to_end {fate : Fate} {answer : RelayAnswer α} (now : d.stage id = some stage)
    (takes : ∀ n, (stage.found n).onChunk = some (stage.found (n + 1), fate))
    (ends : (stage.found d.relay.queue.length).onEmpty = some (.leaving answer)) :
    d.run (List.replicate (d.relay.queue.length + 1) (.look id) ++ [.leave id]) =
      some (({ d.clear fate with lock := d.lock.leave id }.move id none).note
        (.returned id answer)) := by
  let last := (d.clear fate).move id (some (.leaving answer))
  have leaves : last.stage id = some (.leaving answer) := by simp [last]
  have left : Change last (.leave id) _ := .leave leaves
  rw [run_append, run_to_empty now takes ends, Option.bind_some]
  show last.run [.leave id] = _
  rw [left.run_eq]
  simp [last, clear]

/-! ### What a user can do -/

/-- A step of one who uses the relay, or a message that it queues. -/
def Label.IsOf (id : Nat) : Label α → Prop
  | .queue _ => True
  | .ask user | .begin user _ | .look user | .finish user _ | .leave user | .cancel user =>
    user = id
  | .send _ | .close => False

/-- Whether one who uses the relay can bring a desk to another state. -/
def Leads (d : Desk α) (id : Nat) (d' : Desk α) : Prop :=
  ∃ ls, d.run ls = some d' ∧ ∀ l ∈ ls, l.IsOf id

/-- A step of a user concerns nobody else. -/
theorem Change.elsewhere (change : Change d l d') (isOf : l.IsOf id) :
    sentIn d'.log = sentIn d.log ∧ d'.relay.isOpen = d.relay.isOpen ∧
      ∀ other, other ≠ id → d'.stage other = d.stage other := by
  cases change with
  | send | close => cases isOf
  | queue => exact ⟨by simp, rfl, fun _ _ => rfl⟩
  | take =>
    obtain rfl := isOf
    rw [take_eq]
    exact ⟨by simp, rfl, fun other apart => by simp [apart]⟩
  | _ =>
    obtain rfl := isOf
    exact ⟨by simp, rfl, fun other apart => by simp [apart]⟩

namespace Leads

variable {d'' : Desk α}

theorem refl : d.Leads id d :=
  ⟨[], rfl, by simp⟩

theorem trans (first : d.Leads id d') (rest : d'.Leads id d'') : d.Leads id d'' := by
  obtain ⟨ls, ran, isOf⟩ := first
  obtain ⟨ls', ran', isOf'⟩ := rest
  exact ⟨ls ++ ls', by rw [run_append, ran, Option.bind_some, ran'],
    List.forall_mem_append.mpr ⟨isOf, isOf'⟩⟩

theorem step (change : Change d l d') (isOf : l.IsOf id) : d.Leads id d' :=
  ⟨[l], change.run_eq, List.forall_mem_singleton.mpr isOf⟩

/-- Messages are queued one after another. -/
theorem queue (rs : List Response) :
    d.Leads id { d with outbox := d.outbox ++ rs, log := d.log ++ rs.map .queued } := by
  induction rs generalizing d with
  | nil => simpa using refl
  | cons r rs ih =>
    have first : d.Leads id _ := step (.queue (r := r)) trivial
    simpa using first.trans ih

/-- A use looks at the queue until it has taken all of it. -/
theorem clear {fate : Fate} {after : RelayStage α} (now : d.stage id = some stage)
    (takes : ∀ n, (stage.found n).onChunk = some (stage.found (n + 1), fate))
    (ends : (stage.found d.relay.queue.length).onEmpty = some after) :
    d.Leads id ((d.clear fate).move id (some after)) := by
  refine ⟨_, run_to_empty now takes ends, fun l mem => ?_⟩
  rw [List.eq_of_mem_replicate mem]
  rfl

/-- A user neither prints nor ends the output, and others stay where they are. -/
theorem elsewhere (leads : d.Leads id d') :
    sentIn d'.log = sentIn d.log ∧ d'.relay.isOpen = d.relay.isOpen ∧
      ∀ other, other ≠ id → d'.stage other = d.stage other := by
  obtain ⟨ls, ran, isOf⟩ := leads
  induction ls generalizing d with
  | nil =>
    cases ran
    exact ⟨rfl, rfl, fun _ _ => rfl⟩
  | cons l ls ih =>
    obtain ⟨middle, stepped, rest⟩ := Option.bind_eq_some_iff.mp ran
    obtain ⟨first, others⟩ := List.forall_mem_cons.mp isOf
    obtain ⟨sent, isOpen, stage⟩ := ih rest others
    obtain ⟨sent', isOpen', stage'⟩ := (change_of_step stepped).elsewhere first
    exact ⟨sent.trans sent', isOpen.trans isOpen',
      fun other apart => (stage other apart).trans (stage' other apart)⟩

theorem attended (leads : d.Leads id d') (attended : d.Attended) : d'.Attended := by
  obtain ⟨ls, ran, -⟩ := leads
  exact invariant_of_run Attended.step attended ran

end Leads

end Desk

end LispBridge
