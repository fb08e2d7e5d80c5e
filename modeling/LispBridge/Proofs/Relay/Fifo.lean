import LispBridge.Proofs.Relay.Desk

/-!
A relay is first in, first out, whoever uses it and in whatever order.

* `Desk.Tells`: what the log tells of a drive, from its beginning to its return.
* `Desk.Cleared`: what was sent before a use began is taken first.
* `Desk.first_in_first_out`: what holds at any time of any run.
-/

namespace LispBridge

open RelayEvent RelayStage

variable {α : Type}

namespace Desk

variable {d d' : Desk α} {l : Label α} {ls : List (Label α)} {id : Nat} {stage : RelayStage α}

/-! ### The course of a drive -/

/-- The log of a drive whose work is not done. -/
structure Works (id : Nat) (start work log : List (RelayEvent α)) : Prop where
  split : log = start ++ .began id .drive :: work
  forwarding : ∀ e ∈ work, e.isForwarding

/-- The log of a drive whose work has come to a value. -/
structure Worked (id : Nat) (v : α) (start work rest log : List (RelayEvent α)) : Prop where
  split : log = start ++ .began id .drive :: (work ++ .finished id v :: rest)
  forwarding : ∀ e ∈ work ++ rest, e.isForwarding

/-- What the log tells of the use that has come to a stage: of a drive, that it began, that output
was forwarded and nothing else came about since then but that its work was done, and that in the end
everything that was sent before that has been taken. -/
def Tells (id : Nat) (log : List (RelayEvent α)) : RelayStage α → Prop
  | .opening | .working => ∃ start work, Works id start work log
  | .closing v => ∃ start work rest, Worked id v start work rest log
  | .leaving (.value v) => ∃ start work rest, Worked id v start work rest log ∧
      (sentIn (start ++ work)).length ≤ (takenIn log).length
  | .waiting | .flushing _ | .discarding _ | .leaving (.count _) => True

section Telling

variable {start work rest log : List (RelayEvent α)} {e : RelayEvent α} {v : α}

theorem Works.concat (works : Works id start work log) (forwarding : e.isForwarding) :
    Works id start (work ++ [e]) (log ++ [e]) where
  split := by simp [works.split]
  forwarding := by
    rw [List.forall_mem_append]
    exact ⟨works.forwarding, List.forall_mem_singleton.mpr forwarding⟩

theorem Worked.concat (worked : Worked id v start work rest log) (forwarding : e.isForwarding) :
    Worked id v start work (rest ++ [e]) (log ++ [e]) where
  split := by simp [worked.split]
  forwarding := by
    rw [← List.append_assoc, List.forall_mem_append]
    exact ⟨worked.forwarding, List.forall_mem_singleton.mpr forwarding⟩

/-- What is forwarded adds nothing to tell. -/
theorem Tells.concat (tells : Tells id log stage) (forwarding : e.isForwarding) :
    Tells id (log ++ [e]) stage := by
  cases stage with
  | opening | working =>
    obtain ⟨start, work, works⟩ := tells
    exact ⟨start, _, works.concat forwarding⟩
  | closing v =>
    obtain ⟨start, work, rest, worked⟩ := tells
    exact ⟨start, work, _, worked.concat forwarding⟩
  | leaving answer =>
    cases answer with
    | value v =>
      obtain ⟨start, work, rest, worked, cleared⟩ := tells
      refine ⟨start, work, _, worked.concat forwarding, Nat.le_trans cleared ?_⟩
      simp
    | count n => trivial
  | waiting | flushing | discarding => trivial

/-- A chunk that is taken is forwarded, unless the use that takes it drops what it finds. -/
theorem Tells.onChunk {after : RelayStage α} {c : Chunk} {fate : Fate} (tells : Tells id log stage)
    (found : stage.onChunk = some (after, fate)) : Tells id (log ++ [.taken c fate]) after := by
  cases stage with
  | opening | working | closing v =>
    cases found
    exact tells.concat rfl
  | flushing n | discarding n =>
    cases found
    trivial
  | waiting | leaving => cases found

/-- Once nothing is queued, everything that was sent before has been taken. -/
theorem Tells.onEmpty {after : RelayStage α} (tells : Tells id log stage)
    (missed : stage.onEmpty = some after) (cleared : (sentIn log).length = (takenIn log).length) :
    Tells id log after := by
  cases stage with
  | opening =>
    cases missed
    exact tells
  | closing v =>
    cases missed
    obtain ⟨start, work, rest, worked⟩ := tells
    refine ⟨start, work, rest, worked, ?_⟩
    rw [← cleared, worked.split]
    simp
  | flushing n | discarding n =>
    cases missed
    trivial
  | waiting | working | leaving => cases missed

end Telling

/-- The log tells of every use how far it has come, and of every drive that it returned the value of
its work. -/
structure Told (d : Desk α) : Prop where
  present : ∀ id stage, d.stage id = some stage → Tells id d.log stage
  past : ∀ l id v rest, d.log = l ++ .returned id (.value v) :: rest →
    Tells id l (.leaving (.value v))

theorem Told.present_step (exclusive : d.Exclusive) (ordered : d.Ordered) (told : d.Told)
    (change : Change d l d') (now : d'.stage id = some stage) : Tells id d'.log stage := by
  have present := told.present
  cases change with
  | send | queue => exact (present id stage now).concat rfl
  | close => exact present id stage now
  | ask =>
    obtain ⟨-, first⟩ | ⟨-, was⟩ := stage_move now
    · cases first
      trivial
    · exact present id stage was
  | @begin user use _ holds =>
    obtain ⟨rfl, first⟩ | ⟨other, was⟩ := stage_move now
    · cases first
      cases use with
      | drive => exact ⟨d.log, [], rfl, List.forall_mem_nil _⟩
      | flush | discard => trivial
    · rw [exclusive.waits holds was other]
      trivial
  | @take user before after _ _ _ was _ found =>
    rw [take_eq] at now ⊢
    obtain ⟨rfl, next⟩ | ⟨other, waited⟩ := stage_move now
    · cases next
      exact (present id before was).onChunk found
    · have holds := exclusive user before was (ne_waiting_of_onChunk found)
      rw [exclusive.waits holds waited other]
      trivial
  | @miss user before after was empty missed =>
    obtain ⟨rfl, next⟩ | ⟨-, was⟩ := stage_move now
    · cases next
      exact (present id before was).onEmpty missed (ordered.length_of_empty empty)
    · exact present id stage was
  | @finish user v works =>
    obtain ⟨rfl, next⟩ | ⟨other, waited⟩ := stage_move now
    · cases next
      obtain ⟨start, work, worked⟩ := present id .working works
      exact ⟨start, work, [], by simp [worked.split], by simpa using worked.forwarding⟩
    · rw [exclusive.waits (exclusive user .working works nofun) waited other]
      trivial
  | @leave user answer leaves =>
    obtain ⟨-, gone⟩ | ⟨other, waited⟩ := stage_move now
    · cases gone
    · rw [exclusive.waits (exclusive user _ leaves nofun) waited other]
      trivial
  | cancel =>
    obtain ⟨-, gone⟩ | ⟨-, was⟩ := stage_move now
    · cases gone
    · exact present id stage was

/-- A step notes at most one event: a beginning or a return when it happens. -/
theorem Change.log (change : Change d l d') :
    d'.log = d.log ∨ ∃ e, d'.log = d.log ++ [e] ∧
      (∀ id use, e = .began id use → d'.stage id = some (.first use)) ∧
      ∀ id answer, e = .returned id answer → d.stage id = some (.leaving answer) := by
  cases change with
  | close | ask | miss | cancel => exact .inl rfl
  | take =>
    rw [take_eq]
    exact .inr ⟨_, rfl, nofun, nofun⟩
  | begin =>
    refine .inr ⟨_, rfl, ?_, nofun⟩
    rintro _ _ ⟨⟩
    simp
  | leave leaves =>
    refine .inr ⟨_, rfl, nofun, ?_⟩
    rintro _ _ ⟨⟩
    exact leaves
  | send | queue | finish => exact .inr ⟨_, rfl, nofun, nofun⟩

theorem Told.step (exclusive : d.Exclusive) (ordered : d.Ordered) (told : d.Told)
    (change : Change d l d') : d'.Told where
  present _ _ := told.present_step exclusive ordered change
  past l id v rest split := by
    obtain same | ⟨e, added, -, returns⟩ := change.log
    · exact told.past l id v rest (same.symm.trans split)
    · obtain ⟨rest', -, old⟩ | ⟨-, rfl, now⟩ := split_concat (added.symm.trans split)
      · exact told.past l id v rest' old
      · exact told.present id _ (returns id (.value v) now.symm)

/-! ### What a discard leaves behind -/

/-- Since a use began, everything that was sent before has been taken, or the use has yet to find
nothing more. -/
def Cleared (d : Desk α) : Prop :=
  ∀ start id use rest, d.log = start ++ .began id use :: rest →
    (sentIn start).length ≤ (takenIn d.log).length ∨
      ∃ stage, d.stage id = some stage ∧ stage.begins use

/-- A use goes on to take what was queued when it began until nothing is. -/
theorem Change.begins {use : RelayUse} (change : Change d l d') (now : d.stage id = some stage)
    (begins : stage.begins use) :
    (∃ stage', d'.stage id = some stage' ∧ stage'.begins use) ∨ d.relay.queue = [] := by
  have stays {mover : Nat} {after : Option (RelayStage α)} (other : id ≠ mover) :
      ∃ stage', (d.move mover after).stage id = some stage' ∧ stage'.begins use :=
    ⟨stage, by simp [other, now], begins⟩
  have other {mover : Nat} {was : RelayStage α} (there : d.stage mover = some was)
      (further : stage ≠ was) : id ≠ mover := by
    rintro rfl
    exact further (Option.some.inj (now.symm.trans there))
  obtain ⟨notWaiting, notWorking, notLeaving⟩ := begins_only begins
  cases change with
  | send | close | queue => exact .inl ⟨stage, now, begins⟩
  | ask idle =>
    refine .inl (stays ?_)
    rintro rfl
    cases idle.symm.trans now
  | begin waits => exact .inl (stays (other waits notWaiting))
  | @take mover before after c cs fate there _ found =>
    rw [take_eq]
    by_cases same : id = mover
    · subst same
      obtain rfl := Option.some.inj (there.symm.trans now)
      exact .inl ⟨after, by simp, (begins_onChunk begins found).1⟩
    · exact .inl (stays same)
  | miss _ empty => exact .inr empty
  | finish works => exact .inl (stays (other works notWorking))
  | leave leaves => exact .inl (stays (other leaves (notLeaving _)))
  | cancel there resting =>
    refine .inl (stays (other there ?_))
    rcases resting with rfl | rfl
    · exact notWaiting
    · exact notWorking

/-- Nothing that was taken is untaken. -/
theorem Change.takenIn_prefix (change : Change d l d') : takenIn d.log <+: takenIn d'.log := by
  obtain same | ⟨e, added, -⟩ := change.log
  · exact same ▸ List.prefix_rfl
  · simp [added]

theorem Cleared.step (ordered : d.Ordered) (cleared : d.Cleared) (change : Change d l d') :
    d'.Cleared := by
  intro start id use rest split
  -- What holds of a beginning in the old log goes on to hold.
  have old {rest : List (RelayEvent α)} (split : d.log = start ++ .began id use :: rest) :
      (sentIn start).length ≤ (takenIn d'.log).length ∨
        ∃ stage, d'.stage id = some stage ∧ stage.begins use := by
    have more := change.takenIn_prefix.length_le
    obtain taken | ⟨stage, now, begins⟩ := cleared start id use rest split
    · exact .inl (Nat.le_trans taken more)
    · refine (change.begins now begins).symm.imp (fun empty => ?_) fun goesOn => goesOn
      have all := ordered.length_of_empty empty
      have few : (sentIn start).length ≤ (sentIn d.log).length := by simp [split]
      omega
  obtain same | ⟨e, added, begun, -⟩ := change.log
  · exact old (same.symm.trans split)
  · obtain ⟨rest', -, before⟩ | ⟨-, rfl, now⟩ := split_concat (added.symm.trans split)
    · exact old before
    · exact .inr ⟨_, begun id use now.symm, begins_first use⟩

/-- Of what was sent before a discard began, nothing was forwarded since then. -/
def Discards (d : Desk α) : Prop :=
  ∀ start id rest, d.log = start ++ .began id .discard :: rest →
    ∀ i c, i < (sentIn start).length → (takenIn d.log)[i]? = some (c, .forwarded) →
      i < (takenIn start).length

/-- While a discard has yet to find nothing more, what is taken is dropped. -/
theorem Change.fate_of_discarding (exclusive : d.Exclusive) (change : Change d l d') {c : Chunk}
    {fate : Fate} (taken : d'.log = d.log ++ [.taken c fate]) (now : d.stage id = some stage)
    (begins : stage.begins .discard) : fate = .dropped := by
  cases change with
  | @take user before after _ _ _ was _ found =>
    rw [take_eq] at taken
    obtain ⟨rfl, rfl⟩ : _ = c ∧ _ = fate := by simpa using taken
    have holds := exclusive user before was (ne_waiting_of_onChunk found)
    by_cases same : id = user
    · subst same
      obtain rfl := Option.some.inj (was.symm.trans now)
      exact (begins_onChunk begins found).2 rfl
    · exact absurd (exclusive.waits holds now same) (begins_only begins).1
  | _ => simp at taken

theorem Discards.step (exclusive : d.Exclusive) (cleared : d.Cleared) (discards : d.Discards)
    (change : Change d l d') : d'.Discards := by
  intro start id rest split i c early forwarded
  obtain same | ⟨e, added, -, -⟩ := change.log
  · exact discards start id rest (same.symm.trans split) i c early (same ▸ forwarded)
  · obtain ⟨rest', -, before⟩ | ⟨-, rfl, rfl⟩ := split_concat (added.symm.trans split)
    · rw [added, takenIn_append, List.getElem?_append] at forwarded
      split at forwarded
      · exact discards start id rest' before i c early forwarded
      · next late =>
        obtain taken | ⟨stage, now, begins⟩ := cleared start id .discard rest' before
        · omega
        · obtain rfl : e = .taken c .forwarded := eq_of_mem_takenIn (List.mem_of_getElem? forwarded)
          cases change.fate_of_discarding exclusive added now begins
    · simpa [added] using (List.getElem?_eq_some_iff.mp forwarded).1

/-! ### Every run -/

/-- What holds of a desk at any time. -/
structure Sound (d : Desk α) : Prop where
  ordered : d.Ordered
  exclusive : d.Exclusive
  told : d.Told
  cleared : d.Cleared
  discards : d.Discards

theorem Sound.new : Sound ({} : Desk α) where
  ordered := ⟨rfl, rfl⟩
  exclusive := nofun
  told := ⟨nofun, by simp⟩
  cleared := by simp [Cleared]
  discards := by simp [Discards]

theorem Sound.step (sound : d.Sound) (change : Change d l d') : d'.Sound where
  ordered := sound.ordered.step change
  exclusive := sound.exclusive.step change
  told := sound.told.step sound.exclusive sound.ordered change
  cleared := sound.cleared.step sound.ordered change
  discards := sound.discards.step sound.exclusive sound.cleared change

theorem sound_of_run (ran : run {} ls = some d) : d.Sound :=
  invariant_of_run Sound.step .new ran

/-- Whatever a drive finds on the way from its beginning to its return is forwarded, so of a list of
chunks up to what was sent in that time, everything but what had been taken before is. -/
theorem Worked.forwards {start work rest log : List (RelayEvent α)} {v : α}
    (worked : Worked id v start work rest log) {i : Nat} (late : (takenIn start).length ≤ i)
    (early : i < (takenIn log).length) : ∃ c, (takenIn log)[i]? = some (c, .forwarded) := by
  have taken : takenIn log = takenIn start ++ takenIn (work ++ rest) := by simp [worked.split]
  rw [taken, List.getElem?_append_right late]
  rw [taken, List.length_append] at early
  have inside : i - (takenIn start).length < (takenIn (work ++ rest)).length := by omega
  have fate := fate_of_forwarding worked.forwarding _ (List.getElem_mem inside)
  exact ⟨_, by rw [List.getElem?_eq_getElem inside, ← fate]⟩

/-- **A relay is first in, first out**, in every run, with any number of uses, chunks and other
messages in any order.

At any time, what was sent is what was taken, in the order of sending, followed by what is queued;
each chunk that was taken was either forwarded or dropped; and the messages for the editor are what
was forwarded, in this order, among the messages of others.

When a drive returns a value, this is the one that its work came to. It held the relay from its
beginning on, and of the chunks sent before the work came to its value, all that had not been taken
before the drive began have been forwarded. A drive whose work is done can return whatever others
do, with all that is queued forwarded.

A chunk that was sent before a discard began, and that was ever forwarded, was taken before the
discard began. -/
theorem first_in_first_out (ran : run {} ls = some d) :
    (sentIn d.log = (takenIn d.log).map Prod.fst ++ d.relay.queue ∧
      d.outbox = messagesIn d.log) ∧
    (∀ before id v after, d.log = before ++ .returned id (.value v) :: after →
      ∃ start work rest, before = start ++ .began id .drive :: (work ++ .finished id v :: rest) ∧
        (∀ e ∈ work ++ rest, e.isForwarding) ∧
        ∀ i, (takenIn start).length ≤ i → i < (sentIn (start ++ work)).length →
          ∃ c, (takenIn before)[i]? = some (c, .forwarded)) ∧
    (∀ id v, d.stage id = some (.closing v) →
      ∃ d', d.run (List.replicate (d.relay.queue.length + 1) (.look id) ++ [.leave id]) = some d' ∧
        d'.log = d.log ++ d.relay.queue.map (.taken · .forwarded) ++
          [.returned id (.value v)]) ∧
    ∀ start id rest, d.log = start ++ .began id .discard :: rest →
      ∀ i c, i < (sentIn start).length → (takenIn d.log)[i]? = some (c, .forwarded) →
        i < (takenIn start).length := by
  have sound := sound_of_run ran
  refine ⟨⟨sound.ordered.sent, sound.ordered.outbox⟩, ?_, ?_, sound.discards⟩
  · intro before id v after split
    obtain ⟨start, work, rest, worked, cleared⟩ := sound.told.past before id v after split
    refine ⟨start, work, rest, worked.split, worked.forwarding, fun i late early => ?_⟩
    exact worked.forwards late (Nat.lt_of_lt_of_le early cleared)
  · intro id v now
    exact ⟨_, run_to_end now (fun _ => rfl) rfl, by simp [clear]⟩

/-- A drive forwards what is sent before, during and after its work, a discard drops the next chunk,
and a flush forwards the one behind it. -/
theorem first_in_first_out_of_sample :
    let chunk (text : String) : Chunk := { text }
    let ls : List (Label Nat) :=
      [.send (chunk "a"), .ask 0, .begin 0 .drive, .look 0, .look 0, .send (chunk "b"), .ask 1,
        .look 0, .finish 0 42, .send (chunk "c"), .look 0, .look 0, .leave 0, .send (chunk "d"),
        .begin 1 .discard, .look 1, .look 1, .leave 1, .send (chunk "e"), .ask 0, .close,
        .begin 0 .flush, .look 0, .look 0, .leave 0]
    let before : List (RelayEvent Nat) :=
      [.sent (chunk "a"), .began 0 .drive, .taken (chunk "a") .forwarded, .sent (chunk "b"),
        .taken (chunk "b") .forwarded, .finished 0 42, .sent (chunk "c"),
        .taken (chunk "c") .forwarded]
    let after : List (RelayEvent Nat) :=
      [.sent (chunk "d"), .began 1 .discard, .taken (chunk "d") .dropped, .returned 1 (.count 1),
        .sent (chunk "e"), .began 0 .flush, .taken (chunk "e") .forwarded, .returned 0 (.count 1)]
    ∃ d, run {} ls = some d ∧ d.log = before ++ .returned 0 (.value 42) :: after ∧
      d.outbox = ["a", "b", "c", "e"].map (fun text => (chunk text).response) ∧
      d.outbox = messagesIn d.log ∧
      sentIn d.log = (takenIn d.log).map Prod.fst ++ d.relay.queue ∧
      (∃ start work rest, before = start ++ .began 0 .drive :: (work ++ .finished 0 42 :: rest) ∧
        (∀ e ∈ work ++ rest, e.isForwarding) ∧
        ∀ i, (takenIn start).length ≤ i → i < (sentIn (start ++ work)).length →
          ∃ c, (takenIn before)[i]? = some (c, .forwarded)) ∧
      ∀ c, (takenIn d.log)[3]? ≠ some (c, .forwarded) := by
  intro chunk ls before after
  have ends : (run {} ls).map (fun d => (d.log, d.outbox)) =
      some (before ++ .returned 0 (.value 42) :: after,
        ["a", "b", "c", "e"].map fun text => (chunk text).response) := by
    decide +kernel
  obtain ⟨d, ran, same⟩ := Option.map_eq_some_iff.mp ends
  obtain ⟨log, outbox⟩ := Prod.mk.inj same
  have fifo := first_in_first_out ran
  refine ⟨d, ran, log, outbox, fifo.1.2, fifo.1.1, fifo.2.1 before 0 42 after log, ?_⟩
  intro c forwarded
  have early := fifo.2.2.2 (before ++ [.returned 0 (.value 42), .sent (chunk "d")]) 1
    (after.drop 2) log 3 c (by decide) forwarded
  exact absurd early (by decide)

end Desk

end LispBridge
