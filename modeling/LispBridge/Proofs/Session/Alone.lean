import LispBridge.Proofs.Program.Discipline
import LispBridge.Proofs.Session.Moves

/-!
A task alone: runs in which one task goes on and nothing else happens, while the interpreter
replies at once.

Such a run is determined by the program of the task. `Session.alone` computes it along the program,
and `System.completes_alone` says that a session runs so, and in no other way. Whether or not the
program comes to its end, the task comes to rest (`System.comes_to_rest`).
-/

namespace LispBridge

/-- The events by which a task goes on: it need not wait any longer, or the interpreter replies. -/
inductive System.Label.IsOf (reply : (c : Call) → c.Answer) (id : TaskId) : Label → Prop where
  | resume : IsOf reply id (.resume id)
  | answer (c : Call) : IsOf reply id (.answer id c (reply c))

/-- The event by which a task does the step at which it is. -/
def System.Label.ofOp (reply : (c : Call) → c.Answer) (id : TaskId) : Op → Label
  | .call c _ => .answer id c (reply c)
  | _ => .resume id

/-- A task is at rest if it cannot go on, whatever the interpreter says. -/
def System.Rests (sys : System) (id : TaskId) : Prop :=
  ∀ reply l, Label.IsOf reply id l → sys.step l = none

/-- A run of a task alone, of which every run of the task alone is a part. -/
structure System.Completes (sys : System) (reply : (c : Call) → c.Answer) (id : TaskId)
    (ls : List Label) (sys' : System) : Prop where
  isOf : ∀ l ∈ ls, Label.IsOf reply id l
  ran : sys.run ls = some sys'
  only : ∀ ms, (∀ l ∈ ms, Label.IsOf reply id l) → (sys.run ms).isSome → ms <+: ls

/-- A task comes to rest if it goes on while nothing else happens. -/
def System.ComesToRest (sys : System) (reply : (c : Call) → c.Answer) (id : TaskId) : Prop :=
  ∃ ls sys', (∀ l ∈ ls, Label.IsOf reply id l) ∧ sys.run ls = some sys' ∧ sys'.Rests id

/-- What a run has left of a task, among the other tasks. -/
def System.between (sys : System) (before after : List Task) (left : Session × Option Task) :
    System :=
  { sys with session := left.1, tasks := before ++ left.2.toList ++ after }

namespace Session

/-- Does a step at which a task is, if no other task has to go on first. -/
def fulfil (reply : (c : Call) → c.Answer) (s : Session) (t : Task) :
    (op : Op) → Option (op.Result × Session × Task)
  | .call c _ => some (reply c, s, t)
  | op => s.perform t op

/-- Comes to a step at which a task may have to wait. -/
def await (s : Session) (t : Task) (op : Op) : Session × Task :=
  ((s.arrive t op).1, { (s.arrive t op).2 with deadline := s.deadlineOf op })

/-- Comes to a step and does it, if no other task has to go on first. -/
def pass (reply : (c : Call) → c.Answer) (s : Session) (t : Task) (op : Op) :
    Option (op.Result × Session × Task) :=
  if op.isAwait then (s.await t op).1.fulfil reply (s.await t op).2 op else s.perform t op

/-- Runs a program while no other task does anything. -/
def alone {α : Type} (reply : (c : Call) → c.Answer) (s : Session) (t : Task) :
    Program α → Option (α × Session × Task)
  | .done v => some (v, s, t)
  | .step op next =>
    match s.pass reply t op with
    | some (r, s, t) => s.alone reply t (next r)
    | none => none

variable {α β : Type} {reply : (c : Call) → c.Answer} {s s' : Session} {t t' : Task}

@[simp] theorem alone_done {v : α} : s.alone reply t (.done v) = some (v, s, t) := rfl

@[simp] theorem alone_step {op : Op} {next : op.Result → Program α} :
    s.alone reply t (.step op next) =
      (s.pass reply t op).bind fun (r, s, t) => s.alone reply t (next r) := by
  rw [alone]
  cases s.pass reply t op <;> rfl

/-- A program followed by another: the second starts where the first ends. -/
@[simp] theorem alone_bind {p : Program α} {f : α → Program β} :
    s.alone reply t (p >>= f) =
      (s.alone reply t p).bind fun (v, s, t) => s.alone reply t (f v) := by
  induction p generalizing s t with
  | done v => rfl
  | step op next ih =>
    simp only [Program.step_bind, alone_step, Option.bind_assoc]
    exact congrArg (Option.bind _) (funext fun x => ih x.1)

@[simp] theorem alone_map {p : Program α} {f : α → β} :
    s.alone reply t (f <$> p) = (s.alone reply t p).map fun (v, s, t) => (f v, s, t) := by
  rw [map_eq_pure_bind, alone_bind, Option.map_eq_bind]
  rfl

/-- The interpreter replies to a call; any other step is done by the session. -/
theorem fulfil_cases (reply : (c : Call) → c.Answer) (op : Op) :
    (∃ c relaying, op = .call c relaying) ∨
      (∀ id, System.Label.ofOp reply id op = .resume id) ∧
        ∀ (s : Session) (t : Task), s.fulfil reply t op = s.perform t op := by
  cases op with
  | call c relaying => exact .inl ⟨c, relaying, rfl⟩
  | _ => exact .inr ⟨fun id => rfl, fun s t => rfl⟩

/-- The rest of a task's program has no part in a step that is done. -/
theorem fulfil_program (op : Op) (p : Program Unit) :
    s.fulfil reply { t with program := p } op =
      (s.fulfil reply t op).map fun (a, s', t') => (a, s', { t' with program := p }) := by
  obtain ⟨c, relaying, rfl⟩ | ⟨-, plain⟩ := fulfil_cases reply op
  · rfl
  · rw [plain, plain, perform_program]

theorem fulfil_id {op : Op} {a : op.Result} (done : s.fulfil reply t op = some (a, s', t')) :
    t'.id = t.id := by
  obtain ⟨c, relaying, rfl⟩ | ⟨-, plain⟩ := fulfil_cases reply op
  · simp only [fulfil, Option.some.injEq, Prod.mk.injEq] at done
    rw [done.2.2]
  · rw [plain] at done
    exact perform_id done

/-- A task goes on if the session can do the step at which it waits. -/
theorem resume_eq {op : Op} {next : op.Result → Program Unit}
    (program : t.program = .step op next) :
    s.resume t = (s.perform t op).map fun (a, s, t) => s.settle t (next a) := by
  rw [resume, program]
  cases performed : s.perform t op <;> simp [performed]

/-- A task that has asked something goes on with what the interpreter says. -/
theorem answer_eq {c : Call} {relaying : Bool} {next : c.Answer → Program Unit}
    (program : t.program = .step (.call c relaying) next) (a : c.Answer) :
    s.answer t c a = some (s.settle t (next a)) := by
  rw [answer, program]
  exact dif_pos rfl

/-- A task that comes to a step where it may have to wait stops there. -/
theorem settle_of_isAwait {op : Op} (await : op.isAwait = true) (next : op.Result → Program Unit)
    (p : Program Unit) :
    s.settle { t with program := p } (.step op next) =
      ((s.await t op).1, some { (s.await t op).2 with program := .step op next }) := by
  simp [settle, await, arrive_program, Session.await]

/-- A task goes through the other steps. -/
theorem settle_of_perform {op : Op} (now : op.isAwait = false) (next : op.Result → Program Unit)
    (p : Program Unit) {a : op.Result} (performed : s.perform t op = some (a, s', t')) :
    s.settle { t with program := p } (.step op next) =
      s'.settle { t' with program := p } (next a) := by
  simp [settle, now, perform_program, performed]

/-- The other steps can always be done. -/
theorem perform_isSome {op : Op} (now : op.isAwait = false) :
    ∃ a s' t', s.perform t op = some (a, s', t') := by
  cases op <;> first | exact ⟨_, _, _, rfl⟩ | cases now

theorem await_id (op : Op) : (s.await t op).2.id = t.id :=
  arrive_id s t op

end Session

namespace System

variable {reply : (c : Call) → c.Answer} {sys : System} {before after : List Task} {t : Task}

theorem task?_of_split (numbered : sys.WellNumbered) (split : sys.tasks = before ++ t :: after) :
    sys.task? t.id = some t := by
  have others := (List.forall_mem_append.mp (numbered.apart split)).1
  rw [task?, split, List.find?_append, List.find?_eq_none.mpr (by simpa using others)]
  simp

/-- A task goes on by the event that its step calls for, if the step can be done. -/
theorem step_ofOp (reply : (c : Call) → c.Answer) (numbered : sys.WellNumbered)
    (split : sys.tasks = before ++ t :: after) {op : Op} {next : op.Result → Program Unit}
    (program : t.program = .step op next) :
    sys.step (.ofOp reply t.id op) =
      (sys.session.fulfil reply t op).map fun (a, s, t') =>
        sys.between before after (s.settle t' (next a)) := by
  have found := task?_of_split numbered split
  obtain ⟨c, relaying, rfl⟩ | ⟨resumes, plain⟩ := Session.fulfil_cases reply op
  · simp [Label.ofOp, step, found, Session.answer_eq program, update_split split numbered,
      Session.fulfil, between]
  · rw [resumes, plain]
    simp [step, found, Session.resume_eq program, update_split split numbered, between,
      Function.comp_def]

/-- A task goes on by no other event. -/
theorem eq_ofOp (numbered : sys.WellNumbered) (split : sys.tasks = before ++ t :: after)
    {l : Label} {sys' : System} (isOf : l.IsOf reply t.id) (stepped : sys.step l = some sys') :
    ∃ op next, t.program = .step op next ∧ l = .ofOp reply t.id op := by
  have found := task?_of_split numbered split
  cases isOf with
  | resume =>
    cases program : t.program with
    | done v => simp [step, found, Session.resume, program] at stepped
    | step op next =>
      refine ⟨op, next, rfl, ?_⟩
      obtain ⟨c, relaying, rfl⟩ | ⟨resumes, -⟩ := Session.fulfil_cases reply op
      · simp [step, found, Session.resume_eq program, Session.perform] at stepped
      · exact (resumes t.id).symm
  | answer c =>
    simp only [step, found, Option.bind_eq_bind, Option.bind_some, Option.map_eq_map,
      Option.map_eq_some_iff] at stepped
    obtain ⟨left, answered, -⟩ := stepped
    obtain ⟨relaying, next, program, -⟩ := Session.answer_eq_some answered
    exact ⟨.call c relaying, next, program, rfl⟩

theorem isOf_ofOp (reply : (c : Call) → c.Answer) (id : TaskId) (op : Op) :
    Label.IsOf reply id (.ofOp reply id op) := by
  cases op with
  | call c relaying => exact .answer c
  | _ => exact .resume

/-- A task that is gone is at rest. -/
theorem rests_of_not_mem {id : TaskId} (gone : ∀ t ∈ sys.tasks, t.id ≠ id) : sys.Rests id := by
  have absent : sys.task? id = none := List.find?_eq_none.mpr (by simpa using gone)
  rintro reply l (_ | c)
  · simp [step, absent]
  · simp [step, absent]

/-- A task is at rest if the step at which it is cannot be done. -/
theorem rests_iff (reply : (c : Call) → c.Answer) (numbered : sys.WellNumbered)
    (split : sys.tasks = before ++ t :: after) {op : Op} {next : op.Result → Program Unit}
    (program : t.program = .step op next) :
    sys.Rests t.id ↔ sys.session.fulfil reply t op = none := by
  constructor
  · intro rests
    have stays := rests reply _ (isOf_ofOp reply t.id op)
    rwa [step_ofOp _ numbered split program, Option.map_eq_none_iff] at stays
  · intro stuck reply' l isOf
    rw [Option.eq_none_iff_forall_ne_some]
    intro sys' stepped
    obtain ⟨op', next', program', rfl⟩ := eq_ofOp numbered split isOf stepped
    cases program.symm.trans program'
    rw [step_ofOp _ numbered split program] at stepped
    obtain ⟨c, relaying, rfl⟩ | ⟨-, plain⟩ := Session.fulfil_cases reply op
    · cases stuck
    · obtain ⟨c, relaying, rfl⟩ | ⟨-, plain'⟩ := Session.fulfil_cases reply' op
      · cases stuck
      · rw [plain', ← plain, stuck] at stepped
        cases stepped

namespace Completes

/-- No run of a task that is at rest goes on. -/
theorem refl {id : TaskId} (rests : sys.Rests id) : sys.Completes reply id [] sys := by
  refine ⟨by simp, rfl, ?_⟩
  intro ms isOf ran
  cases ms with
  | nil => exact List.prefix_rfl
  | cons m ms => simp [run, rests reply m (isOf m List.mem_cons_self)] at ran

/-- A task that goes on by one event only, and then completes a run. -/
theorem cons {id : TaskId} {l : Label} {ls : List Label} {mid sys' : System}
    (isOf : l.IsOf reply id) (stepped : sys.step l = some mid)
    (unique : ∀ m, m.IsOf reply id → (sys.step m).isSome → m = l)
    (rest : mid.Completes reply id ls sys') : sys.Completes reply id (l :: ls) sys' := by
  refine ⟨List.forall_mem_cons.mpr ⟨isOf, rest.isOf⟩, by rw [run, stepped]; exact rest.ran, ?_⟩
  intro ms isOf' ran
  cases ms with
  | nil => exact List.nil_prefix
  | cons m ms =>
    obtain ⟨first, others⟩ := List.forall_mem_cons.mp isOf'
    rw [run, Option.bind_eq_bind] at ran
    obtain rfl := unique m first (Option.isSome_of_isSome_bind ran)
    rw [stepped, Option.bind_some] at ran
    exact (List.prefix_cons_inj m).mpr (rest.only ms others ran)

end Completes

/-! ### Runs along a program -/

theorem between_tasks (s : Session) :
    (sys.between before after (s, some t)).tasks = before ++ t :: after := by
  simp [between]

theorem WellNumbered.between {s : Session} {t' : Task}
    (numbered : (sys.between before after (s, some t)).WellNumbered) (r : Session)
    (same : t'.id = t.id) : (sys.between before after (r, some t')).WellNumbered := by
  simpa [System.between] using numbered.replace (s := r) (between_tasks s) same

theorem WellNumbered.gone {s s' : Session}
    (numbered : (sys.between before after (s, some t)).WellNumbered) :
    (sys.between before after (s', none)).Rests t.id := by
  apply rests_of_not_mem
  simpa [System.between] using numbered.apart (between_tasks s)

/-- A task that waits at a step goes on from there when the step is done. -/
theorem step_waiting {s s' : Session} {t' : Task} {op : Op} (next : op.Result → Program Unit)
    (numbered : (sys.between before after (s, some t)).WellNumbered) {a : op.Result}
    (done : s.fulfil reply t op = some (a, s', t')) :
    (sys.between before after (s, some { t with program := .step op next })).step
        (.ofOp reply t.id op) =
      some (sys.between before after
        (s'.settle { t' with program := .step op next } (next a))) := by
  have waits : (sys.between before after
      (s, some { t with program := .step op next })).WellNumbered := numbered.between s rfl
  have first := step_ofOp reply waits (between_tasks s) rfl
  have performed : s.fulfil reply { t with program := .step op next } op =
      some (a, s', { t' with program := .step op next }) := by
    rw [Session.fulfil_program, done]
    rfl
  exact first.trans (congrArg (Option.map _) performed)

/-- It goes on by no other event. -/
theorem eq_of_step_waiting {s : Session} {op : Op} {next : op.Result → Program Unit}
    (numbered : (sys.between before after (s, some t)).WellNumbered) {l : Label}
    (isOf : l.IsOf reply t.id)
    (stepped : ((sys.between before after
      (s, some { t with program := .step op next })).step l).isSome) :
    l = .ofOp reply t.id op := by
  obtain ⟨sys', stepped⟩ := Option.isSome_iff_exists.mp stepped
  have waits : (sys.between before after
      (s, some { t with program := .step op next })).WellNumbered := numbered.between s rfl
  obtain ⟨op', next', program, same⟩ := eq_ofOp waits (between_tasks s) isOf stepped
  cases program
  exact same

/-- **A task alone runs as its program says.** If the program comes to its end, so does the task,
and every run of the task is a part of that one. The induction is on the program; the program that
the task had before has no part in it. -/
theorem completes_alone (p : Program Unit) :
    ∀ {s s' : Session} {t t' : Task} (q : Program Unit),
    (sys.between before after (s, some t)).WellNumbered → s.alone reply t p = some ((), s', t') →
    ∃ ls, (sys.between before after (s.settle { t with program := q } p)).Completes reply t.id ls
      (sys.between before after (s'.leave t', none)) := by
  induction p with
  | done v =>
    intro s s' t t' q numbered ends
    cases ends
    exact ⟨[], .refl numbered.gone⟩
  | step op next ih =>
    intro s s' t t' q numbered ends
    rw [Session.alone_step, Option.bind_eq_some_iff] at ends
    obtain ⟨⟨a, s₂, t₂⟩, passed, ends⟩ := ends
    unfold Session.pass at passed
    split at passed
    · next await =>
      have arrived : (s.await t op).2.id = t.id := Session.await_id op
      have same : t₂.id = t.id := (Session.fulfil_id passed).trans arrived
      have waits := numbered.between (s.await t op).1 arrived
      obtain ⟨ls, rest⟩ := ih a (.step op next) (numbered.between _ same) ends
      refine ⟨.ofOp reply t.id op :: ls, ?_⟩
      rw [Session.settle_of_isAwait await, ← arrived]
      refine .cons (isOf_ofOp reply _ op) (step_waiting next waits passed) ?_ ?_
      · intro m isOf happens
        exact eq_of_step_waiting waits isOf happens
      · rw [arrived, ← same]
        exact rest
    · next now =>
      have same := Session.perform_id passed
      rw [Session.settle_of_perform (by simpa using now) next q passed, ← same]
      exact ih a q (numbered.between _ same) ends

/-! ### Rest -/

theorem Rests.comesToRest {id : TaskId} (rests : sys.Rests id) : sys.ComesToRest reply id :=
  ⟨[], sys, by simp, rfl, rests⟩

theorem ComesToRest.of_step {id : TaskId} {l : Label} {mid : System} (isOf : l.IsOf reply id)
    (stepped : sys.step l = some mid) (comes : mid.ComesToRest reply id) :
    sys.ComesToRest reply id := by
  obtain ⟨ls, sys', allOf, ran, rests⟩ := comes
  refine ⟨l :: ls, sys', List.forall_mem_cons.mpr ⟨isOf, allOf⟩, ?_, rests⟩
  rw [run, stepped]
  exact ran

/-- A task whose step cannot be done is at rest; otherwise it goes on from there. -/
theorem comesToRest_of_next (numbered : sys.WellNumbered)
    (split : sys.tasks = before ++ t :: after) {op : Op} {next : op.Result → Program Unit}
    (program : t.program = .step op next)
    (comes : ∀ a s t', t'.id = t.id → (sys.between before after (s, some t')).WellNumbered →
      (sys.between before after (s.settle t' (next a))).ComesToRest reply t.id) :
    sys.ComesToRest reply t.id := by
  cases done : sys.session.fulfil reply t op with
  | none => exact ((rests_iff reply numbered split program).mpr done).comesToRest
  | some outcome =>
    obtain ⟨a, s, t'⟩ := outcome
    have same : t'.id = t.id := Session.fulfil_id done
    have goesOn := step_ofOp reply numbered split program
    rw [done] at goesOn
    refine .of_step (isOf_ofOp reply t.id op) goesOn (comes a s t' same ?_)
    simpa [System.between] using numbered.replace (s := s) split same

/-- A run of a task alone leads to rest; the induction is on the program that it runs. -/
theorem comesToRest_settle (p : Program Unit) : ∀ {s : Session} {t : Task},
    (sys.between before after (s, some t)).WellNumbered →
      (sys.between before after (s.settle t p)).ComesToRest reply t.id := by
  induction p with
  | done v =>
    intro s t numbered
    exact numbered.gone.comesToRest
  | step op next ih =>
    intro s t numbered
    cases await : op.isAwait with
    | true =>
      have arrived : (s.await t op).2.id = t.id := Session.await_id op
      have waits : (sys.between before after ((s.await t op).1,
          some { (s.await t op).2 with program := .step op next })).WellNumbered :=
        numbered.between _ arrived
      have settled := Session.settle_of_isAwait (s := s) (t := t) await next t.program
      rw [show s.settle t (.step op next) = _ from settled, ← arrived]
      refine comesToRest_of_next (t := { (s.await t op).2 with program := .step op next }) waits
        (between_tasks _) rfl ?_
      intro a s' t' same numbered'
      rw [← same]
      exact ih a numbered'
    | false =>
      obtain ⟨a, s', t', performed⟩ := Session.perform_isSome (s := s) (t := t) await
      have same := Session.perform_id performed
      have settled := Session.settle_of_perform await next t.program performed
      rw [show s.settle t (.step op next) = _ from settled, ← same]
      exact ih a (numbered.between _ same)

/-- **Every task comes to rest** if it goes on while the others wait and the interpreter replies. -/
theorem comes_to_rest (reply : (c : Call) → c.Answer) (numbered : sys.WellNumbered) (id : TaskId) :
    sys.ComesToRest reply id := by
  cases found : sys.task? id with
  | none =>
    refine (rests_of_not_mem ?_).comesToRest
    simpa [task?] using found
  | some t =>
    obtain ⟨rfl, before, after, split⟩ := split_of_task? found
    cases program : t.program with
    | done v =>
      apply Rests.comesToRest
      intro reply l isOf
      rw [Option.eq_none_iff_forall_ne_some]
      intro sys' stepped
      obtain ⟨op, next, program', -⟩ := eq_ofOp numbered split isOf stepped
      cases program.symm.trans program'
    | step op next =>
      refine comesToRest_of_next numbered split program ?_
      intro a s t' same numbered'
      rw [← same]
      exact comesToRest_settle (next a) numbered'

end System

end LispBridge
