import LispBridge.Proofs.Debugger.Levels
import LispBridge.Proofs.Program.Discipline
import LispBridge.Proofs.Session.Records

/-!
What one step of a session does, task by task.

`Goes` singles out the steps by which a task goes on; the others leave every task and the debugger
alone (`System.step_cases`). A task that has gone on waits at a later step of its program
(`Program.Settles`), and a level that is active after a step was active before, or the task that
went on has just announced it (`System.level_of_step`).
-/

namespace LispBridge

/-- The step at which a program is. -/
def Program.op? : Program Unit → Option Op
  | .done () => none
  | .step op _ => some op

theorem Program.op?_eq_some {p : Program Unit} {op : Op} (at_op : p.op? = some op) :
    ∃ next, p = .step op next := by
  cases p with
  | done v => cases at_op
  | step op' next =>
    cases at_op
    exact ⟨next, rfl⟩

/-! ### Runs of a task -/

/-- A program, and what is left of it when some steps have been done at once. -/
inductive Program.Settles : Program Unit → Program Unit → Prop where
  | refl (p : Program Unit) : Settles p p
  | step {op : Op} {next : op.Result → Program Unit} {r : op.Result} {p : Program Unit} :
      op.isAwait = false → Settles (next r) p → Settles (.step op next) p

/-- What is left of a program keeps to a discipline that does not notice steps done at once. -/
theorem Program.Settles.keeps {σ : Type} {D : Discipline σ} {x : σ} {Q : Unit → σ → Prop}
    {p p' : Program Unit} (settles : p.Settles p') (keeps : p.Keeps D x Q)
    (still : ∀ op (r : op.Result), op.isAwait = false → D.moves x op r x) : p'.Keeps D x Q := by
  induction settles with
  | refl p => exact keeps
  | step now _ ih => exact ih (keeps.2 _ x (still _ _ now))

namespace Session

/-- A run of a task leaves the debugger alone, and the rest of the program is left to do. -/
theorem settle_settles (p : Program Unit) : ∀ (s : Session) (t : Task),
    (s.settle t p).1.debugger = s.debugger ∧
      ∀ t', (s.settle t p).2 = some t' → t'.id = t.id ∧ p.Settles t'.program := by
  induction p with
  | done v =>
    intro s t
    exact ⟨rfl, by simp [settle]⟩
  | step op next ih =>
    intro s t
    cases await : op.isAwait with
    | true =>
      simp only [settle, await, if_true, Option.some.injEq]
      refine ⟨(arrive_outbox s t op).2, ?_⟩
      rintro t' rfl
      exact ⟨arrive_id s t op, .refl _⟩
    | false =>
      cases performed : s.perform t op with
      | none =>
        simp only [settle, await, performed]
        refine ⟨rfl, ?_⟩
        rintro t' ⟨rfl⟩
        exact ⟨rfl, .refl _⟩
      | some outcome =>
        obtain ⟨r, s', t₁⟩ := outcome
        obtain ⟨debugger, rest⟩ := ih r s' t₁
        have same : s'.debugger = s.debugger := by
          have done := perform_eq_some performed
          cases op <;> simp_all [Op.isAwait, send, flush, sendAll]
        simp only [settle, await, performed]
        refine ⟨debugger.trans same, fun t' ends => ?_⟩
        obtain ⟨id, settles⟩ := rest t' ends
        exact ⟨id.trans (perform_id performed), .step await settles⟩

/-- A step of a task enters at most the level that it is for. -/
theorem perform_level {s s' : Session} {t t' : Task} {op : Op} {r : op.Result} {n : Nat} {l : Level}
    (performed : s.perform t op = some (r, s', t')) (active : s'.debugger.level? n = some l) :
    s.debugger.level? n = some l ∨ op = .enter l ∧ n = s.debugger.depth + 1 := by
  have done := perform_eq_some performed
  cases op with
  | lockGate | lockGateWithin =>
    rw [(enterGate?_outbox done).2] at active
    exact .inl active
  | resolve number index =>
    obtain ⟨-, ⟨-, -, rfl⟩ | ⟨resolution, debugger, resolved, -, rfl⟩⟩ := done
    · exact .inl active
    · exact .inl (Debugger.level?_resolve resolved active)
  | enter entered =>
    obtain ⟨rfl, -⟩ := done
    rw [enter, Debugger.level?_push] at active
    split at active
    · next last =>
      cases active
      exact .inr ⟨rfl, last⟩
    · exact .inl active
  | emit | flush =>
    obtain ⟨rfl, -⟩ := done
    exact .inl active
  | releaseGate =>
    obtain ⟨rfl, -⟩ := done
    exact .inl active
  | _ =>
    rw [done.2.1] at active
    exact .inl active

end Session

/-- A task has done the step at which it waited, so that it goes on from there with the rest of its
program. -/
inductive Goes (sys : System) (t : Task) :
    System.Label → Session → Task → Program Unit → Prop where
  | resume {op : Op} {next : op.Result → Program Unit} {r : op.Result} {s : Session} {t' : Task} :
      t.program = .step op next → sys.session.perform t op = some (r, s, t') →
      Goes sys t (.resume t.id) s t' (next r)
  | answer {c : Call} {relaying : Bool} {next : c.Answer → Program Unit} (a : c.Answer) :
      t.program = .step (.call c relaying) next →
      Goes sys t (.answer t.id c a) sys.session t (next a)
  | expire {limit : Nat} {next : Bool → Program Unit} :
      t.program = .step (.lockGateWithin limit) next →
      Goes sys t (.expire t.id) { sys.session with gate := t.place.leave sys.session.gate }
        { t with place := .none } (next false)

/-- The arrival of a payload leaves the debugger alone. -/
theorem Arrival.debugger {sys sys' : System} {payload : String} {es : List Entry}
    (arrival : Arrival sys payload es sys') : sys'.session.debugger = sys.session.debugger := by
  cases arrival <;> rfl

/-- A task that is there after an arrival was there before, or it serves what has arrived. -/
theorem Arrival.task {sys sys' : System} {payload : String} {es : List Entry} {t : Task}
    (arrival : Arrival sys payload es sys') (mem : t ∈ sys'.tasks) :
    t ∈ sys.tasks ∨ t.id = sys.nextTask ∧ ∀ command r ticket,
      .spawned t.id (.serve command r) ticket ∈ es →
        t.program = .serve sys.session.settings sys.session.host command r := by
  cases arrival with
  | gated | free =>
    rcases List.mem_append.mp mem with old | new
    · exact .inl old
    · obtain rfl := List.mem_singleton.mp new
      refine .inr ⟨rfl, fun command r ticket spawned => ?_⟩
      simp at spawned
      obtain ⟨⟨rfl, rfl⟩, -⟩ := spawned
      rfl
  | refresh | input =>
    rcases List.mem_append.mp mem with old | new
    · exact .inl old
    · obtain rfl := List.mem_singleton.mp new
      refine .inr ⟨rfl, fun command r ticket spawned => ?_⟩
      simp at spawned
  | refuse | silent => exact .inl mem

namespace System

variable {sys sys' : System} {l : Label}

/-- Only a new task is started. -/
theorem id_of_spawned {id : TaskId} {work : Delivery} {ticket : Option Ticket}
    (spawned : .spawned id work ticket ∈ sys.entries l sys') : id = sys.nextTask := by
  rcases List.mem_append.mp spawned with opening | sent
  · cases l with
    | deliver payload =>
      rcases List.mem_cons.mp opening with delivered | started
      · cases delivered
      · unfold System.started at started
        split at started
        case h_1 | h_2 | h_3 =>
          cases List.mem_singleton.mp started
          rfl
        all_goals cases started
    | resume other =>
      simp only [cause] at opening
      split at opening
      · obtain ⟨k, admitted, -⟩ := Task.mem_admission opening
        cases admitted
      · cases opening
    | answer other c a => cases List.mem_singleton.mp opening
    | _ => cases opening
  · obtain ⟨r, -, same⟩ := List.mem_map.mp sent
    cases same

/-- A task that is resumed goes on. -/
theorem goes_of_resume {id : TaskId} (stepped : sys.step (.resume id) = some sys') :
    ∃ t s t' p, sys.task? t.id = some t ∧ Goes sys t (.resume id) s t' p ∧
      sys' = sys.update t.id (s.settle t' p) := by
  obtain ⟨t, found, result, resumed, rfl⟩ : ∃ t, sys.task? id = some t ∧
      ∃ result, sys.session.resume t = some result ∧ sys.update id result = sys' := by
    simpa [step, Option.bind_eq_some_iff] using stepped
  obtain ⟨rfl, -⟩ := split_of_task? found
  obtain ⟨op, next, a, s, t', program, performed, rfl⟩ := Session.resume_eq_some resumed
  exact ⟨t, s, t', next a, found, .resume program performed, rfl⟩

/-- A task that is answered goes on. -/
theorem goes_of_answer {id : TaskId} {c : Call} {a : c.Answer}
    (stepped : sys.step (.answer id c a) = some sys') :
    ∃ t s t' p, sys.task? t.id = some t ∧ Goes sys t (.answer id c a) s t' p ∧
      sys' = sys.update t.id (s.settle t' p) := by
  obtain ⟨t, found, result, answered, rfl⟩ : ∃ t, sys.task? id = some t ∧
      ∃ result, sys.session.answer t c a = some result ∧ sys.update id result = sys' := by
    simpa [step, Option.bind_eq_some_iff] using stepped
  obtain ⟨rfl, -⟩ := split_of_task? found
  obtain ⟨relaying, next, program, rfl⟩ := Session.answer_eq_some answered
  exact ⟨t, _, _, next a, found, .answer a program, rfl⟩

/-- A task that has waited long enough goes on. -/
theorem goes_of_expire {id : TaskId} (stepped : sys.step (.expire id) = some sys') :
    ∃ t s t' p, sys.task? t.id = some t ∧ Goes sys t (.expire id) s t' p ∧
      sys' = sys.update t.id (s.settle t' p) := by
  obtain ⟨t, found, result, expired, rfl⟩ : ∃ t, sys.task? id = some t ∧
      ∃ result, sys.session.expire t = some result ∧ sys.update id result = sys' := by
    simpa [step, Option.bind_eq_some_iff] using stepped
  obtain ⟨rfl, -⟩ := split_of_task? found
  obtain ⟨limit, next, program, rfl⟩ := Session.expire_eq_some expired
  exact ⟨t, _, _, next false, found, .expire program, rfl⟩

/-- In a step a task goes on, or a payload arrives, or the tasks and the debugger stay as they are,
but for a task that is cancelled. -/
theorem step_cases (stepped : sys.step l = some sys') :
    (∃ t s t' p, sys.task? t.id = some t ∧ Goes sys t l s t' p ∧
        sys' = sys.update t.id (s.settle t' p)) ∨
      (∃ payload, l = .deliver payload ∧ Arrival sys payload (sys.entries l sys') sys') ∨
      (∀ id, l ≠ .resume id) ∧ sys'.session.debugger = sys.session.debugger ∧
        ∀ t ∈ sys'.tasks, t ∈ sys.tasks := by
  cases l with
  | deliver payload =>
    simp only [step] at stepped
    split at stepped
    · cases stepped
      exact .inr (.inl ⟨payload, rfl, sys.deliver_arrival payload⟩)
    · cases stepped
  | print | closeOutput | tick =>
    cases stepped
    exact .inr (.inr ⟨by simp, rfl, fun t mem => mem⟩)
  | resume id => exact .inl (goes_of_resume stepped)
  | answer id c a => exact .inl (goes_of_answer stepped)
  | forward id =>
    obtain ⟨t, found, session, forwarded, rfl⟩ : ∃ t, sys.task? id = some t ∧
        ∃ s, sys.session.forward t = some s ∧ { sys with session := s } = sys' := by
      simpa [step, Option.bind_eq_some_iff] using stepped
    obtain ⟨c, next, chunk, relay, -, -, rfl⟩ := Session.forward_eq_some forwarded
    exact .inr (.inr ⟨by simp, rfl, fun t mem => mem⟩)
  | expire id => exact .inl (goes_of_expire stepped)
  | cancel id =>
    simp only [step, Option.bind_eq_bind, Option.bind_eq_some_iff, Option.pure_def,
      Option.some.injEq] at stepped
    obtain ⟨t, -, rfl⟩ := stepped
    exact .inr (.inr ⟨by simp, rfl, fun u mem => (List.mem_filter.mp mem).1⟩)

theorem task_of_label {t t' : Task} {s : Session} {p : Program Unit} (goes : Goes sys t l s t' p) :
    l.task? = some t.id := by
  cases goes <;> rfl

theorem id_of_goes {t t' : Task} {s : Session} {p : Program Unit} (goes : Goes sys t l s t' p) :
    t'.id = t.id := by
  cases goes with
  | resume _ performed => exact Session.perform_id performed
  | answer => rfl
  | expire => rfl

/-- After a step by which a task goes on, every other task is what it was, and the one that went on
has the rest of its program to do. -/
theorem task_of_goes {t t' u : Task} {s : Session} {p : Program Unit} (goes : Goes sys t l s t' p)
    (mem : u ∈ (sys.update t.id (s.settle t' p)).tasks) :
    (u ∈ sys.tasks ∧ u.id ≠ t.id) ∨ u.id = t.id ∧ p.Settles u.program := by
  have settled := (Session.settle_settles p s t').2
  cases ends : (s.settle t' p).2 with
  | none =>
    simp only [update, ends] at mem
    obtain ⟨old, other⟩ := List.mem_filter.mp mem
    exact .inl ⟨old, of_decide_eq_true other⟩
  | some w =>
    simp only [update, ends] at mem
    obtain ⟨v, old, rfl⟩ := List.mem_map.mp mem
    by_cases same : v.id = t.id
    · obtain ⟨id, settles⟩ := settled w ends
      rw [if_pos same]
      exact .inr ⟨id.trans (id_of_goes goes), settles⟩
    · rw [if_neg same]
      exact .inl ⟨old, same⟩

/-- A level that is active after a step was active before it, or a task has just entered it and
announced it. -/
theorem level_of_step (stepped : sys.step l = some sys') {n : Nat} {level : Level}
    (active : sys'.session.debugger.level? n = some level) :
    sys.session.debugger.level? n = some level ∨
      ∃ t next, sys.task? t.id = some t ∧ l = .resume t.id ∧
        t.program = .step (.enter level) next ∧
        .sent (some t.id) (.event (level.debugEvent n)) ∈ sys.entries l sys' := by
  rcases step_cases stepped with ⟨t, s, t', p, found, goes, rfl⟩ | ⟨payload, rfl, arrival⟩ |
    ⟨-, same, -⟩
  · have debugger : (s.settle t' p).1.debugger = s.debugger := (Session.settle_settles p s t').1
    rw [update, debugger] at active
    cases goes with
    | answer => exact .inl active
    | expire => exact .inl active
    | @resume op next r _ _ program performed =>
      rcases Session.perform_level performed active with old | ⟨rfl, rfl⟩
      · exact .inl old
      · refine .inr ⟨t, next, found, rfl, program, ?_⟩
        obtain ⟨rs, outbox, -⟩ := Session.settle_moves sys [] [] (next r) s t'
        rw [Session.perform_outbox performed] at outbox
        simp [entries, update, outbox, Label.task?, Session.emitted]
  · rw [arrival.debugger] at active
    exact .inl active
  · rw [same] at active
    exact .inl active

/-! ### Runs, from their end -/

theorem run_append {start : System} (ls ms : List Label) :
    start.run (ls ++ ms) = (start.run ls).bind fun mid => mid.run ms := by
  induction ls generalizing start with
  | nil => rfl
  | cons l ls ih =>
    simp only [List.cons_append, run, Option.bind_eq_bind, Option.bind_assoc]
    exact congrArg (Option.bind (start.step l)) (funext fun mid => ih)

/-- The last step of a run. -/
theorem run_concat_eq_some {start : System} {ls : List Label}
    (ran : start.run (ls ++ [l]) = some sys') :
    ∃ sys, start.run ls = some sys ∧ sys.step l = some sys' := by
  rw [run_append] at ran
  obtain ⟨sys, before, last⟩ := Option.bind_eq_some_iff.mp ran
  simp only [run, Option.bind_eq_bind, Option.bind_eq_some_iff, Option.some.injEq] at last
  obtain ⟨mid, stepped, rfl⟩ := last
  exact ⟨sys, before, stepped⟩

theorem history_append {start mid : System} {ls : List Label} (ms : List Label)
    (ran : start.run ls = some mid) :
    start.history (ls ++ ms) = start.history ls ++ mid.history ms := by
  induction ls generalizing start with
  | nil =>
    cases ran
    rfl
  | cons l ls ih =>
    simp only [run, Option.bind_eq_bind, Option.bind_eq_some_iff] at ran
    obtain ⟨next, stepped, ran⟩ := ran
    simp only [List.cons_append, history, stepped, ih ran, List.append_assoc]

/-- What is seen of a run ends with what is seen of its last step. -/
theorem history_concat {start : System} {ls : List Label} (ran : start.run ls = some sys)
    (stepped : sys.step l = some sys') :
    start.history (ls ++ [l]) = start.history ls ++ sys.entries l sys' := by
  rw [history_append [l] ran]
  simp only [history, stepped, List.append_nil]

end System

end LispBridge
