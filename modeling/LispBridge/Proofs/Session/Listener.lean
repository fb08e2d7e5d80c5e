import LispBridge.Proofs.Program.Quiet
import LispBridge.Proofs.Session.Records
import LispBridge.Proofs.Session.Steps

/-!
Evaluations of the REPL and the debugger.

A request of the REPL looks at the debugger before it waits for the gate, and not again. So it
evaluates nothing unless no level was active when it looked, but by the time of the evaluation
others may have entered levels.
-/

namespace LispBridge

/-! ### Looking at the debugger -/

/-- What a request of the REPL knows of the debugger. -/
inductive Look where
  /-- It has not looked yet. -/
  | ahead
  /-- Some level was active when it looked. -/
  | active
  /-- So many levels were active when it looked again. -/
  | leaving (depth : Nat)
  /-- No level was active when it looked last. -/
  | clear
  /-- It has left a level, or entered one. -/
  | past
deriving DecidableEq, Repr

namespace Look

/-- Whether a request has found out what it is to do. -/
def IsDecided (x : Look) : Prop :=
  x = clear ∨ x = past

@[simp] theorem isDecided_clear : clear.IsDecided := .inl rfl

@[simp] theorem isDecided_past : past.IsDecided := .inr rfl

@[simp] theorem not_isDecided_active : ¬ active.IsDecided := by
  rintro (same | same) <;> cases same

@[simp] theorem not_isDecided_leaving (depth : Nat) : ¬ (leaving depth).IsDecided := by
  rintro (same | same) <;> cases same

instance (x : Look) : Decidable x.IsDecided :=
  inferInstanceAs (Decidable (x = clear ∨ x = past))

/-- What a request may do next, given what it knows. Having found a level, it has no choice. -/
@[simp] def allows (x : Look) : Op → Bool
  | .turn => x = ahead
  | .depth => x = ahead || x = active
  | .releaseGate => x = active || x.IsDecided
  | .resolve number index => x = leaving number && index = 0
  | .call c _ => x = clear || x = past && !c.isEval
  | .lockGateWithin _ => false
  | .emit _ | .close | .clock | .lockGate | .lockRelay | .unlockRelay | .flush | .discard | .enter _
  | .setPackage _ => x.IsDecided

/-- What it knows after a step. -/
@[simp] def after (x : Look) : (op : Op) → op.Result → Look
  | .depth, depth => if depth = 0 then clear else if x = ahead then active else leaving depth
  | .resolve .., _ | .enter _, _ => past
  | _, _ => x

end Look

/-- The discipline of requests of the REPL. -/
def Discipline.looking : Discipline Look where
  allows x op := x.allows op = true
  moves x op r y := y = x.after op r

@[simp] theorem Discipline.looking_allows {x : Look} {op : Op} :
    Discipline.looking.allows x op ↔ x.allows op = true := Iff.rfl

@[simp] theorem Discipline.looking_moves {x y : Look} {op : Op} {r : op.Result} :
    Discipline.looking.moves x op r y ↔ y = x.after op r := Iff.rfl

/-- A request notices nothing at the steps that are done at once. -/
theorem Discipline.looking_still (x : Look) (op : Op) (r : op.Result) (now : op.isAwait = false) :
    Discipline.looking.moves x op r x := by
  cases op <;> first | rfl | cases now

namespace Program

theorem keeps_emitAll_looking {x : Look} (rs : List Response)
    (free : x.IsDecided) :
    (emitAll rs).Keeps .looking x fun _ y => y = x := by
  refine keeps_emitAll (fun _ y => y = x) rfl (fun y same => same) ?_
  rintro r rs y rfl
  rcases free with rfl | rfl
  · exact ⟨rfl, fun z moved => moved⟩
  · exact ⟨rfl, fun z moved => moved⟩

theorem keeps_applyRestart_looking (action : Option Restart) :
    (applyRestart action).Keeps .looking .past fun _ y => y = .past := by
  unfold applyRestart
  split
  · simp
  · simp [restartInterpreter, discardOutput]
    intro answer
    cases answer <;> simp
  all_goals rfl

end Program

namespace Action

theorem keeps_fetchPrompt_looking {x : Look} (free : x.IsDecided) :
    Keeps .looking fetchPrompt x fun _ y => y = x := by
  rcases free with rfl | rfl
  all_goals
    simp [fetchPrompt]
    rintro (e | value)
    · trivial
    · cases named : Package.ofDatum? value <;> simp [named]

theorem keeps_refreshPrompt_looking :
    Keeps .looking refreshPrompt .clear fun _ y => y = .clear := by
  rw [refreshPrompt, keeps_bind]
  refine (keeps_fetchPrompt_looking (.inl rfl)).mono ?_
  rintro (e | _ | p) y rfl
  · rfl
  · rfl
  · simp [Program.event]

theorem keeps_evaluateMarked_looking (code : String) :
    Keeps .looking (evaluateMarked code) .clear fun _ y => y = .clear := by
  simp [evaluateMarked, Program.event, Program.drive]
  rintro (e | chunks)
  · cases e <;> simp
  · simp
    exact Program.keeps_emitAll_looking _ (.inl rfl)

/-- Where no level was active the request evaluates, and does not look again. -/
theorem keeps_evaluate_looking (r : Request) :
    Keeps .looking (evaluate r) .clear fun _ y => y = .clear := by
  refine keeps_ofExcept_bind (fun _ => rfl) fun code _ => ?_
  simp
  refine (keeps_evaluateMarked_looking code).mono ?_
  rintro (e | _ | message) y rfl
  · rfl
  all_goals
    simp
    exact keeps_refreshPrompt_looking

/-- A request that leaves the level it has found leaves it by the first restart. -/
theorem keeps_invokeRestart_looking (settings : Settings) (depth : Nat) :
    Keeps .looking (invokeRestart settings depth 0) (.leaving depth) fun _ y => y = .past := by
  simp [invokeRestart, Program.event]
  rintro (_ | resolution)
  · simp
  · simp
    refine (Program.keeps_emitAll_looking _ (.inr rfl)).mono ?_
    rintro _ y rfl
    refine (Program.keeps_applyRestart_looking resolution.action).mono ?_
    rintro _ y rfl
    simp
    refine (keeps_fetchPrompt_looking (.inr rfl)).mono ?_
    rintro prompt y rfl
    trivial

theorem keeps_listenerEval_looking (settings : Settings) (r : Request) :
    Keeps .looking (listenerEval settings r) .ahead fun _ y => y.IsDecided := by
  have evaluates : Keeps .looking (evaluate r) .clear fun _ y => y.IsDecided :=
    (keeps_evaluate_looking r).mono fun _ _ ends => .inl ends
  simp [listenerEval]
  intro depth
  by_cases outside : depth = 0
  · simpa [outside] using evaluates
  · simp [outside, throwToToplevel]
    intro depth'
    by_cases outside' : depth' = 0
    · simpa [outside'] using evaluates
    · simp [outside']
      refine (keeps_invokeRestart_looking settings depth').mono ?_
      rintro (e | trailing) y rfl
      · exact .inr rfl
      · exact .inr rfl

end Action

namespace Program

theorem keeps_conclude_looking (id : RequestId) (result : Except Failure Outcome) {x : Look}
    (free : x.IsDecided) :
    (conclude id result).Keeps .looking x fun _ y => y.IsDecided := by
  rcases result with e | outcome
  · cases e <;> rcases free with rfl | rfl <;> simp [conclude, finish]
  · have told : (emitAll outcome.trailing).Keeps .looking x fun _ y => y.IsDecided :=
      (keeps_emitAll_looking _ free).mono fun _ y same => same ▸ free
    rcases free with rfl | rfl
    all_goals
      simp [conclude, finish]
      exact told

theorem keeps_serve_looking (settings : Settings) (host : Host) (r : Request) :
    (serve settings host .listenerEval r).Keeps .looking .ahead fun _ y =>
      y.IsDecided := by
  simp [serve]
  refine (Action.keeps_listenerEval_looking settings r).mono ?_
  intro result y free
  refine (keeps_conclude_looking r.id result free).mono ?_
  rintro _ z (rfl | rfl) <;> simp

end Program

/-! ### Throwing to the top level -/

/-- A program that leaves the innermost of so many levels by its first restart; it may first look
again, and then leaves the innermost of those that it finds. -/
def Program.Throws (depth : Nat) (p : Program Unit) : Prop :=
  p.op? = some (.resolve depth 0) ∨
    ∃ next, p = .step .depth next ∧ ∀ d ≠ 0, (next d).op? = some (.resolve d 0)

namespace Program.Keeps

variable {p : Program Unit} {depth : Nat}

/-- Once a request has found a level twice, it leaves it. -/
theorem op?_of_leaving (keeps : p.Keeps .looking (.leaving depth) fun _ y => y.IsDecided) :
    p.op? = some (.resolve depth 0) := by
  cases p with
  | done v => exact absurd keeps (Look.not_isDecided_leaving depth)
  | step op next =>
    have allowed : (Look.leaving depth).allows op = true := keeps.1
    cases op with
    | resolve number index =>
      obtain ⟨rfl, rfl⟩ : depth = number ∧ index = 0 := by simpa using allowed
      rfl
    | _ => cases allowed

theorem settle_of_leaving (keeps : p.Keeps .looking (.leaving depth) fun _ y => y.IsDecided)
    (s : Session) (t : Task) : ∃ t', (s.settle t p).2 = some t' ∧ t'.program.Throws depth := by
  obtain ⟨next, rfl⟩ := op?_eq_some keeps.op?_of_leaving
  have settled : (s.settle t (.step (.resolve depth 0) next)).2 =
      some { t with deadline := none, program := .step (.resolve depth 0) next } := by
    simp [Session.settle, Op.isAwait, Session.arrive, Session.deadlineOf]
  exact ⟨_, settled, .inl rfl⟩

/-- Once a request has found a level, it gives up its place at the gate and looks again. -/
theorem settle_of_active (keeps : p.Keeps .looking .active fun _ y => y.IsDecided) :
    ∀ (s : Session) (t : Task), ∃ t', (s.settle t p).2 = some t' ∧ t'.program.Throws depth := by
  induction p with
  | done v => exact absurd keeps Look.not_isDecided_active
  | step op next ih =>
    intro s t
    have allowed : Look.active.allows op = true := keeps.1
    cases op with
    | releaseGate => exact ih () (keeps.2 () _ rfl) _ _
    | depth =>
      refine ⟨_, rfl, .inr ⟨next, rfl, fun d found => ?_⟩⟩
      have rest := keeps.2 d _ rfl
      simp only [Look.after, if_neg found, reduceCtorEq, if_false] at rest
      exact rest.op?_of_leaving
    | _ => cases allowed

end Program.Keeps

/-! ### Requests of the REPL -/

/-- Whether a task is started that serves a request of the REPL. -/
def Entry.startsListener (id : TaskId) : Entry → Bool
  | .spawned id' (.serve .listenerEval _) _ => id' = id
  | _ => false

theorem Entry.startsListener_iff {id : TaskId} {e : Entry} :
    e.startsListener id = true ↔
      ∃ r ticket, e = .spawned id (.serve .listenerEval r) ticket := by
  constructor
  · intro starts
    unfold startsListener at starts
    split at starts
    · next id' r ticket =>
      obtain rfl : id' = id := of_decide_eq_true starts
      exact ⟨r, ticket, rfl⟩
    · cases starts
  · rintro ⟨r, ticket, rfl⟩
    simp [startsListener]

/-- Whether a task serves a request of the REPL. -/
def Listens (H : List Entry) (id : TaskId) : Prop :=
  ∃ e ∈ H, e.startsListener id = true

instance (H : List Entry) (id : TaskId) : Decidable (Listens H id) :=
  inferInstanceAs (Decidable (∃ e ∈ H, e.startsListener id = true))

namespace System

variable {start sys sys' : System} {ls : List Label} {l : Label} {id : TaskId}

/-! ### Between the look and the evaluation -/

/-- A task is about to look at the debugger, and no level is active. -/
structure FindsClear (start : System) (before : List Label) (look : System) (id : TaskId) :
    Prop where
  ran : start.run before = some look
  looks : ∃ t, look.task? id = some t ∧ t.program.op? = some .depth
  clear : look.session.debugger.levels = []

/-- In the course of a run a task looked at the debugger and found no level active; those that are
active now were announced by others since. -/
def EnteredSince (start : System) (ls : List Label) (sys : System) (id : TaskId) : Prop :=
  ∃ before after look, ls = before ++ .resume id :: after ∧ FindsClear start before look id ∧
    ∀ n level, sys.session.debugger.level? n = some level → ∃ other, other ≠ id ∧
      .sent (some other) (.event (level.debugEvent n)) ∈ look.history (.resume id :: after)

/-- The look itself: nothing is active after it. -/
theorem FindsClear.enteredSince (finds : FindsClear start ls sys id)
    (stepped : sys.step (.resume id) = some sys') :
    EnteredSince start (ls ++ [.resume id]) sys' id := by
  refine ⟨ls, [], sys, rfl, finds, fun n level active => ?_⟩
  rcases level_of_step stepped active with old | ⟨t, next, found, same, program, -⟩
  · simp [Debugger.level?, finds.clear] at old
  · obtain ⟨t', found', looks⟩ := finds.looks
    cases same
    cases found.symm.trans found'
    rw [program] at looks
    cases looks

/-- What others do after the look is seen of the run. -/
theorem EnteredSince.step (since : EnteredSince start ls sys id) (ran : start.run ls = some sys)
    (stepped : sys.step l = some sys')
    (other : ∀ t level, sys.task? id = some t → l = .resume id →
      t.program.op? ≠ some (.enter level)) :
    EnteredSince start (ls ++ [l]) sys' id := by
  obtain ⟨before, after, look, rfl, finds, announced⟩ := since
  refine ⟨before, after ++ [l], look, by simp, finds, fun n level active => ?_⟩
  have rest : look.run (.resume id :: after) = some sys := by
    rw [run_append, finds.ran] at ran
    exact ran
  have seen := history_concat rest stepped
  rw [List.cons_append] at seen
  rw [seen]
  rcases level_of_step stepped active with old | ⟨t, next, found, rfl, program, sent⟩
  · obtain ⟨task, apart, mem⟩ := announced n level old
    exact ⟨task, apart, List.mem_append_left _ mem⟩
  · refine ⟨t.id, ?_, List.mem_append_right _ sent⟩
    rintro rfl
    exact other t level found rfl (by rw [program]; rfl)

/-- Who is clear after a step has just looked and found no level active, or was clear before and has
entered none now. -/
theorem enteredSince_of_after {t t' : Task} {s : Session} {x : Look} {op : Op}
    {next : op.Result → Program Unit} {r : op.Result}
    (since : x = .clear → EnteredSince start ls sys t.id) (ran : start.run ls = some sys)
    (stepped : sys.step (.resume t.id) = some sys') (found : sys.task? t.id = some t)
    (program : t.program = .step op next) (performed : sys.session.perform t op = some (r, s, t'))
    (clear : x.after op r = .clear) : EnteredSince start (ls ++ [.resume t.id]) sys' t.id := by
  have unchanged (before : x = .clear) (stays : ∀ level, op ≠ .enter level) :
      EnteredSince start (ls ++ [.resume t.id]) sys' t.id := by
    refine (since before).step ran stepped fun t₁ level found' _ enters => ?_
    cases found.symm.trans found'
    rw [program] at enters
    exact stays level (Option.some.inj enters)
  cases op with
  | depth =>
    obtain ⟨rfl, -, -⟩ : sys.session.debugger.depth = r ∧ _ := by
      simpa [Session.perform] using performed
    have empty : sys.session.debugger.levels = [] := by
      by_contra active
      have some_level : sys.session.debugger.depth ≠ 0 := by
        simpa [Debugger.depth] using active
      simp only [Look.after, if_neg some_level] at clear
      split at clear <;> cases clear
    exact FindsClear.enteredSince ⟨ran, ⟨t, found, by rw [program]; rfl⟩, empty⟩ stepped
  | enter | resolve => cases clear
  | _ => exact unchanged clear (by simp)

/-! ### Requests that look before they evaluate -/

/-- A request of the REPL keeps to its discipline, and has looked before it may evaluate. -/
def Wary (start : System) (ls : List Label) (sys : System) (t : Task) : Prop :=
  ∃ x, t.program.Keeps .looking x (fun _ y => y.IsDecided) ∧
    (x = .clear → EnteredSince start ls sys t.id)

/-- A request that does not go on is as wary as it was. -/
theorem Wary.stay {t : Task} (wary : Wary start ls sys t) (ran : start.run ls = some sys)
    (stepped : sys.step l = some sys') (stays : l ≠ .resume t.id) :
    Wary start (ls ++ [l]) sys' t := by
  obtain ⟨x, keeps, since⟩ := wary
  refine ⟨x, keeps, fun clear => (since clear).step ran stepped fun _ _ _ same => ?_⟩
  exact absurd same stays

/-- A request that goes on is wary by what it knows then. -/
theorem Wary.go {t t' u : Task} {s : Session} {p : Program Unit} (wary : Wary start ls sys t)
    (ran : start.run ls = some sys) (stepped : sys.step l = some sys')
    (found : sys.task? t.id = some t) (goes : Goes sys t l s t' p) (same : u.id = t.id)
    (settles : p.Settles u.program) : Wary start (ls ++ [l]) sys' u := by
  obtain ⟨x, keeps, since⟩ := wary
  rw [Wary, same]
  cases goes with
  | @resume op next r _ _ program performed =>
    rw [program] at keeps
    obtain ⟨allowed, rest⟩ := keeps
    have keeps' := settles.keeps (rest r _ rfl) (Discipline.looking_still _)
    refine ⟨x.after op r, keeps', fun clear => ?_⟩
    exact enteredSince_of_after since ran stepped found program performed clear
  | answer a program =>
    rw [program] at keeps
    refine ⟨x, settles.keeps (keeps.2 a _ rfl) (Discipline.looking_still _), fun clear => ?_⟩
    exact (since clear).step ran stepped (by simp)
  | expire program =>
    rw [program] at keeps
    have allowed : x.allows (.lockGateWithin _) = true := keeps.1
    cases x <;> cases allowed

/-- Every request of the REPL is wary; the induction is on the labels of the run, from its end. -/
theorem wary_of_run {settings : Settings} {host : Host} (ls : List Label) :
    ∀ {sys : System}, (System.new settings host).run ls = some sys → ∀ t ∈ sys.tasks,
      Listens ((System.new settings host).history ls) t.id → Wary (.new settings host) ls sys t := by
  induction ls using List.reverseRecOn with
  | nil =>
    intro sys ran t mem
    cases ran
    cases mem
  | append_singleton ls l ih =>
    intro sys' ran' u mem listens
    obtain ⟨sys, ran, stepped⟩ := run_concat_eq_some ran'
    obtain ⟨numbered, recorded⟩ :=
      recorded_invariant.holds ⟨rfl, by simp, by simp⟩ (fun _ _ => trivial) ran
    obtain ⟨e, listed, starts⟩ := listens
    rw [history_concat ran stepped] at listed
    -- A task that was there before was started before.
    have earlier {t : Task} (old : t ∈ sys.tasks) (same : u.id = t.id) :
        Wary (.new settings host) ls sys t := by
      refine ih ran t old ⟨e, ?_, same ▸ starts⟩
      rcases List.mem_append.mp listed with before | now
      · exact before
      · obtain ⟨r, ticket, rfl⟩ := Entry.startsListener_iff.mp starts
        have new : t.id = sys.nextTask := same ▸ id_of_spawned now
        exact absurd (numbered.below t old) (by rw [new]; exact lt_irrefl _)
    rcases step_cases stepped with ⟨t, s, t', p, found, goes, rfl⟩ | ⟨payload, rfl, arrival⟩ |
      ⟨noResume, -, kept⟩
    · rcases task_of_goes goes mem with ⟨old, apart⟩ | ⟨same, settles⟩
      · refine (earlier old rfl).stay ran stepped ?_
        rintro rfl
        exact apart (Option.some.inj (task_of_label goes))
      · have old := List.mem_of_find?_eq_some found
        exact (earlier old same).go ran stepped found goes same settles
    · rcases arrival.task mem with old | ⟨new, serves⟩
      · exact (earlier old rfl).stay ran stepped (by simp)
      · obtain ⟨r, ticket, rfl⟩ := Entry.startsListener_iff.mp starts
        rcases List.mem_append.mp listed with before | now
        · exact absurd (recorded.below _ _ _ before) (by rw [new]; exact lt_irrefl _)
        · rw [Wary, serves _ r ticket now]
          exact ⟨.ahead, Program.keeps_serve_looking _ _ r, by simp⟩
    · exact (earlier (kept u mem) rfl).stay ran stepped (noResume u.id)

/-- A wary request that is about to evaluate has looked, and found no level active. -/
theorem Wary.enteredSince {t : Task} {code : String} {relaying : Bool}
    (wary : Wary start ls sys t) (evaluates : t.program.op? = some (.call (.eval code) relaying)) :
    EnteredSince start ls sys t.id := by
  obtain ⟨x, keeps, since⟩ := wary
  obtain ⟨next, program⟩ := Program.op?_eq_some evaluates
  rw [program] at keeps
  have allowed : x.allows (.call (.eval code) relaying) = true := keeps.1
  cases x with
  | clear => exact since rfl
  | _ => cases allowed

/-- A wary request that looks and finds a level goes on to leave it. -/
theorem Wary.throws {t : Task} (wary : Wary start ls sys t) (found : sys.task? t.id = some t)
    (looks : t.program.op? = some .depth) (active : sys.session.debugger.levels ≠ []) :
    ∃ sys' t', sys.step (.resume t.id) = some sys' ∧ t' ∈ sys'.tasks ∧ t'.id = t.id ∧
      t'.program.Throws sys.session.debugger.depth := by
  obtain ⟨x, keeps, -⟩ := wary
  obtain ⟨next, program⟩ := Program.op?_eq_some looks
  rw [program] at keeps
  have some_level : sys.session.debugger.depth ≠ 0 := by simpa [Debugger.depth] using active
  have allowed : x.allows .depth = true := keeps.1
  have rest := keeps.2 sys.session.debugger.depth _ rfl
  obtain ⟨t', settled, throws⟩ : ∃ t',
      (sys.session.settle t (next sys.session.debugger.depth)).2 = some t' ∧
        t'.program.Throws sys.session.debugger.depth := by
    cases x with
    | ahead =>
      simp only [Look.after, if_neg some_level, if_true] at rest
      exact rest.settle_of_active _ _
    | active =>
      simp [some_level] at rest
      exact rest.settle_of_leaving _ _
    | _ => cases allowed
  have same : t'.id = t.id := ((Session.settle_settles _ _ _).2 t' settled).1
  have stepped : sys.step (.resume t.id) =
      some (sys.update t.id (sys.session.settle t (next sys.session.debugger.depth))) := by
    simp [step, found, Session.resume, program, Session.perform]
  refine ⟨_, t', stepped, ?_, same, throws⟩
  simp only [update, settled]
  refine List.mem_map.mpr ⟨t, List.mem_of_find?_eq_some found, ?_⟩
  exact if_pos rfl

/-- **Evaluations of the REPL.** When a request of the REPL calls for the evaluation of its code, it
has looked at the debugger and found no level active, and every level that is active now was entered
by another task since then. When it looks and finds a level, it goes on to leave the innermost one
instead. -/
theorem listener_evaluates_after_look {settings : Settings} {host : Host} {t : Task}
    (ran : (System.new settings host).run ls = some sys) (found : sys.task? t.id = some t)
    (listens : Listens ((System.new settings host).history ls) t.id) :
    (∀ code relaying, t.program.op? = some (.call (.eval code) relaying) →
      EnteredSince (.new settings host) ls sys t.id) ∧
    (t.program.op? = some .depth → sys.session.debugger.levels ≠ [] →
      ∃ sys' t', sys.step (.resume t.id) = some sys' ∧ t' ∈ sys'.tasks ∧ t'.id = t.id ∧
        t'.program.Throws sys.session.debugger.depth) := by
  have wary := wary_of_run ls ran t (List.mem_of_find?_eq_some found) listens
  refine ⟨?_, ?_⟩
  · intro code relaying evaluates
    exact wary.enteredSince evaluates
  · intro looks active
    exact wary.throws found looks active

/-- An evaluation raises a condition while a request of the REPL, which has looked at the debugger
before, waits for the gate: that request evaluates with a level active. -/
theorem listener_evaluates_in_debugger :
    let ls : List Label :=
      [.deliver "(:emacs-rex (swank:interactive-eval \"a\") nil t 1)",
       .resume 0, .resume 0, .resume 0,
       .deliver "(:emacs-rex (swank-repl:listener-eval \"b\") nil :repl-thread 2)",
       .resume 1, .resume 1,
       .answer 0 (.eval "a") (.error (.interpreter { message := "first" })), .resume 0,
       .resume 1, .resume 1]
    ∃ sys t, (System.new {}).run ls = some sys ∧ sys.task? t.id = some t ∧
      t.program.op? = some (.call (.eval "b") true) ∧ sys.session.debugger.depth = 1 ∧
      EnteredSince (.new {}) ls sys t.id := by
  intro ls
  have ends : ((System.new {}).run ls).map (fun sys => (sys.session.debugger.depth,
      (sys.task? 1).map fun t => (t.id, t.program.op?))) =
        some (1, some (1, some (.call (.eval "b") true))) := by
    decide +kernel
  have listens : Listens ((System.new {}).history ls) 1 := by decide +kernel
  obtain ⟨sys, ran, ends⟩ := Option.map_eq_some_iff.mp ends
  obtain ⟨depth, ends⟩ := Prod.mk.inj ends
  obtain ⟨t, found, ends⟩ := Option.map_eq_some_iff.mp ends
  obtain ⟨id, evaluates⟩ := Prod.mk.inj ends
  rw [← id] at found listens
  refine ⟨sys, t, ran, found, evaluates, depth, ?_⟩
  exact (listener_evaluates_after_look ran found listens).1 "b" true evaluates

end System

end LispBridge
