import LispBridge.Proofs.Session.Orderly
import LispBridge.Proofs.Session.Records

/-!
The output of evaluations never mixes.

* `System.InTurns`: the console output is made of the blocks of the turns at the gate, one after
  another.
* `gated_output_in_turns`: so it is in every state that is reached without cancellations and without
  input for the interpreter.
-/

namespace LispBridge

variable {H : List Entry}

/-- A turn that goes on: its task holds the gate, and what is seen of it begins a complete turn. -/
def Turn.Running (sys : System) (H : List Entry) (t : Turn) : Prop :=
  ∃ task ∈ sys.tasks, task.id = t.task ∧ task.place = .holding t.ticket ∧
    ∃ work ticket more, .spawned t.task work ticket ∈ H ∧ Complete t.task work (t.own ++ more)

/-- Whether an evaluation is asked of the interpreter. -/
def Task.isEvaluating (t : Task) : Bool :=
  match t.program with
  | .step (.call c _) _ => c.isEval
  | _ => false

/-- A task that evaluates is in its turn. -/
theorem Task.Stands.holding {task : Task} (stands : task.Stands H)
    (evaluates : task.isEvaluating = true) : task.place.guard?.isSome = true := by
  obtain ⟨work, ticket, stage, -, -, keeps, fits⟩ := stands
  unfold isEvaluating at evaluates
  split at evaluates
  · next c relaying next program =>
    rw [program] at keeps
    cases stage with
    | before =>
      have silent := keeps.1.2
      rw [evaluates] at silent
      cases silent
    | within log =>
      obtain ⟨t, rest, -, -, -, place⟩ := fits
      rw [place]
      rfl
    | after => exact keeps.1.elim
  · cases evaluates

/-- A task that holds the gate is in the latest turn. -/
theorem Task.Stands.running {sys : System} {task : Task} {t : Turn} (stands : task.Stands H)
    (member : task ∈ sys.tasks) (latest : (latestTurns H).head? = some t) (same : task.id = t.task)
    (holding : task.place = .holding t.ticket) : t.Running sys H := by
  obtain ⟨work, ticket, stage, spawned, -, keeps, fits⟩ := stands
  refine ⟨task, member, same, holding, work, ticket, ?_⟩
  rw [← same]
  cases stage with
  | before => exact absurd holding (fits.1 t.ticket)
  | within log =>
    obtain ⟨t', rest, turn, -, own, -⟩ := fits
    rw [turn, List.head?_cons, Option.some.injEq] at latest
    obtain ⟨more, complete⟩ := keeps.exists_complete
    exact ⟨more, spawned, by rw [← latest, own]; exact complete⟩
  | after => exact absurd holding (fits t.ticket)

namespace System

variable {sys : System}

/-- The output of a session comes in turns. -/
structure InTurns (sys : System) (H : List Entry) : Prop where
  /-- The outbox is what is seen to be sent. -/
  sent : sys.session.outbox = responses H
  /-- What is seen is a turn for each admission, but for what precedes the first. -/
  split : ∃ opening, admissions opening = [] ∧ H = opening ++ (turns H).flatMap Turn.span
  /-- The console shows what tasks show in their turns. -/
  console : sys.session.outbox.filter Response.isConsole = (turns H).flatMap Turn.console
  /-- Every turn is over before the next: the block, the prompt and the conclusion. -/
  finished : ∀ t ∈ (turns H).dropLast, t.Finished H
  last : ∀ t, (turns H).getLast? = some t → t.Finished H ∨ t.Running sys H
  /-- The refreshing of a prompt after an interrupt is not seen in the turn of another task. -/
  refresh : ∀ t ∈ turns H, ∀ id r, .sent (some id) r ∈ t.entries → id ≠ t.task →
    ∀ ticket, .spawned id (.interrupt true) ticket ∉ H
  /-- No task has two turns. -/
  distinct : ((turns H).map Turn.task).Nodup
  /-- Tasks that keep the ticket they drew on arrival are admitted in the order of arrival. -/
  dispatched : (((turns H).map Turn.admission).filter (· ∈ dispatches H)).Sublist (dispatches H)
  /-- There is at most one evaluation at a time. -/
  alone : sys.tasks.countP Task.isEvaluating ≤ 1

theorem Orderly.inTurns (orderly : sys.Orderly H) (owned : sys.GateOwned)
    (recorded : sys.Recorded H) (lined : sys.Lined H) : sys.InTurns H where
  sent := recorded.outbox
  split := eq_append_flatMap_turns H
  console := by
    rw [recorded.outbox]
    exact orderly.console
  finished := by
    intro t mem
    rw [turns, List.dropLast_reverse] at mem
    exact orderly.finished t (List.mem_reverse.mp mem)
  last := by
    intro t isLast
    rw [turns, List.getLast?_reverse] at isLast
    refine (orderly.latest t isLast).imp_right ?_
    rintro ⟨task, member, same, holding⟩
    exact (orderly.tasks task member).running member isLast same holding
  refresh := by
    intro t mem id r sent other ticket spawned
    have isOther : .sent (some id) r ∈ t.others :=
      List.mem_filter.mpr ⟨sent, by simpa [Entry.owner] using other⟩
    obtain ⟨c, q, ticket', serves⟩ :=
      orderly.undisturbed t (List.mem_reverse.mp mem) id r isOther
    cases recorded.once _ _ _ _ _ spawned serves
  distinct := by
    rw [turns, List.map_reverse, List.nodup_reverse]
    exact orderly.distinct
  dispatched := by
    rw [map_admission_turns]
    exact lined.dispatched_sublist
  alone := by
    have guards := owned.countP_guard
    rw [List.countP_map] at guards
    calc sys.tasks.countP Task.isEvaluating
        ≤ sys.tasks.countP (·.place.guard?.isSome) :=
          List.countP_mono_left fun task member evaluates =>
            (orderly.tasks task member).holding evaluates
      _ = sys.session.gate.isHeld.toNat := guards
      _ ≤ 1 := Bool.toNat_le _

/-- **Evaluations never mix their output.** Without cancellations and without input for the
interpreter, the console output of a session is the blocks of the turns at the gate, one after
another in the order of admission, and the conclusion of each turn comes before the next. -/
theorem gated_output_in_turns {settings : Settings} {host : Host} {ls : List Label}
    {sys : System} (uncancelled : ∀ task, .cancel task ∉ ls)
    (noInput : ∀ payload, .deliver payload ∈ ls → (Delivery.ofPayload payload).isInput = false)
    (ran : (System.new settings host).run ls = some sys) :
    sys.InTurns ((System.new settings host).history ls) := by
  have allowed : ∀ l ∈ ls, l.keepsTurns := by
    intro l mem
    cases l with
    | cancel task => exact uncancelled task mem
    | deliver payload => exact noInput payload mem
    | _ => trivial
  have start : (System.new settings host).Orderly [] :=
    ⟨by simp [System.new], rfl, by simp [latestTurns], by simp [latestTurns],
      by simp [latestTurns], .nil, by simp [latestTurns]⟩
  obtain ⟨owned, orderly⟩ := (orderly_invariant.holds ⟨.new, start⟩ allowed ran).2
  have recorded := (recorded_invariant.holds ⟨rfl, by simp, by simp⟩ (fun _ _ => trivial) ran).2
  have lined : sys.Lined _ :=
    (lined_invariant.holds ⟨.new, .nil, .nil, by simp [admissions], by simp [dispatches]⟩
      (fun _ _ => trivial) ran).2.2
  exact orderly.inTurns owned recorded lined

/-- Two evaluations, of which the second waits while the first prints; the second is aborted. -/
theorem gated_output_of_two_evaluations :
    let ls : List Label :=
      [.deliver "(:emacs-rex (swank:interactive-eval \"(f)\") nil t 1)",
       .deliver "(:emacs-rex (swank:interactive-eval \"(g)\") nil t 2)",
       .resume 1, .resume 0, .resume 0, .resume 0, .print { text := "a" }, .forward 0,
       .answer 0 (.eval "(f)") (.ok [{ text := "1", isResult := true }]),
       .answer 0 (.command "(slime::slime-prompt)" .repl) (.error (.abort none)),
       .resume 1, .resume 1, .answer 1 (.eval "(g)") (.error (.abort none))]
    ∃ sys, (System.new {}).run ls = some sys ∧
      sys.session.outbox.filter Response.isConsole =
        [.event .readString, .event (.writeString "a" false), .event .readAborted,
          .event (.writeString "1" true), .event .readString, .event .readAborted] ∧
      (turns ((System.new {}).history ls)).map Turn.admission = [(0, 0), (1, 1)] ∧
      sys.InTurns ((System.new {}).history ls) := by
  intro ls
  have ends : ((System.new {}).run ls).map
      (fun sys => sys.session.outbox.filter Response.isConsole) =
        some [.event .readString, .event (.writeString "a" false), .event .readAborted,
          .event (.writeString "1" true), .event .readString, .event .readAborted] := by
    decide +kernel
  obtain ⟨sys, ran, console⟩ := Option.map_eq_some_iff.mp ends
  have uncancelled : ∀ task, .cancel task ∉ ls := by simp [ls]
  have noInput : ∀ payload, .deliver payload ∈ ls →
      (Delivery.ofPayload payload).isInput = false := by
    have requests : ∀ payload ∈ ["(:emacs-rex (swank:interactive-eval \"(f)\") nil t 1)",
        "(:emacs-rex (swank:interactive-eval \"(g)\") nil t 2)"],
        (Delivery.ofPayload payload).isInput = false := by decide +kernel
    intro payload mem
    exact requests payload (by simpa [ls] using mem)
  exact ⟨sys, ran, console, by decide +kernel, gated_output_in_turns uncancelled noInput ran⟩

end System

end LispBridge
