import LispBridge.Proofs.Program.Quiet
import LispBridge.Proofs.Session.Blocks
import LispBridge.Proofs.Session.Debts

/-!
Turns at the gate: what a task does while it holds the gate.

* `Discipline.turn`: a task shows nothing outside its turn, and ends its turn only when it is
  complete.
* `keeps_serve_turn`, `keeps_refreshAfterInterrupt_turn`: tasks keep to it.
* `Program.Keeps.exists_complete`: what a task has done in its turn begins a complete turn.
-/

namespace LispBridge

/-! ### The discipline of turns -/

/-- Where a task stands: it has not been admitted, it is in its turn, of which the log tells, or its
turn is over. -/
inductive Stage where
  | before
  | within (log : List Entry)
  | after

/-- Whether a step may be taken by a task that does not hold the gate. The refreshing of a prompt
tells nothing then. -/
def Op.isOutside (work : Delivery) : Op → Prop
  | .emit r => r.isConsole = false ∧ work ≠ .interrupt true
  | .enter _ => work ≠ .interrupt true
  | .flush => False
  | .call c relaying => relaying = false ∧ c.isEval = false
  | _ => True

/-- Whether a step may be taken by a task in its turn. -/
def Op.isWithin (id : TaskId) (work : Delivery) (log : List Entry) : Op → Prop
  | .releaseGate => Complete id work log
  | .lockGate | .lockGateWithin _ => False
  | _ => True

/-- What is seen of a step of a task in its turn. Chunks are relayed and levels numbered as it comes
about. -/
def Op.isSeenAs (id : TaskId) : (op : Op) → op.Result → List Entry → Prop
  | .emit r => fun _ es => es = sentBy id [r]
  | .flush => fun _ es => ∃ chunks : List Chunk, es = sentBy id (chunks.map Chunk.response)
  | .enter l => fun _ es => ∃ number,
      es = sentBy id [.event (l.debugEvent number), .event (.debugActivate number)]
  | .call c relaying => fun a es => ∃ chunks : List Chunk, (relaying = false → chunks = []) ∧
      es = sentBy id (chunks.map Chunk.response) ++ [.answered id c a]
  | _ => fun _ es => es = []

/-- Where a step leads a task that does not hold the gate. -/
def Op.entersAs : (op : Op) → op.Result → Stage
  | .lockGate => fun _ => .within []
  | .lockGateWithin _ => fun admitted => if admitted then .within [] else .before
  | _ => fun _ => .before

/-- The discipline of turns, for a task and its work. -/
def Discipline.turn (id : TaskId) (work : Delivery) : Discipline Stage where
  allows
    | .before, op => op.isOutside work
    | .within log, op => op.isWithin id work log
    | .after, _ => False
  moves
    | .before, op => fun a y => y = op.entersAs a
    | .within log, op => fun a y =>
      if op = .releaseGate then y = .after else ∃ es, op.isSeenAs id a es ∧ y = .within (log ++ es)
    | .after, _ => fun _ _ => False

attribute [simp] Response.isConsole Op.isOutside Op.isWithin Op.isSeenAs Op.entersAs

namespace Discipline

variable {id : TaskId} {work : Delivery} {log : List Entry} {op : Op} {a : op.Result} {y : Stage}

@[simp] theorem turn_allows_before : (turn id work).allows .before op ↔ op.isOutside work := Iff.rfl

@[simp] theorem turn_moves_before : (turn id work).moves .before op a y ↔ y = op.entersAs a :=
  Iff.rfl

@[simp] theorem turn_allows_within :
    (turn id work).allows (.within log) op ↔ op.isWithin id work log := Iff.rfl

@[simp] theorem turn_moves_within : (turn id work).moves (.within log) op a y ↔
    if op = .releaseGate then y = .after
    else ∃ es, op.isSeenAs id a es ∧ y = .within (log ++ es) := Iff.rfl

/-- Quiet steps before the turn are not noticed. -/
theorem turn_ignores (id : TaskId) (work : Delivery) : (turn id work).Ignores .before where
  allows op quiet := by
    cases op <;> simp_all
  moves op r y quiet moved := by
    cases op <;> simp_all

end Discipline

/-! ### Turns of requests -/

section Requests

variable {id : TaskId} {work : Delivery} {log : List Entry}

/-- Messages of a task in its turn are seen as they are. -/
theorem Program.keeps_emitAll_turn (rs : List Response) :
    (emitAll rs).Keeps (.turn id work) (.within log) fun _ y =>
      y = .within (log ++ sentBy id rs) := by
  refine keeps_emitAll (fun rest y => ∃ said, rs = said ++ rest ∧
    y = .within (log ++ sentBy id said)) ⟨[], rfl, by simp⟩ ?_ ?_
  · rintro y ⟨said, all, rfl⟩
    rw [all, List.append_nil]
  · rintro r rest y ⟨said, all, rfl⟩
    refine ⟨trivial, fun z moved => ?_⟩
    obtain rfl : z = .within (log ++ sentBy id said ++ sentBy id [r]) := by simpa using moved
    exact ⟨said ++ [r], by simp [all], by rw [sentBy_append, List.append_assoc]⟩

/-- Messages that show nothing may be sent before the turn. -/
theorem Program.keeps_emitAll_before {rs : List Response} (request : work ≠ .interrupt true)
    (silent : ∀ m ∈ rs, m.isConsole = false) :
    (emitAll rs).Keeps (.turn id work) .before fun _ y => y = .before := by
  refine keeps_emitAll (fun rest y => y = .before ∧ ∀ m ∈ rest, m.isConsole = false)
    ⟨rfl, silent⟩ (fun y ends => ends.1) ?_
  rintro m rest y ⟨rfl, silent⟩
  rw [List.forall_mem_cons] at silent
  exact ⟨⟨silent.1, request⟩, fun z moved => ⟨moved, silent.2⟩⟩

namespace Action

theorem keeps_refreshPrompt_turn :
    Keeps (.turn id work) refreshPrompt (.within log) fun _ y =>
      ∃ more, y = .within (log ++ more) ∧ Refreshed (responses more) := by
  simp [refreshPrompt, fetchPrompt]
  rintro (e | value)
  · exact .inl rfl
  · cases named : Package.ofDatum? value with
    | none => simp [named, Refreshed]
    | some p =>
      simp [named, Program.event, Except.map]
      exact .inr ⟨p, rfl⟩

/-- An evaluation shows its markers with the relayed output between them, and then the output of its
result, if it has one. -/
theorem keeps_evaluateMarked_turn (code : String) :
    Keeps (.turn id work) (evaluateMarked code) (.within []) fun r y =>
      ∃ log relayed a, y = .within log ∧ .answered id (.eval code) a ∈ log ∧
        responses log = marked relayed ++ resultOutput a ∧
        (r = .ok .finished → ∃ chunks, a = .ok chunks) ∧
        (r ≠ .ok .finished → ∃ e, a = .error e) := by
  simp [evaluateMarked, Program.event, Program.drive]
  intro before a during after
  rcases a with (e | chunks)
  · cases e <;> simp
    all_goals
      exact ⟨before ++ during ++ after, _, .inr (.inr (.inr (.inl rfl))),
        by simp [marked, resultOutput]⟩
  · simp
    refine (Program.keeps_emitAll_turn _).mono ?_
    rintro _ y rfl
    refine ⟨_, rfl, before ++ during ++ after, .ok chunks, by simp, ?_, fun _ => ⟨chunks, rfl⟩, ?_⟩
    · simp [marked, resultOutput]
    · exact fun failed => absurd rfl failed

/-- What a request has shown when its command ends: nothing outside its turn, and its block and a
prompt within it. -/
def Shown (id : TaskId) (c : Command) (r : Request) (result : Except Failure Outcome) :
    Stage → Prop
  | .before => ∀ m ∈ trailingOf result, m.isConsole = false
  | .within log => Alone result ∧ ∃ block prompt, responses log = block ++ prompt ∧
      Block id log c r block ∧ Refreshed prompt
  | .after => False

variable {c : Command} {r : Request}

theorem shown_before_of_alone {result : Except Failure Outcome} (alone : Alone result) :
    Shown id c r result .before := by
  intro m mem
  rw [trailingOf_alone alone] at mem
  exact absurd mem List.not_mem_nil

theorem keeps_evaluate_turn
    (evaluates : c ∈ [.interactiveEval, .interactiveEvalRegion, .listenerEval, .pprintEval]) :
    Keeps (.turn id work) (evaluate r) .before (Shown id c r) := by
  refine keeps_ofExcept_bind (fun e => shown_before_of_alone alone_error) fun code isCode => ?_
  simp
  refine (keeps_evaluateMarked_turn code).mono ?_
  rintro result y ⟨log, relayed, a, rfl, answered, shown, -, -⟩
  have block : Block id log c r (marked relayed ++ resultOutput a) :=
    .evaluation relayed evaluates isCode answered
  rcases result with e | _ | message
  · exact ⟨alone_error, _, [], by simpa using shown, block, .inl rfl⟩
  all_goals
    simp
    refine keeps_refreshPrompt_turn.mono ?_
    rintro ended y ⟨more, rfl, prompt⟩
    have split : responses (log ++ more) =
        marked relayed ++ resultOutput a ++ responses more := by
      rw [responses_append, shown]
    cases ended with
    | error e => exact ⟨alone_error, _, responses more, split, block.append more, prompt⟩
    | ok _ => exact ⟨by simp [Except.map], _, responses more, split, block.append more, prompt⟩

theorem keeps_compileString_turn (compiles : c ∈ [.compileString, .compileNotes]) :
    Keeps (.turn id work) (compileString r) .before (Shown id c r) := by
  refine keeps_ofExcept_bind (fun e => shown_before_of_alone alone_error) fun source isSource =>
    keeps_ofExcept_bind (fun e => shown_before_of_alone alone_error) fun forms parsed => ?_
  have readable : Datum.readAll source = .ok forms := by
    cases read : Datum.readAll source with
    | error fault => simp [read, Except.mapError] at parsed
    | ok forms' => simpa [read, Except.mapError] using parsed
  simp
  intro started
  refine (keeps_evaluateMarked_turn (prognCommand source)).mono ?_
  rintro result y ⟨log, relayed, a, rfl, answered, shown, finished, failed⟩
  have block : Block id log c r (marked relayed ++ resultOutput a ++ loadedForms forms a) :=
    .compilation relayed compiles isSource readable answered
  rcases result with e | _ | message
  · obtain ⟨failure, rfl⟩ := failed (by simp)
    refine ⟨alone_error, _, [], ?_, block, .inl rfl⟩
    simpa [loadedForms] using shown
  · obtain ⟨chunks, rfl⟩ := finished rfl
    simp
    refine (Program.keeps_emitAll_turn _).mono ?_
    rintro _ y rfl
    simp [Except.map]
    intro now
    refine ⟨by simp, _, [], ?_, block.append _, .inl rfl⟩
    simp [shown, loadedForms]
  · obtain ⟨failure, rfl⟩ := failed (by simp)
    refine ⟨by simp, _, [], ?_, block, .inl rfl⟩
    simpa [loadedForms] using shown

theorem keeps_loadFile_turn :
    Keeps (.turn id work) (loadFile r) .before (Shown id .loadFile r) := by
  refine keeps_ofExcept_bind (fun e => shown_before_of_alone alone_error) fun file isFile => ?_
  simp [Program.event, Program.drive]
  intro before a during after
  have relays (log : List Entry) (answered : .answered id _ a ∈ log) :=
    Block.load (before ++ during ++ after) isFile answered
  rcases a with (_ | _ | _ | _ | (_ | message) | _ | _ | _) | value
  all_goals
    simp [Except.map]
    exact ⟨by simp, _, [], by simp [loadEnd, loadingNotice], relays _ (by simp), .inl rfl⟩

/-! ### Before the turn -/

theorem silent_unwoundMessages (settings : Settings) (levels : List (Nat × Level)) :
    ∀ m ∈ Program.unwoundMessages settings levels, m.isConsole = false := by
  intro m mem
  obtain ⟨⟨number, l⟩, -, mem⟩ := List.mem_flatMap.mp mem
  rcases List.mem_pair.mp mem with rfl | rfl <;> rfl

theorem silent_promptMessages (prompt : Except Failure (Option Package)) :
    ∀ m ∈ promptMessages prompt, m.isConsole = false := by
  rcases prompt with _ | _ | p <;> simp [promptMessages, Package.event]

/-- Leaving debugger levels shows nothing in the console. -/
theorem keeps_invokeRestart_turn (request : work ≠ .interrupt true) (settings : Settings)
    (number index : Nat) :
    Keeps (.turn id work) (invokeRestart settings number index) .before fun returned y =>
      y = .before ∧ ∀ rs, returned = .ok rs → ∀ m ∈ rs, m.isConsole = false := by
  have ignores := Discipline.turn_ignores id work
  simp [invokeRestart, Program.event]
  rintro (_ | r)
  · simp
  · simp
    refine (Program.keeps_emitAll_before request (silent_unwoundMessages settings r.above)).mono ?_
    rintro _ y rfl
    refine ((Program.quiet_applyRestart r.action).keeps ignores).mono ?_
    rintro _ y ⟨-, rfl⟩
    simp [request]
    refine Keeps.mono (quiet_fetchPrompt.keeps ignores) ?_
    rintro prompt y ⟨-, rfl⟩
    refine ⟨rfl, ?_⟩
    rintro _ ⟨rfl⟩
    rw [List.forall_mem_append, List.forall_mem_cons]
    exact ⟨silent_promptMessages prompt, rfl, silent_unwoundMessages settings r.below⟩

theorem keeps_throwToToplevel_turn (request : work ≠ .interrupt true) (settings : Settings) :
    Keeps (.turn id work) (throwToToplevel settings) .before fun returned y =>
      y = .before ∧ ∀ rs, returned = .ok (some rs) → ∀ m ∈ rs, m.isConsole = false := by
  simp [throwToToplevel]
  intro depth
  by_cases outside : depth = 0
  · simp [outside]
  · simp [outside]
    refine (keeps_invokeRestart_turn request settings depth 0).mono ?_
    rintro (e | trailing) y ⟨rfl, silent⟩
    · exact ⟨rfl, fun rs returned => by cases returned⟩
    · refine ⟨rfl, ?_⟩
      rintro _ ⟨rfl⟩
      exact silent trailing rfl

theorem keeps_listenerEval_turn (request : work ≠ .interrupt true) (settings : Settings) :
    Keeps (.turn id work) (listenerEval settings r) .before (Shown id .listenerEval r) := by
  have evaluates : Keeps (.turn id work) (evaluate r) .before (Shown id .listenerEval r) :=
    keeps_evaluate_turn (by simp)
  simp [listenerEval]
  intro depth
  by_cases outside : depth = 0
  · simpa [outside] using evaluates
  · simp [outside]
    refine (keeps_throwToToplevel_turn request settings).mono ?_
    rintro (e | _ | trailing) y ⟨rfl, silent⟩
    · exact shown_before_of_alone alone_error
    · exact evaluates
    · exact silent trailing rfl

theorem keeps_invokeNthRestart_turn (request : work ≠ .interrupt true) (settings : Settings) :
    Keeps (.turn id work) (invokeNthRestart settings r) .before (Shown id c r) := by
  refine keeps_ofExcept_bind (fun e => shown_before_of_alone alone_error) fun number _ =>
    keeps_ofExcept_bind (fun e => shown_before_of_alone alone_error) fun index _ => ?_
  rw [bind_pure_comp, keeps_map]
  refine (keeps_invokeRestart_turn request settings number index).mono ?_
  rintro (e | trailing) y ⟨rfl, silent⟩
  · exact shown_before_of_alone alone_error
  · exact silent trailing rfl

theorem keeps_throwRequest_turn (request : work ≠ .interrupt true) (settings : Settings) :
    Keeps (.turn id work) (throwRequest settings) .before (Shown id c r) := by
  simp only [throwRequest, keeps_bind]
  refine (keeps_throwToToplevel_turn request settings).mono ?_
  rintro (e | _ | trailing) y ⟨rfl, silent⟩
  · exact shown_before_of_alone alone_error
  · have shown : Shown id c r (.ok .nil) .before := shown_before_of_alone (by simp)
    exact shown
  · exact silent trailing rfl

/-- Whatever a command does, it shows its block in its turn, or nothing if it was not admitted. -/
theorem keeps_ofCommand_turn (request : work ≠ .interrupt true) (settings : Settings)
    (host : Host) (c : Command) :
    Keeps (.turn id work) (ofCommand settings host r c) .before (Shown id c r) := by
  cases gated : c.needsGate with
  | true =>
    cases c with
    | listenerEval => exact keeps_listenerEval_turn request settings
    | interactiveEval | interactiveEvalRegion | pprintEval =>
      exact keeps_evaluate_turn (by simp)
    | compileString | compileNotes => exact keeps_compileString_turn (by simp)
    | loadFile => exact keeps_loadFile_turn
    | _ => simp [Command.needsGate] at gated
  | false =>
    cases leaves : c.isRestart with
    | true =>
      cases c with
      | invokeNthRestart => exact keeps_invokeNthRestart_turn request settings
      | throwToToplevel => exact keeps_throwRequest_turn request settings
      | _ => simp [Command.isRestart] at leaves
    | false =>
      have quiet := isQuery_ofCommand settings host r gated leaves
      refine Keeps.mono (quiet.keeps (Discipline.turn_ignores id work)) ?_
      rintro result y ⟨alone, rfl⟩
      exact shown_before_of_alone alone

end Action

namespace Program

/-- A request ends outside its turn by messages that show nothing, in its turn by a conclusion. -/
theorem keeps_conclude_turn (c : Command) (r : Request) {result : Except Failure Outcome}
    {y : Stage} (shown : Action.Shown id c r result y) :
    (conclude r.id result).Keeps (.turn id (.serve c r)) y fun _ z =>
      z = .before ∨ ∃ log, z = .within log ∧ Complete id (.serve c r) log := by
  cases y with
  | before =>
    cases result with
    | ok o =>
      simp [conclude, finish]
      exact (keeps_emitAll_before (by simp) shown).mono fun _ _ ends => .inl ends
    | error e => cases e <;> simp [conclude, finish]
  | within log =>
    obtain ⟨alone, block, prompt, split, shows, refreshed⟩ := shown
    have completes {conclusion : List Response} (ends : Conclusion r.id conclusion) :
        Complete id (.serve c r) (log ++ sentBy id conclusion) :=
      .of_block (by simp [split]) (shows.append _) refreshed ends
    cases result with
    | ok o =>
      have trailing : o.trailing = [] := alone o rfl
      simp [conclude, finish, trailing, emitAll]
      exact completes (.result o.verdict)
    | error e =>
      cases e with
      | interpreter condition =>
        simp [conclude]
        exact fun number => completes (.level number rfl)
      | process detail =>
        simp [conclude]
        exact fun number => completes (.level number rfl)
      | abort message =>
        simp [conclude, finish]
        exact completes (.result _)
      | _ =>
        simp [conclude, finish]
        exact completes (.result _)
  | after => exact shown.elim

/-- The task of a request keeps to its turn. -/
theorem keeps_serve_turn (settings : Settings) (host : Host) (c : Command) (r : Request) :
    (serve settings host c r).Keeps (.turn id (.serve c r)) .before fun _ y =>
      y = .before ∨ y = .after := by
  simp [serve]
  refine (Action.keeps_ofCommand_turn (by simp) settings host c).mono ?_
  intro result y shown
  refine (keeps_conclude_turn c r shown).mono ?_
  rintro _ z (rfl | ⟨log, rfl, complete⟩)
  · simp
  · simpa using complete

/-- Refreshing the prompt after an interrupt tells the editor of it only in its turn. -/
theorem keeps_refreshAfterInterrupt_turn (settings : Settings) :
    (refreshAfterInterrupt settings).Keeps (.turn id (.interrupt true)) .before fun _ y =>
      y = .before ∨ y = .after := by
  simp [refreshAfterInterrupt]
  refine Action.keeps_refreshPrompt_turn.mono ?_
  rintro _ y ⟨more, rfl, refreshed⟩
  simpa [Complete] using refreshed

end Program

end Requests

/-! ### Unfinished turns -/

section Unfinished

variable {id : TaskId} {work : Delivery} {log : List Entry}

/-- Every step may be done with some result. -/
theorem Op.exists_isSeenAs (id : TaskId) (op : Op) : ∃ a es, op.isSeenAs id a es := by
  cases op with
  | emit r => exact ⟨(), _, rfl⟩
  | flush => exact ⟨0, _, [], rfl⟩
  | enter l => exact ⟨(), _, 0, rfl⟩
  | call c relaying => exact ⟨.error (.abort none), _, [], fun _ => rfl, rfl⟩
  | clock | depth | discard => exact ⟨0, _, rfl⟩
  | lockGateWithin => exact ⟨false, _, rfl⟩
  | resolve => exact ⟨none, _, rfl⟩
  | _ => exact ⟨(), _, rfl⟩

/-- What is seen of a task in its turn begins a complete turn; the induction is on what the task has
yet to do. -/
theorem Program.Keeps.exists_complete {p : Program Unit}
    (keeps : p.Keeps (.turn id work) (.within log) fun _ y => y = .before ∨ y = .after) :
    ∃ more, Complete id work (log ++ more) := by
  induction p generalizing log with
  | done v => rcases keeps with ends | ends <;> cases ends
  | step op next ih =>
    obtain ⟨allowed, rest⟩ := keeps
    by_cases releases : op = .releaseGate
    · subst releases
      exact ⟨[], by simpa using allowed⟩
    · obtain ⟨a, es, seen⟩ := op.exists_isSeenAs id
      have moved : (Discipline.turn id work).moves (.within log) op a (.within (log ++ es)) := by
        rw [Discipline.turn_moves_within, if_neg releases]
        exact ⟨es, seen, rfl⟩
      obtain ⟨more, complete⟩ := ih a (rest a _ moved)
      exact ⟨es ++ more, by rwa [← List.append_assoc]⟩

/-- While a task relays the output of a call, chunks may be seen at any time. -/
theorem Program.keeps_relayed {c : Call} {next : c.Answer → Program Unit} {chunk : Chunk}
    {Q : Unit → Stage → Prop}
    (keeps : (step (.call c true) next).Keeps (.turn id work) (.within log) Q) :
    (step (.call c true) next).Keeps (.turn id work)
      (.within (log ++ sentBy id [chunk.response])) Q := by
  refine ⟨trivial, fun a y moved => keeps.2 a y ?_⟩
  rw [Discipline.turn_moves_within, if_neg (by simp)] at moved ⊢
  obtain ⟨_, ⟨chunks, -, rfl⟩, rfl⟩ := moved
  refine ⟨_, ⟨chunk :: chunks, by simp, rfl⟩, ?_⟩
  simp [sentBy]

end Unfinished

end LispBridge
