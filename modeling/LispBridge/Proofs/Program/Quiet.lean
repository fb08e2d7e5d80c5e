import LispBridge.Proofs.Program.Discipline
import LispBridge.Session.Request

/-!
Quiet programs: those that only ask and remember.

A quiet step tells the editor nothing, leaves the gate and the debugger alone and evaluates nothing.
All commands but the evaluations and the restarts are quiet up to their result
(`Action.isQuery_ofCommand`), and what is quiet keeps to every discipline that takes no notice of
quiet steps (`Program.Quiet.keeps`). All of these but one leave the relay alone as well
(`Action.isInquiry_ofCommand`): the one that opens the REPL drops the output there was before.
-/

namespace LispBridge

/-- Whether a call evaluates code of the user. -/
def Call.isEval : Call → Bool
  | .eval _ => true
  | _ => false

/-- Whether a step tells the editor nothing, leaves the gate and the debugger alone and evaluates
nothing. -/
def Op.isQuiet : Op → Bool
  | .turn | .close | .clock | .lockRelay | .unlockRelay | .discard | .depth | .setPackage _ => true
  | .call c relaying => !relaying && !c.isEval
  | .emit _ | .releaseGate | .lockGate | .lockGateWithin _ | .flush | .enter _ | .resolve .. =>
    false

attribute [simp] Call.isEval Op.isQuiet

/-- The discipline of quiet programs; it remembers nothing. -/
def Discipline.quiet : Discipline Unit where
  allows _ op := op.isQuiet = true
  moves x _ _ y := y = x

@[simp] theorem Discipline.quiet_allows {op : Op} {x : Unit} :
    Discipline.quiet.allows x op ↔ op.isQuiet = true := Iff.rfl

@[simp] theorem Discipline.quiet_moves {op : Op} {r : op.Result} {x y : Unit} :
    Discipline.quiet.moves x op r y ↔ y = x := Iff.rfl

/-- A program whose steps are quiet and whose ends are as wanted. -/
def Program.Quiet {α : Type} (p : Program α) (Q : α → Prop) : Prop :=
  p.Keeps .quiet () fun v _ => Q v

/-- Whether a quiet step leaves the relay alone too, so that it waits for no other task. -/
def Op.isAsking : Op → Bool
  | .lockRelay | .unlockRelay | .discard => false
  | op => op.isQuiet

attribute [simp] Op.isAsking

theorem Op.isQuiet_of_isAsking {op : Op} (asks : op.isAsking = true) : op.isQuiet = true := by
  cases op <;> first | exact asks | cases asks

/-- The discipline of programs that only ask; it remembers nothing. -/
def Discipline.asking : Discipline Unit where
  allows _ op := op.isAsking = true
  moves x _ _ y := y = x

@[simp] theorem Discipline.asking_allows {op : Op} {x : Unit} :
    Discipline.asking.allows x op ↔ op.isAsking = true := Iff.rfl

@[simp] theorem Discipline.asking_moves {op : Op} {r : op.Result} {x y : Unit} :
    Discipline.asking.moves x op r y ↔ y = x := Iff.rfl

/-- A program that only asks and remembers, and whose ends are as wanted. -/
def Program.Asks {α : Type} (p : Program α) (Q : α → Prop) : Prop :=
  p.Keeps .asking () fun v _ => Q v

/-- What only asks is quiet. -/
theorem Program.Asks.quiet {α : Type} {p : Program α} {Q : α → Prop} (asks : p.Asks Q) :
    p.Quiet Q := by
  refine (Keeps.simulate (fun _ _ => True) ?_ ?_ trivial asks).mono ?_
  · intro _ _ op _ isAsking
    exact Op.isQuiet_of_isAsking isAsking
  · intro _ _ op r _ _ _ _
    exact ⟨(), rfl, trivial⟩
  · rintro v _ ⟨_, -, ends⟩
    exact ends

/-- A discipline that allows quiet steps in a state and does not notice them there. -/
structure Discipline.Ignores {σ : Type} (D : Discipline σ) (x : σ) : Prop where
  allows (op : Op) : op.isQuiet = true → D.allows x op
  moves (op : Op) (r : op.Result) (y : σ) : op.isQuiet = true → D.moves x op r y → y = x

/-- What is quiet keeps to a discipline that ignores it, and leaves its state as it was. -/
theorem Program.Quiet.keeps {σ α : Type} {D : Discipline σ} {x : σ} {p : Program α}
    {Q : α → Prop} (quiet : p.Quiet Q) (ignores : D.Ignores x) :
    p.Keeps D x fun v y => Q v ∧ y = x := by
  induction p with
  | done v => exact ⟨quiet, rfl⟩
  | step op next ih =>
    obtain ⟨isQuiet, rest⟩ := quiet
    refine ⟨ignores.allows op isQuiet, fun r y moved => ?_⟩
    obtain rfl := ignores.moves op r y isQuiet moved
    exact ih r (rest r () rfl)

/-- An end of a request with no message about other requests behind its result. -/
def Alone (r : Except Failure Outcome) : Prop :=
  ∀ o, r = .ok o → o.trailing = []

@[simp] theorem alone_ok {o : Outcome} : Alone (.ok o) ↔ o.trailing = [] := by
  simp [Alone]

@[simp] theorem alone_error {e : Failure} : Alone (.error e) := by
  simp [Alone]

@[simp] theorem alone_map_ok {r : Except Failure Datum} : Alone (r.map Outcome.ok) := by
  cases r <;> simp [Except.map, Outcome.ok]

@[simp] theorem Outcome.trailing_ok (d : Datum) : (Outcome.ok d).trailing = [] := rfl

@[simp] theorem Outcome.trailing_nil : Outcome.nil.trailing = [] := rfl

@[simp] theorem Outcome.trailing_notAvailable : Action.notAvailable.trailing = [] := rfl

@[simp] theorem Outcome.trailing_ofAbort (message : Option String) :
    (Outcome.ofAbort message).trailing = [] := by
  cases message <;> rfl

/-- Whether a command leaves debugger levels and does nothing else. -/
def Command.isRestart : Command → Bool
  | .invokeNthRestart | .throwToToplevel => true
  | _ => false

namespace Action

/-- An action that is quiet and has no message about other requests. -/
def IsQuery (a : Action Outcome) : Prop :=
  Program.Quiet a.run Alone

/-- An action that only asks and has no message about other requests. -/
def IsInquiry (a : Action Outcome) : Prop :=
  Program.Asks a.run Alone

/-- The spellings of `IsQuery` and `IsInquiry` that the rules for actions apply to. -/
theorem isQuery_iff {a : Action Outcome} : IsQuery a ↔ Keeps .quiet a () fun r _ => Alone r :=
  Iff.rfl

theorem isInquiry_iff {a : Action Outcome} :
    IsInquiry a ↔ Keeps .asking a () fun r _ => Alone r :=
  Iff.rfl

theorem asks_fetchPrompt : Program.Asks fetchPrompt.run fun _ => True := by
  change Keeps .asking fetchPrompt () _
  simp only [fetchPrompt]
  simp
  rintro (e | d) y
  · trivial
  · cases h : Package.ofDatum? d <;> simp [h]

theorem quiet_fetchPrompt : Program.Quiet fetchPrompt.run fun _ => True :=
  asks_fetchPrompt.quiet

/-- A request that asks one command and answers with what it says. -/
theorem isInquiry_ask (text : String) (channel : Channel) :
    IsInquiry (.ok <$> ask (.command text channel)) := by
  simp [isInquiry_iff]

/-- A request that reads an argument first; without it nothing is asked. -/
theorem isInquiry_ofExcept_bind {α : Type} {e : Except Failure α} {f : α → Action Outcome}
    (inquiry : ∀ v, IsInquiry (f v)) : IsInquiry (ofExcept e >>= f) :=
  keeps_ofExcept_bind (fun _ => alone_error) fun v _ => inquiry v

theorem isInquiry_connectionInfo (settings : Settings) (host : Host) :
    IsInquiry (connectionInfo settings host) := by
  simp only [isInquiry_iff, connectionInfo, askInternal]
  simp
  rintro (e | version)
  · trivial
  · rintro (e | name) <;> simp [Except.map]

theorem isQuery_createRepl : IsQuery createRepl := by
  simp only [isQuery_iff, createRepl, keeps_bind]
  refine Keeps.mono quiet_fetchPrompt ?_
  rintro (e | prompt) y -
  · exact alone_error
  · cases prompt <;> simp [Program.discardOutput]

theorem isInquiry_autodoc (r : Request) : IsInquiry (autodoc r) := by
  unfold autodoc
  cases autodocQuestion? r with
  | none => exact alone_ok.mpr rfl
  | some q =>
    simp [isInquiry_iff, askArgumentList, askInternal]
    intro answer
    cases argumentList? answer <;> simp

theorem isInquiry_operatorArglist (r : Request) : IsInquiry (operatorArglist r) := by
  refine isInquiry_ofExcept_bind fun function => ?_
  simp [isInquiry_iff, askArgumentList, askInternal]
  intro answer
  cases argumentList? answer <;> simp

theorem isInquiry_completions (r : Request) : IsInquiry (completions r) := by
  refine isInquiry_ofExcept_bind fun start => ?_
  split
  · exact isInquiry_ask _ _
  · exact isInquiry_ask _ _

theorem isInquiry_setPackage (r : Request) : IsInquiry (setPackage r) := by
  refine isInquiry_ofExcept_bind fun name => ?_
  simp [isInquiry_iff, askRepl]
  rintro (e | d) y
  · trivial
  · cases h : Package.ofDatum? d <;> simp [Except.map, h]

theorem isInquiry_backtrace (settings : Settings) (r : Request) :
    IsInquiry (backtrace settings r) := by
  refine isInquiry_ofExcept_bind fun start => isInquiry_ofExcept_bind fun stop => ?_
  simp [isInquiry_iff]
  rintro (e | frames) <;> simp [Except.map]

theorem isInquiry_quitLisp : IsInquiry quitLisp := by
  simp [isInquiry_iff, quitLisp, Except.map]

/-- Every command but the evaluations, the restarts and the opening of the REPL is an inquiry. -/
theorem isInquiry_ofCommand (settings : Settings) (host : Host) (r : Request) {c : Command}
    (free : c.needsGate = false) (noRestart : c.isRestart = false) (noOpening : c ≠ .createRepl) :
    IsInquiry (ofCommand settings host r c) := by
  cases c with
  | interactiveEval | interactiveEvalRegion | listenerEval | pprintEval | compileString
  | compileNotes | loadFile => simp [Command.needsGate] at free
  | invokeNthRestart | throwToToplevel => simp [Command.isRestart] at noRestart
  | createRepl => exact absurd rfl noOpening
  | compileFile | compileFileIfNeeded => exact isInquiry_ofExcept_bind fun file => alone_ok.mpr rfl
  | connectionInfo => exact isInquiry_connectionInfo settings host
  | autodoc => exact isInquiry_autodoc r
  | operatorArglist => exact isInquiry_operatorArglist r
  | completions => exact isInquiry_completions r
  | simpleCompletions | keywordCompletions | characterCompletions | describeSymbol
  | describeFunction | describeDefinition | expand1 | aproposList | setDefaultDirectory =>
    exact isInquiry_ofExcept_bind fun _ => isInquiry_ask _ _
  | listAllPackageNames | defaultDirectory | clearReplVariables => exact isInquiry_ask _ _
  | setPackage => exact isInquiry_setPackage r
  | backtrace => exact isInquiry_backtrace settings r
  | quitLisp => exact isInquiry_quitLisp
  | fuzzyCompletions | bufferFirstChange | swankRequire | initPresentations | completeForm
  | inspectCurrentCondition | sldbAbort | sldbOut | frameLocalsAndCatchTags | findDefinitions
  | clearReplResults => exact alone_ok.mpr rfl

/-- Every command but the evaluations and the restarts is a query. -/
theorem isQuery_ofCommand (settings : Settings) (host : Host) (r : Request) {c : Command}
    (free : c.needsGate = false) (noRestart : c.isRestart = false) :
    IsQuery (ofCommand settings host r c) := by
  by_cases opens : c = .createRepl
  · subst opens
    exact isQuery_createRepl
  · exact (isInquiry_ofCommand settings host r free noRestart opens).quiet

end Action

namespace Program

/-- Replacing or resetting the interpreter is quiet. -/
theorem quiet_applyRestart (action : Option Restart) :
    Quiet (applyRestart action) fun _ => True := by
  unfold Quiet applyRestart
  split
  · simp
  · simp [restartInterpreter, discardOutput]
    intro answer y
    cases answer <;> simp
  all_goals exact trivial

end Program

end LispBridge
