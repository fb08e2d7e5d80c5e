import LispBridge.Proofs.Program.Quiet

/-!
How programs use the relay.

A use of the relay is a few steps in a row: waiting for its lock, taking output, perhaps with an
evaluation in the middle, and giving the lock back. `RelayPhase.after?` is the automaton of these
steps. Every program of the system is tidy (`Program.tidy_serve` and the others): it uses the relay
in no other way, and evaluates only while it relays.
-/

namespace LispBridge

/-- How far a program is in a use of the relay. -/
inductive RelayPhase where
  /-- It has no part in the relay. -/
  | idle
  /-- It has waited for the lock, and has taken nothing yet. -/
  | holding
  | working
  | closing
  | leaving
deriving DecidableEq, Repr

/-- Whether a step has no part in the relay and evaluates nothing. -/
def Op.isPlain : Op → Bool
  | .lockRelay | .unlockRelay | .flush | .discard => false
  | .call c relaying => !relaying && !c.isEval
  | _ => true

/-- The phase after a step, if the step may be done in a phase. -/
def RelayPhase.after? : RelayPhase → Op → Option RelayPhase
  | idle, .lockRelay => some holding
  | idle, op => if op.isPlain then some idle else none
  | holding, .flush => some working
  | holding, .discard => some leaving
  | working, .call _ true => some closing
  | closing, .flush => some leaving
  | leaving, .unlockRelay => some idle
  | _, _ => none

attribute [simp] Op.isPlain RelayPhase.after?

/-- The steps from phase to phase. -/
inductive RelayPhase.Step : RelayPhase → Op → RelayPhase → Prop where
  | plain {op : Op} : op.isPlain = true → Step .idle op .idle
  | ask : Step .idle .lockRelay .holding
  /-- Output is forwarded before a call. -/
  | begin : Step .holding .flush .working
  /-- Output is dropped, and nothing more. -/
  | drop : Step .holding .discard .leaving
  | work {c : Call} : Step .working (.call c true) .closing
  /-- Output is forwarded after a call. -/
  | close : Step .closing .flush .leaving
  | leave : Step .leaving .unlockRelay .idle

theorem RelayPhase.step_of_after? {phase phase' : RelayPhase} {op : Op}
    (after : phase.after? op = some phase') : phase.Step op phase' := by
  cases phase with
  | idle =>
    by_cases asks : op = .lockRelay
    · subst asks
      cases after
      exact .ask
    · simp only [after?] at after
      split at after
      · next plain =>
        cases after
        exact .plain plain
      · cases after
  | holding =>
    cases op with
    | flush => cases after; exact .begin
    | discard => cases after; exact .drop
    | _ => cases after
  | working =>
    cases op with
    | call c relaying =>
      cases relaying with
      | true => cases after; exact .work
      | false => cases after
    | _ => cases after
  | closing =>
    cases op with
    | flush => cases after; exact .close
    | _ => cases after
  | leaving =>
    cases op with
    | unlockRelay => cases after; exact .leave
    | _ => cases after

/-- The discipline of using the relay. -/
def Discipline.relayUse : Discipline RelayPhase where
  allows phase op := (phase.after? op).isSome
  moves phase op _ phase' := phase.after? op = some phase'

@[simp] theorem Discipline.relayUse_allows {phase : RelayPhase} {op : Op} :
    Discipline.relayUse.allows phase op ↔ (phase.after? op).isSome := Iff.rfl

@[simp] theorem Discipline.relayUse_moves {phase phase' : RelayPhase} {op : Op} {r : op.Result} :
    Discipline.relayUse.moves phase op r phase' ↔ phase.after? op = some phase' := Iff.rfl

/-- A program that uses the relay as it should from some phase on, to the end of the use. -/
def Program.TidyFrom {α : Type} (phase : RelayPhase) (p : Program α) : Prop :=
  p.Keeps .relayUse phase fun _ y => y = .idle

/-- A program that uses the relay as it should. -/
abbrev Program.Tidy {α : Type} (p : Program α) : Prop :=
  p.TidyFrom .idle

namespace Program

variable {α β : Type}

theorem after?_of_isPlain {op : Op} (plain : op.isPlain = true) :
    RelayPhase.idle.after? op = some .idle := by
  cases op <;> simp_all

theorem tidy_pure (v : α) : Tidy (pure v) := rfl

theorem tidy_perform {op : Op} (plain : op.isPlain = true) : Tidy (perform op) := by
  refine ⟨Option.isSome_iff_exists.mpr ⟨_, after?_of_isPlain plain⟩, fun _ phase moved => ?_⟩
  rw [Discipline.relayUse_moves, after?_of_isPlain plain] at moved
  exact (Option.some.inj moved).symm

theorem tidy_bind {p : Program α} {f : α → Program β} (first : p.Tidy)
    (rest : ∀ v, (f v).Tidy) : (p >>= f).Tidy := by
  rw [Tidy, TidyFrom, keeps_bind]
  refine first.mono ?_
  rintro v _ rfl
  exact rest v

/-- What only asks has no part in the relay. -/
theorem Asks.tidy {p : Program α} {Q : α → Prop} (asks : p.Asks Q) : p.Tidy := by
  refine (Keeps.simulate (fun _ phase => phase = .idle) ?_ ?_ rfl asks).mono ?_
  · rintro _ _ op rfl isAsking
    cases op <;> simp_all
  · rintro _ _ op r phase rfl isAsking moved
    refine ⟨(), rfl, ?_⟩
    cases op <;> simp_all
  · rintro _ _ ⟨-, same, -⟩
    exact same

theorem tidy_emitAll (rs : List Response) : Tidy (emitAll rs) := by
  refine keeps_emitAll (fun _ phase => phase = .idle) rfl (fun _ same => same) ?_
  rintro r rs _ rfl
  refine ⟨rfl, fun phase moved => ?_⟩
  exact (Option.some.inj moved).symm

/-- Output is relayed during a call, which it is not before or after. -/
theorem tidy_drive (c : Call) : Tidy (drive c) := by
  simp [drive, Tidy, TidyFrom]

theorem tidy_discardOutput : Tidy discardOutput := by
  simp [discardOutput, Tidy, TidyFrom]

/-- Replacing the interpreter drops its output, which is tidy. -/
theorem tidy_applyRestart (action : Option Restart) : Tidy (applyRestart action) := by
  unfold applyRestart
  split
  · exact tidy_bind (tidy_perform rfl) fun _ => tidy_pure _
  · refine tidy_bind (tidy_bind (tidy_perform rfl) fun answer => ?_) fun _ =>
      tidy_bind tidy_discardOutput fun _ => tidy_pure _
    cases answer with
    | error => exact tidy_pure _
    | ok => exact tidy_bind (tidy_perform rfl) fun _ => tidy_pure _
  all_goals exact tidy_pure _

end Program

namespace Action

variable {α β : Type}

theorem tidy_lift {p : Program α} (tidy : p.Tidy) : (liftM p : Action α).run.Tidy :=
  Action.keeps_lift.mpr tidy

theorem tidy_ofExcept (e : Except Failure α) : (ofExcept e).run.Tidy := rfl

theorem tidy_bind {a : Action α} {f : α → Action β} (first : a.run.Tidy)
    (rest : ∀ v, (f v).run.Tidy) : (a >>= f).run.Tidy := by
  rw [ExceptT.run_bind]
  refine Program.tidy_bind first ?_
  rintro (e | v)
  · rfl
  · exact rest v

theorem tidy_createRepl : createRepl.run.Tidy := by
  refine tidy_bind asks_fetchPrompt.tidy fun prompt => ?_
  refine tidy_bind (tidy_lift Program.tidy_discardOutput) fun _ => ?_
  cases prompt <;> rfl

theorem tidy_refreshPrompt : refreshPrompt.run.Tidy := by
  refine tidy_bind asks_fetchPrompt.tidy ?_
  rintro (_ | p)
  · rfl
  · exact tidy_lift (Program.tidy_perform rfl)

theorem tidy_evaluateMarked (code : String) : (evaluateMarked code).run.Tidy := by
  refine tidy_bind (tidy_lift (Program.tidy_perform rfl)) fun _ => ?_
  refine tidy_bind (tidy_lift (Program.tidy_drive _)) fun answer => ?_
  refine tidy_bind (tidy_lift (Program.tidy_perform rfl)) fun _ => ?_
  rcases answer with e | chunks
  · cases e <;> rfl
  · exact tidy_bind (tidy_lift (Program.tidy_emitAll _)) fun _ => rfl

theorem tidy_evaluate (r : Request) : (evaluate r).run.Tidy := by
  refine tidy_bind (tidy_ofExcept _) fun code => ?_
  refine tidy_bind (tidy_lift (Program.tidy_perform rfl)) fun _ => ?_
  refine tidy_bind (tidy_evaluateMarked code) fun ended => ?_
  cases ended
  all_goals exact tidy_bind tidy_refreshPrompt fun _ => rfl

theorem tidy_compileString (r : Request) : (compileString r).run.Tidy := by
  refine tidy_bind (tidy_ofExcept _) fun source => ?_
  refine tidy_bind (tidy_ofExcept _) fun forms => ?_
  refine tidy_bind (tidy_lift (Program.tidy_perform rfl)) fun _ => ?_
  refine tidy_bind (tidy_lift (Program.tidy_perform rfl)) fun _ => ?_
  refine tidy_bind (tidy_evaluateMarked _) fun ended => ?_
  cases ended with
  | aborted message => rfl
  | finished =>
    refine tidy_bind (tidy_lift (Program.tidy_emitAll _)) fun _ => ?_
    exact tidy_bind (tidy_lift (Program.tidy_perform rfl)) fun _ => rfl

theorem tidy_loadFile (r : Request) : (loadFile r).run.Tidy := by
  refine tidy_bind (tidy_ofExcept _) fun file => ?_
  refine tidy_bind (tidy_lift (Program.tidy_perform rfl)) fun _ => ?_
  refine tidy_bind (tidy_lift (Program.tidy_perform rfl)) fun _ => ?_
  refine tidy_bind (tidy_lift (Program.tidy_drive _)) fun answer => ?_
  rcases answer with (_ | _ | _ | _ | (_ | message) | _ | _ | _) | value
  all_goals
    first
    | rfl
    | exact tidy_bind (tidy_lift (Program.tidy_perform rfl)) fun _ => rfl

theorem tidy_invokeRestart (settings : Settings) (number index : Nat) :
    (invokeRestart settings number index).run.Tidy := by
  refine tidy_bind (tidy_lift (Program.tidy_perform rfl)) fun resolved => ?_
  cases resolved with
  | none => rfl
  | some resolution =>
    refine tidy_bind (tidy_lift (Program.tidy_emitAll _)) fun _ => ?_
    refine tidy_bind (tidy_lift (Program.tidy_applyRestart _)) fun _ => ?_
    refine tidy_bind (tidy_lift (Program.tidy_perform rfl)) fun _ => ?_
    exact tidy_bind (tidy_lift asks_fetchPrompt.tidy) fun _ => rfl

theorem tidy_throwToToplevel (settings : Settings) : (throwToToplevel settings).run.Tidy := by
  refine tidy_bind (tidy_lift (Program.tidy_perform rfl)) fun depth => ?_
  split
  · rfl
  · exact tidy_bind (tidy_invokeRestart settings _ 0) fun _ => rfl

theorem tidy_listenerEval (settings : Settings) (r : Request) :
    (listenerEval settings r).run.Tidy := by
  refine tidy_bind (tidy_lift (Program.tidy_perform rfl)) fun depth => ?_
  split
  · exact tidy_evaluate r
  · refine tidy_bind (tidy_lift (Program.tidy_perform rfl)) fun _ => ?_
    refine tidy_bind (tidy_throwToToplevel settings) fun left => ?_
    cases left with
    | none => exact tidy_evaluate r
    | some trailing => rfl

/-- Whatever a command does, it uses the relay as it should. -/
theorem tidy_ofCommand (settings : Settings) (host : Host) (r : Request) (c : Command) :
    (ofCommand settings host r c).run.Tidy := by
  cases gated : c.needsGate with
  | true =>
    cases c with
    | interactiveEval | interactiveEvalRegion | pprintEval => exact tidy_evaluate r
    | listenerEval => exact tidy_listenerEval settings r
    | compileString | compileNotes => exact tidy_compileString r
    | loadFile => exact tidy_loadFile r
    | _ => cases gated
  | false =>
    cases leaves : c.isRestart with
    | false =>
      by_cases opens : c = .createRepl
      · subst opens
        exact tidy_createRepl
      · exact (isInquiry_ofCommand settings host r gated leaves opens).tidy
    | true =>
      cases c with
      | invokeNthRestart =>
        refine tidy_bind (tidy_ofExcept _) fun number => ?_
        refine tidy_bind (tidy_ofExcept _) fun index => ?_
        exact tidy_bind (tidy_invokeRestart settings number index) fun _ => rfl
      | throwToToplevel =>
        refine tidy_bind (tidy_throwToToplevel settings) fun left => ?_
        cases left <;> rfl
      | _ => cases leaves

end Action

namespace Program

theorem tidy_conclude (id : RequestId) (result : Except Failure Outcome) :
    Tidy (conclude id result) := by
  rcases result with e | outcome
  · cases e <;> exact tidy_perform rfl
  · exact tidy_bind (tidy_perform rfl) fun _ => tidy_emitAll _

theorem tidy_serve (settings : Settings) (host : Host) (c : Command) (r : Request) :
    Tidy (serve settings host c r) := by
  refine tidy_bind (tidy_perform rfl) fun _ => ?_
  refine tidy_bind (Action.tidy_ofCommand settings host r c) fun result => ?_
  exact tidy_bind (tidy_conclude r.id result) fun _ => tidy_perform rfl

theorem tidy_refreshAfterInterrupt (settings : Settings) :
    Tidy (refreshAfterInterrupt settings) := by
  refine tidy_bind (tidy_perform rfl) fun _ => ?_
  refine tidy_bind (tidy_perform rfl) fun admitted => ?_
  cases admitted with
  | false => exact tidy_pure _
  | true => exact tidy_bind Action.tidy_refreshPrompt fun _ => tidy_perform rfl

theorem tidy_deliverInput (text : String) : Tidy (deliverInput text) := by
  refine tidy_bind (tidy_perform rfl) fun _ => ?_
  refine tidy_bind (tidy_perform rfl) fun answer => ?_
  cases answer with
  | error failure => exact tidy_pure _
  | ok _ => exact tidy_perform rfl

end Program

end LispBridge
