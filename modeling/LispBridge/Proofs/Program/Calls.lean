import LispBridge.Proofs.Program.Discipline
import LispBridge.Session.Query

/-!
What a program asks of the interpreter.

`p.CallsFor calls` says that a program makes these calls and no others, in this order, whatever the
results of its steps are. An action that fails makes no further calls, so the rules for actions tell
apart what may fail (`callsFor_then`) from what does not (`callsFor_lift_bind`).
-/

namespace LispBridge

/-- The call that a step makes. -/
def Op.call? : Op → Option Call
  | .call c _ => some c
  | _ => none

attribute [simp] Op.call?

/-- The discipline that allows everything and remembers the calls. -/
def Discipline.calls : Discipline (List Call) where
  allows _ _ := True
  moves made op _ made' := made' = made ++ op.call?.toList

@[simp] theorem Discipline.calls_allows {op : Op} {made : List Call} :
    Discipline.calls.allows made op ↔ True := Iff.rfl

@[simp] theorem Discipline.calls_moves {op : Op} {r : op.Result} {made made' : List Call} :
    Discipline.calls.moves made op r made' ↔ made' = made ++ op.call?.toList := Iff.rfl

namespace Program

variable {α β : Type} {calls later : List Call}

/-- Whether a program makes exactly these calls, in this order, whatever the results of its steps
are. -/
def CallsFor (p : Program α) (calls : List Call) : Prop :=
  ∀ made, p.Keeps .calls made fun _ made' => made' = made ++ calls

theorem callsFor_pure (v : α) : CallsFor (pure v) [] := by
  intro made
  simp

theorem callsFor_perform (op : Op) : (perform op).CallsFor op.call?.toList := by
  intro made
  simp

theorem CallsFor.bind {p : Program α} {f : α → Program β} (first : p.CallsFor calls)
    (next : ∀ v, (f v).CallsFor later) : (p >>= f).CallsFor (calls ++ later) := by
  intro made
  rw [keeps_bind]
  refine (first made).mono ?_
  rintro v _ rfl
  refine (next v _).mono ?_
  rintro _ _ rfl
  rw [List.append_assoc]

theorem callsFor_emitAll (rs : List Response) : (emitAll rs).CallsFor [] := by
  induction rs with
  | nil => exact callsFor_pure ()
  | cons r rs ih => exact (callsFor_perform (.emit r)).bind fun _ => ih

theorem callsFor_drive (c : Call) : (drive c).CallsFor [c] :=
  (callsFor_perform .lockRelay).bind fun _ =>
    (callsFor_perform .flush).bind fun _ =>
      (callsFor_perform (.call c true)).bind fun _ =>
        (callsFor_perform .flush).bind fun _ =>
          (callsFor_perform .unlockRelay).bind fun _ => callsFor_pure _

end Program

namespace Action

variable {α β : Type} {calls later : List Call}

/-- Whether an action makes exactly these calls, in this order, whatever the results of its steps
are. -/
def CallsFor (a : Action α) (calls : List Call) : Prop :=
  Program.CallsFor a.run calls

theorem callsFor_pure (v : α) : CallsFor (pure v) [] :=
  Program.callsFor_pure (Except.ok v)

theorem callsFor_throw (e : Failure) : CallsFor (throw e : Action α) [] :=
  Program.callsFor_pure (Except.error e)

/-- What may fail is followed by no further calls. -/
theorem callsFor_then {a : Action α} {f : α → Action β} (first : a.CallsFor calls)
    (next : ∀ v, (f v).CallsFor []) : (a >>= f).CallsFor calls := by
  have whole : Program.CallsFor (a >>= f).run (calls ++ []) := by
    rw [ExceptT.run_bind]
    refine Program.CallsFor.bind first fun r => ?_
    cases r with
    | ok v => exact next v
    | error e => exact Program.callsFor_pure _
  rwa [List.append_nil] at whole

/-- What does not fail may be followed by further calls. -/
theorem callsFor_lift_bind {p : Program α} {f : α → Action β} (first : p.CallsFor calls)
    (next : ∀ v, (f v).CallsFor later) : CallsFor (liftM p >>= f) (calls ++ later) := by
  have program : (liftM p >>= f : Action β).run = p >>= fun v => (f v).run := by
    rw [ExceptT.run_bind]
    show (Except.ok <$> p) >>= _ = _
    rw [map_eq_pure_bind, bind_assoc]
    rfl
  have whole := Program.CallsFor.bind first next
  rwa [← program] at whole

theorem callsFor_attempt_bind {a : Action α} {f : Except Failure α → Action β}
    (first : a.CallsFor calls) (next : ∀ r, (f r).CallsFor later) :
    CallsFor (a.attempt >>= f) (calls ++ later) :=
  callsFor_lift_bind first next

theorem callsFor_perform_bind {op : Op} {f : op.Result → Action β}
    (next : ∀ r, (f r).CallsFor later) :
    CallsFor (liftM (Program.perform op) >>= f) (op.call?.toList ++ later) :=
  callsFor_lift_bind (Program.callsFor_perform op) next

theorem callsFor_map {a : Action α} (calls' : a.CallsFor calls) (f : α → β) :
    CallsFor (f <$> a) calls := by
  rw [map_eq_pure_bind]
  exact callsFor_then calls' fun _ => callsFor_pure _

theorem ofExcept_ok_bind {e : Except Failure α} {v : α} (known : e = .ok v) (f : α → Action β) :
    ofExcept e >>= f = f v := by
  rw [known]
  rfl

/-! ### Commands and evaluations -/

theorem callsFor_askInternal (text : String) :
    (askInternal text).CallsFor [.command text .internal] :=
  Program.callsFor_perform (.call (.command text .internal) false)

theorem callsFor_askRepl (text : String) : (askRepl text).CallsFor [.command text .repl] :=
  Program.callsFor_perform (.call (.command text .repl) false)

theorem callsFor_evaluateMarked (code : String) : (evaluateMarked code).CallsFor [.eval code] := by
  refine callsFor_perform_bind fun _ => ?_
  refine callsFor_attempt_bind (Program.callsFor_drive (.eval code)) fun answer => ?_
  refine callsFor_perform_bind fun _ => ?_
  cases answer with
  | ok chunks =>
    exact callsFor_lift_bind (Program.callsFor_emitAll _) fun _ => callsFor_pure _
  | error e =>
    cases e with
    | abort message => exact callsFor_pure _
    | _ => exact callsFor_throw _

end Action

end LispBridge
