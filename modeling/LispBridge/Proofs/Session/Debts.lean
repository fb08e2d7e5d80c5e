import LispBridge.Proofs.Program.Quiet
import LispBridge.Proofs.Session.Moves
import Mathlib.Algebra.BigOperators.Group.List.Basic
import Mathlib.Data.Multiset.OrderedMonoid

/-!
Debts: what a task still owes to the editor.

A request owes its result from its arrival on. A debugger level takes over that debt; leaving a
level gives it back to the task that leaves it, together with the duty to tell the editor that the
level is closed. `Discipline.debts` counts both, and `keeps_serve_debts` says that every task that
serves a request pays all it owes, exactly once, whatever the interpreter answers.
-/

namespace LispBridge

/-- Something that the editor is to be told. -/
inductive Debt where
  /-- The result of a request. -/
  | result (id : RequestId)
  /-- That a debugger level is closed. -/
  | closing (number : Nat)
deriving DecidableEq

/-- The debts that a message pays. -/
def Response.paid : Response → Multiset Debt
  | .result _ id => {.result id}
  | .event (.debugReturn number) => {.closing number}
  | .event _ => 0

/-- The debts that a message makes: who announces a debugger level has to tell when it is closed. -/
def Response.promised : Response → Multiset Debt
  | .event (.debug number ..) => {.closing number}
  | _ => 0

/-- The debts that messages pay. -/
def paidBy (rs : List Response) : Multiset Debt :=
  (rs.map Response.paid).sum

/-- The debts of levels that were left, given with their numbers. -/
def owedFor (levels : List (Nat × Level)) : Multiset Debt :=
  (levels.map fun (number, l) => {.closing number, .result l.id}).sum

@[simp] theorem paidBy_nil : paidBy [] = 0 := rfl

@[simp] theorem paidBy_cons (r : Response) (rs : List Response) :
    paidBy (r :: rs) = r.paid + paidBy rs := by
  simp [paidBy]

@[simp] theorem paidBy_append (rs rs' : List Response) :
    paidBy (rs ++ rs') = paidBy rs + paidBy rs' := by
  simp [paidBy]

@[simp] theorem owedFor_nil : owedFor [] = 0 := rfl

@[simp] theorem owedFor_cons (number : Nat) (l : Level) (levels : List (Nat × Level)) :
    owedFor ((number, l) :: levels) = {.closing number, .result l.id} + owedFor levels := by
  simp [owedFor]

@[simp] theorem owedFor_append (levels levels' : List (Nat × Level)) :
    owedFor (levels ++ levels') = owedFor levels + owedFor levels' := by
  simp [owedFor]

/-- The messages about levels that were left pay what is owed for them. -/
@[simp] theorem paidBy_unwoundMessages (settings : Settings) (levels : List (Nat × Level)) :
    paidBy (Program.unwoundMessages settings levels) = owedFor levels := by
  induction levels with
  | nil => rfl
  | cons entry levels ih =>
    obtain ⟨number, l⟩ := entry
    have split : Program.unwoundMessages settings ((number, l) :: levels) =
        .event (.debugReturn number) :: Program.unwoundResult settings l ::
          Program.unwoundMessages settings levels := rfl
    rw [split, paidBy_cons, paidBy_cons, ih, owedFor_cons, ← add_assoc]
    rfl

/-- The debts that a task must have for a step, and has no longer after it: a message pays them, and
a debugger level takes over the result of its request. -/
def Op.due : Op → Multiset Debt
  | .emit r => r.paid
  | .enter l => {.result l.id}
  | _ => 0

/-- The debts that a task takes over in a step: those of the debugger levels that it leaves. -/
def Op.gained : (op : Op) → op.Result → Multiset Debt
  | .resolve number _ => fun
    | some r => owedFor ((number, r.level) :: (r.above ++ r.below))
    | none => 0
  | _ => fun _ => 0

/-- The debts that the message of a step makes. A debugger level is announced where it is entered,
and nowhere else. -/
def Op.promised : Op → Multiset Debt
  | .emit r => r.promised
  | _ => 0

/-- Whether a step leaves debugger levels. -/
def Op.leaves : Op → Bool
  | .resolve .. => true
  | _ => false

attribute [simp] Response.paid Response.promised Op.due Op.gained Op.promised Op.leaves

/-- The discipline of debts: a task pays only what it owes, announces no debugger level but by
entering it, and leaves levels only if it owes something itself. -/
def Discipline.debts : Discipline (Multiset Debt) where
  allows owed op := op.due ≤ owed ∧ op.promised = 0 ∧ (op.leaves = true → owed ≠ 0)
  moves owed op a rest := rest = owed - op.due + op.gained a

namespace Discipline

variable {owed rest : Multiset Debt} {op : Op}

@[simp] theorem debts_allows : debts.allows owed op ↔
    op.due ≤ owed ∧ op.promised = 0 ∧ (op.leaves = true → owed ≠ 0) := Iff.rfl

@[simp] theorem debts_moves {a : op.Result} :
    debts.moves owed op a rest ↔ rest = owed - op.due + op.gained a := Iff.rfl

theorem debts_ignores (owed : Multiset Debt) : debts.Ignores owed where
  allows op quiet := by cases op <;> simp_all
  moves op r y quiet moved := by cases op <;> simp_all

end Discipline

/-! ### Requests pay their debts -/

/-- The messages that follow the result of a request. -/
def trailingOf : Except Failure Outcome → List Response
  | .ok o => o.trailing
  | .error _ => []

@[simp] theorem trailingOf_ok (o : Outcome) : trailingOf (.ok o) = o.trailing := rfl

@[simp] theorem trailingOf_error (e : Failure) : trailingOf (.error e) = [] := rfl

/-- The end of a request that owes, besides its result, what its trailing messages pay. -/
def Owing (owed : Multiset Debt) (trailing : List Response) (rest : Multiset Debt) : Prop :=
  rest = owed + paidBy trailing ∧ ∀ m ∈ trailing, m.promised = 0

theorem owing_nil {owed rest : Multiset Debt} : Owing owed [] rest ↔ rest = owed := by
  simp [Owing]

theorem trailingOf_alone {r : Except Failure Outcome} (alone : Alone r) : trailingOf r = [] := by
  cases r with
  | error e => rfl
  | ok o => exact alone o rfl

namespace Program

variable {owed : Multiset Debt}

/-- Messages pay what they pay and leave the rest. -/
theorem keeps_emitAll_debts (owed : Multiset Debt) {rs : List Response}
    (plain : ∀ m ∈ rs, m.promised = 0) :
    (emitAll rs).Keeps .debts (owed + paidBy rs) fun _ rest => rest = owed := by
  refine keeps_emitAll (fun rs rest => Owing owed rs rest) ⟨rfl, plain⟩ ?_ ?_
  · intro rest owing
    exact owing_nil.mp owing
  · rintro r rs _ ⟨rfl, plain⟩
    rw [List.forall_mem_cons] at plain
    refine ⟨⟨?_, plain.1, by simp⟩, ?_⟩
    · simp [add_left_comm owed]
    · rintro rest rfl
      exact ⟨by simp [add_left_comm owed], plain.2⟩

theorem promised_unwoundMessages (settings : Settings) (levels : List (Nat × Level)) :
    ∀ m ∈ unwoundMessages settings levels, m.promised = 0 := by
  intro m mem
  obtain ⟨⟨number, l⟩, -, mem⟩ := List.mem_flatMap.mp mem
  rcases List.mem_pair.mp mem with rfl | rfl <;> rfl

/-- A request that ends pays its result, or hands it to a debugger level. -/
theorem keeps_conclude {id : RequestId} {r : Except Failure Outcome}
    (plain : ∀ m ∈ trailingOf r, m.promised = 0) :
    (conclude id r).Keeps .debts ({.result id} + paidBy (trailingOf r))
      fun _ rest => rest = 0 := by
  cases r with
  | ok o =>
    simp [conclude, finish]
    simpa using keeps_emitAll_debts 0 plain
  | error e =>
    cases e <;>
      simp [conclude, finish, Level.ofCondition, Level.ofProcessFailure]

end Program

namespace Action

variable {owed : Multiset Debt}

theorem keeps_fetchPrompt_debts : Keeps .debts fetchPrompt owed fun _ rest => rest = owed :=
  (quiet_fetchPrompt.keeps (Discipline.debts_ignores owed)).mono fun _ _ ends => ends.2

theorem keeps_refreshPrompt_debts : Keeps .debts refreshPrompt owed fun _ rest => rest = owed := by
  unfold refreshPrompt
  rw [keeps_bind]
  refine keeps_fetchPrompt_debts.mono ?_
  rintro (e | _ | p) rest rfl
  · rfl
  · rfl
  · simp [Program.event, Package.event]

/-- Messages that are neither results nor about debugger levels have no part in debts. -/
theorem keeps_emitAll_free {rs : List Response}
    (free : ∀ m ∈ rs, m.paid = 0 ∧ m.promised = 0) :
    (Program.emitAll rs).Keeps .debts owed fun _ rest => rest = owed := by
  have paid : paidBy rs = 0 := List.sum_eq_zero (by simpa using fun m mem => (free m mem).1)
  simpa [paid] using Program.keeps_emitAll_debts owed fun m mem => (free m mem).2

theorem keeps_evaluateMarked_debts (code : String) :
    Keeps .debts (evaluateMarked code) owed fun _ rest => rest = owed := by
  simp [evaluateMarked, Program.event, Program.drive]
  rintro ((_ | _ | _ | _ | message | _ | _ | _) | chunks) <;> simp
  exact keeps_emitAll_free (by simp [Chunk.response])

/-- An evaluation owes nothing but its result. -/
theorem keeps_evaluate_debts (r : Request) :
    Keeps .debts (evaluate r) owed fun result rest => Alone result ∧ rest = owed := by
  refine keeps_ofExcept_bind (by simp) fun code _ => ?_
  simp
  refine (keeps_evaluateMarked_debts code).mono ?_
  rintro (e | _ | message) rest rfl
  · simp
  all_goals
    simp
    refine keeps_refreshPrompt_debts.mono ?_
    rintro (e | _) rest rfl <;> simp [Except.map]

theorem keeps_compileString_debts (r : Request) :
    Keeps .debts (compileString r) owed fun result rest => Alone result ∧ rest = owed := by
  refine keeps_ofExcept_bind (by simp) fun source _ =>
    keeps_ofExcept_bind (by simp) fun forms _ => ?_
  simp
  intro started
  refine (keeps_evaluateMarked_debts _).mono ?_
  rintro (e | _ | message) rest rfl
  · simp
  · simp
    refine (keeps_emitAll_free (by simp [loadedNotice])).mono ?_
    rintro _ rest rfl
    simp [Except.map]
  · simp

theorem keeps_loadFile_debts (r : Request) :
    Keeps .debts (loadFile r) owed fun result rest => Alone result ∧ rest = owed := by
  refine keeps_ofExcept_bind (by simp) fun file _ => ?_
  simp [Program.event, Program.drive]
  rintro ((_ | _ | _ | _ | (_ | message) | _ | _ | _) | value) <;> simp [Except.map]

/-! ### Leaving debugger levels -/

/-- A restart that fails leaves all debts as they were; otherwise the messages that it returns are
those that the request has yet to send. -/
def Returned (owed : Multiset Debt) (returned : Except Failure (List Response))
    (rest : Multiset Debt) : Prop :=
  match returned with
  | .ok trailing => Owing owed trailing rest
  | .error _ => rest = owed

@[simp] theorem paidBy_promptMessages (prompt : Except Failure (Option Package)) :
    paidBy (promptMessages prompt) = 0 := by
  rcases prompt with _ | _ | p <;> rfl

theorem promised_promptMessages (prompt : Except Failure (Option Package)) :
    ∀ m ∈ promptMessages prompt, m.promised = 0 := by
  rcases prompt with _ | _ | p <;> simp [promptMessages, Package.event]

theorem keeps_invokeRestart_debts (indebted : owed ≠ 0) (settings : Settings)
    (number index : Nat) :
    Keeps .debts (invokeRestart settings number index) owed (Returned owed) := by
  simp [invokeRestart, Program.event, indebted]
  rintro (_ | r)
  · simp [Returned]
  · -- The closings and results of the levels above go out first, then the closing of the level.
    have above := Program.keeps_emitAll_debts
      (.closing number ::ₘ .result r.level.id ::ₘ (owed + owedFor r.below))
      (Program.promised_unwoundMessages settings r.above)
    have total : Debt.closing number ::ₘ Debt.result r.level.id ::ₘ
        (owed + (owedFor r.above + owedFor r.below)) =
          (.closing number ::ₘ .result r.level.id ::ₘ (owed + owedFor r.below)) +
            paidBy (Program.unwoundMessages settings r.above) := by
      simp [add_left_comm, add_comm]
    simp
    rw [total]
    refine above.mono ?_
    rintro _ rest rfl
    refine ((Program.quiet_applyRestart r.action).keeps (Discipline.debts_ignores _)).mono ?_
    rintro _ rest ⟨-, rfl⟩
    simp
    refine keeps_fetchPrompt_debts.mono ?_
    rintro prompt rest rfl
    refine ⟨by simp [Program.unwoundResult], ?_⟩
    rw [List.forall_mem_append, List.forall_mem_cons]
    exact ⟨promised_promptMessages prompt, rfl,
      Program.promised_unwoundMessages settings r.below⟩

theorem keeps_throwToToplevel_debts (indebted : owed ≠ 0) (settings : Settings) :
    Keeps .debts (throwToToplevel settings) owed fun returned rest =>
      Returned owed (returned.map (·.getD [])) rest := by
  simp [throwToToplevel]
  intro depth
  by_cases outside : depth = 0
  · simp [outside, Returned, Except.map, owing_nil]
  · simp [outside]
    refine (keeps_invokeRestart_debts indebted settings depth 0).mono ?_
    rintro (e | trailing) rest returned <;> exact returned

/-! ### Commands -/

/-- What a request owes at the end of its command: its result is not among it. -/
def Settled (owed : Multiset Debt) (result : Except Failure Outcome) (rest : Multiset Debt) :
    Prop :=
  Owing owed (trailingOf result) rest

theorem settled_of_alone {result : Except Failure Outcome} (alone : Alone result) :
    Settled owed result owed := by
  rw [Settled, trailingOf_alone alone, owing_nil]

theorem keeps_evaluate_settled (r : Request) :
    Keeps .debts (evaluate r) owed (Settled owed) :=
  (keeps_evaluate_debts r).mono fun | _, _, ⟨alone, rfl⟩ => settled_of_alone alone

theorem keeps_listenerEval_debts (indebted : owed ≠ 0) (settings : Settings) (r : Request) :
    Keeps .debts (listenerEval settings r) owed (Settled owed) := by
  simp [listenerEval]
  intro depth
  by_cases outside : depth = 0
  · simpa [outside] using keeps_evaluate_settled r
  · simp [outside]
    refine (keeps_throwToToplevel_debts indebted settings).mono ?_
    rintro (e | _ | trailing) rest returned
    · exact owing_nil.mpr returned
    · obtain rfl := owing_nil.mp returned
      exact keeps_evaluate_settled r
    · exact returned

theorem keeps_invokeNthRestart_debts (indebted : owed ≠ 0) (settings : Settings) (r : Request) :
    Keeps .debts (invokeNthRestart settings r) owed (Settled owed) := by
  have failed (e : Failure) : Settled owed (.error e) owed := settled_of_alone alone_error
  refine keeps_ofExcept_bind failed fun number _ => keeps_ofExcept_bind failed fun index _ => ?_
  rw [bind_pure_comp, keeps_map]
  refine (keeps_invokeRestart_debts indebted settings number index).mono ?_
  rintro (e | trailing) rest returned
  · exact owing_nil.mpr returned
  · exact returned

theorem keeps_throwRequest_debts (indebted : owed ≠ 0) (settings : Settings) :
    Keeps .debts (throwRequest settings) owed (Settled owed) := by
  simp only [throwRequest, keeps_bind]
  refine (keeps_throwToToplevel_debts indebted settings).mono ?_
  rintro (e | _ | trailing) rest returned
  · exact owing_nil.mpr returned
  · exact returned
  · exact returned

/-- Whatever a command does, at its end the request owes its result and what its trailing messages
pay, and nothing else. -/
theorem keeps_ofCommand_debts (indebted : owed ≠ 0) (settings : Settings) (host : Host)
    (r : Request) (c : Command) :
    Keeps .debts (ofCommand settings host r c) owed (Settled owed) := by
  cases gated : c.needsGate with
  | true =>
    cases c with
    | listenerEval => exact keeps_listenerEval_debts indebted settings r
    | interactiveEval | interactiveEvalRegion | pprintEval => exact keeps_evaluate_settled r
    | compileString | compileNotes =>
      exact (keeps_compileString_debts r).mono fun
        | _, _, ⟨alone, rfl⟩ => settled_of_alone alone
    | loadFile =>
      exact (keeps_loadFile_debts r).mono fun
        | _, _, ⟨alone, rfl⟩ => settled_of_alone alone
    | _ => simp [Command.needsGate] at gated
  | false =>
    cases leaves : c.isRestart with
    | true =>
      cases c with
      | invokeNthRestart => exact keeps_invokeNthRestart_debts indebted settings r
      | throwToToplevel => exact keeps_throwRequest_debts indebted settings
      | _ => simp [Command.isRestart] at leaves
    | false =>
      have quiet := isQuery_ofCommand settings host r gated leaves
      exact (quiet.keeps (Discipline.debts_ignores owed)).mono fun
        | _, _, ⟨alone, rfl⟩ => settled_of_alone alone

end Action

/-! ### Tasks -/

namespace Program

/-- The task of a request owes its result when it begins and nothing when it ends. -/
theorem keeps_serve_debts (settings : Settings) (host : Host) (command : Command) (r : Request) :
    (serve settings host command r).Keeps .debts {.result r.id} fun _ rest => rest = 0 := by
  simp [serve]
  have indebted := Multiset.singleton_ne_zero (Debt.result r.id)
  refine (Action.keeps_ofCommand_debts indebted settings host r command).mono ?_
  rintro result _ ⟨rfl, plain⟩
  exact keeps_conclude plain

/-- Refreshing the prompt after an interrupt owes nothing. -/
theorem keeps_refreshAfterInterrupt_debts (settings : Settings) :
    (refreshAfterInterrupt settings).Keeps .debts 0 fun _ rest => rest = 0 := by
  simp [refreshAfterInterrupt]
  exact Action.keeps_refreshPrompt_debts

/-- Nor does delivering text to a pending read. -/
theorem keeps_deliverInput_debts (text : String) :
    (deliverInput text).Keeps .debts 0 fun _ rest => rest = 0 := by
  simp [deliverInput, event]
  rintro (_ | _) <;> simp

end Program

end LispBridge
