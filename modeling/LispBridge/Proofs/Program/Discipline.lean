import LispBridge.Session.Program

/-!
Disciplines: what a task may do, in view of what it did before.

A discipline is an automaton over the steps of a program. `Program.Keeps D p x Q` says that `p`,
started in state `x`, does only what `D` allows, whatever the results of its steps are, and that
each of its ends satisfies `Q`. It is the weakest precondition of a program, so it is computed along
the program: `keeps_bind` and the rules for actions are equivalences.
-/

namespace LispBridge

/-- An automaton over the steps of a program. Several states may follow one step, for what the
result of the step does not tell. -/
structure Discipline (σ : Type) where
  allows : σ → Op → Prop
  moves (x : σ) (op : Op) : op.Result → σ → Prop

namespace Program

variable {σ α β : Type}

/-! ### The monad of programs -/

@[simp] theorem pure_eq_done (v : α) : (pure v : Program α) = done v := rfl

@[simp] theorem done_bind (v : α) (f : α → Program β) : done v >>= f = f v := rfl

@[simp] theorem step_bind (op : Op) (next : op.Result → Program α) (f : α → Program β) :
    step op next >>= f = step op fun r => next r >>= f := rfl

-- The type of a step's result depends on the step, so rules for one step are stated on `step`.
@[simp] theorem perform_eq_step (op : Op) : perform op = step op done := rfl

@[simp] theorem ask_eq_step (c : Call) : ask c = step (.call c false) done := rfl

theorem bind_done (p : Program α) : p >>= done = p := by
  induction p with
  | done v => rfl
  | step op next ih => exact congrArg (step op) (funext ih)

theorem bind_assoc {γ : Type} (p : Program α) (f : α → Program β) (g : β → Program γ) :
    p >>= f >>= g = p >>= fun v => f v >>= g := by
  induction p with
  | done v => rfl
  | step op next ih => exact congrArg (step op) (funext ih)

instance : LawfulMonad Program :=
  LawfulMonad.mk' Program bind_done (fun _ _ => rfl) bind_assoc

/-! ### Keeping to a discipline -/

/-- Whatever comes of its steps, a program does only what the discipline allows and ends as
wanted. -/
def Keeps (D : Discipline σ) : Program α → σ → (α → σ → Prop) → Prop
  | done v, x, Q => Q v x
  | step op next, x, Q => D.allows x op ∧ ∀ r y, D.moves x op r y → (next r).Keeps D y Q

variable {D : Discipline σ} {x : σ}

@[simp] theorem keeps_done {v : α} {Q : α → σ → Prop} : (done v).Keeps D x Q ↔ Q v x := Iff.rfl

@[simp] theorem keeps_step {op : Op} {next : op.Result → Program α} {Q : α → σ → Prop} :
    (step op next).Keeps D x Q ↔
      D.allows x op ∧ ∀ r y, D.moves x op r y → (next r).Keeps D y Q := Iff.rfl

/-- A program followed by another: what the first ends in is what the second starts from. -/
@[simp] theorem keeps_bind {p : Program α} {f : α → Program β} {Q : β → σ → Prop} :
    (p >>= f).Keeps D x Q ↔ p.Keeps D x fun v y => (f v).Keeps D y Q := by
  induction p generalizing x with
  | done v => rfl
  | step op next ih => simp only [step_bind, keeps_step, ih]

@[simp] theorem keeps_map {p : Program α} {f : α → β} {Q : β → σ → Prop} :
    (f <$> p).Keeps D x Q ↔ p.Keeps D x fun v => Q (f v) := by
  rw [map_eq_pure_bind, keeps_bind]
  rfl

/-- What a program ends in may be weakened. -/
theorem Keeps.mono {p : Program α} {Q R : α → σ → Prop} (keeps : p.Keeps D x Q)
    (weaker : ∀ v y, Q v y → R v y) : p.Keeps D x R := by
  induction p generalizing x with
  | done v => exact weaker v x keeps
  | step op next ih => exact ⟨keeps.1, fun r y moved => ih r (keeps.2 r y moved)⟩

/-- A program that keeps to one discipline keeps to another one that allows all of its steps, and
whose states after a step are those that the first one expects. -/
theorem Keeps.simulate {τ : Type} {D' : Discipline τ} (R : σ → τ → Prop)
    (allows : ∀ x y op, R x y → D.allows x op → D'.allows y op)
    (moves : ∀ x y op r y', R x y → D.allows x op → D'.moves y op r y' →
      ∃ x', D.moves x op r x' ∧ R x' y')
    {p : Program α} {Q : α → σ → Prop} {y : τ} (related : R x y) (keeps : p.Keeps D x Q) :
    p.Keeps D' y fun v y' => ∃ x', R x' y' ∧ Q v x' := by
  induction p generalizing x y with
  | done v => exact ⟨x, related, keeps⟩
  | step op next ih =>
    refine ⟨allows x y op related keeps.1, fun r y' moved => ?_⟩
    obtain ⟨x', moved', related'⟩ := moves x y op r y' related keeps.1 moved
    exact ih r related' (keeps.2 r x' moved')

/-- Messages are queued one after another; the induction is on the messages. -/
theorem keeps_emitAll {rs : List Response} {Q : Unit → σ → Prop} (I : List Response → σ → Prop)
    (start : I rs x) (finish : ∀ y, I [] y → Q () y)
    (next : ∀ r rs y, I (r :: rs) y →
      D.allows y (.emit r) ∧ ∀ z, D.moves y (.emit r) () z → I rs z) :
    (emitAll rs).Keeps D x Q := by
  induction rs generalizing x with
  | nil => exact finish x start
  | cons r rs ih =>
    obtain ⟨allowed, moved⟩ := next r rs x start
    exact ⟨allowed, fun _ y move => ih (moved y move)⟩

end Program

/-! ### Actions -/

namespace Action

variable {σ α β : Type} {D : Discipline σ} {x : σ}

/-- An action keeps to a discipline if its program does; its end is a value or a failure. -/
def Keeps (D : Discipline σ) (a : Action α) (x : σ) (Q : Except Failure α → σ → Prop) : Prop :=
  Program.Keeps D a.run x Q

@[simp] theorem keeps_pure {v : α} {Q : Except Failure α → σ → Prop} :
    Keeps D (pure v) x Q ↔ Q (.ok v) x := Iff.rfl

@[simp] theorem keeps_throw {e : Failure} {Q : Except Failure α → σ → Prop} :
    Keeps D (throw e) x Q ↔ Q (.error e) x := Iff.rfl

/-- An action followed by another, which is not run if the first fails. -/
@[simp] theorem keeps_bind {a : Action α} {f : α → Action β} {Q : Except Failure β → σ → Prop} :
    Keeps D (a >>= f) x Q ↔ Keeps D a x fun r y =>
      match r with
      | .ok v => Keeps D (f v) y Q
      | .error e => Q (.error e) y := by
  unfold Keeps
  rw [ExceptT.run_bind, Program.keeps_bind]
  refine ⟨fun keeps => keeps.mono ?_, fun keeps => keeps.mono ?_⟩
  all_goals rintro (e | v) y ends <;> exact ends

@[simp] theorem keeps_map {a : Action α} {f : α → β} {Q : Except Failure β → σ → Prop} :
    Keeps D (f <$> a) x Q ↔ Keeps D a x fun r => Q (r.map f) := by
  unfold Keeps
  rw [ExceptT.run_map, Program.keeps_map]

@[simp] theorem keeps_ofAnswer {p : Program (Except Failure α)}
    {Q : Except Failure α → σ → Prop} : Keeps D (ofAnswer p) x Q ↔ p.Keeps D x Q := Iff.rfl

@[simp] theorem keeps_ofExcept {e : Except Failure α} {Q : Except Failure α → σ → Prop} :
    Keeps D (ofExcept e) x Q ↔ Q e x := Iff.rfl

/-- A value that is known at once is used, or its failure ends the action. -/
theorem keeps_ofExcept_bind {e : Except Failure α} {f : α → Action β}
    {Q : Except Failure β → σ → Prop} (failed : ∀ failure, Q (.error failure) x)
    (next : ∀ v, e = .ok v → Keeps D (f v) x Q) : Keeps D (ofExcept e >>= f) x Q := by
  rw [keeps_bind, keeps_ofExcept]
  cases e with
  | error failure => exact failed failure
  | ok v => exact next v rfl

/-- A program within an action. -/
@[simp] theorem keeps_lift {p : Program α} {Q : Except Failure α → σ → Prop} :
    Keeps D (liftM p) x Q ↔ p.Keeps D x fun v => Q (.ok v) := by
  change Program.Keeps D (Except.ok <$> p) x Q ↔ _
  rw [Program.keeps_map]

/-- A failure that does not matter is a value to the caller. -/
@[simp] theorem keeps_attempt {a : Action α} {Q : Except Failure (Except Failure α) → σ → Prop} :
    Keeps D a.attempt x Q ↔ Keeps D a x fun r => Q (.ok r) :=
  keeps_lift

@[simp] theorem ask_eq_ofAnswer (c : Call) : ask c = ofAnswer (Program.ask c) := rfl

theorem Keeps.mono {a : Action α} {Q R : Except Failure α → σ → Prop} (keeps : Keeps D a x Q)
    (weaker : ∀ r y, Q r y → R r y) : Keeps D a x R :=
  Program.Keeps.mono keeps weaker

end Action

end LispBridge
