import LispBridge.Datum.Reader

/-!
Reading a text in parts.

* `State.settle?`: the state in which the value being read is taken to be complete.
* `step_of_settle`: a blank or a closing parenthesis is read as if the value in front of it had
  been complete before.
* `State.Yields`: what a text comes to, once the value at its end is complete.
-/

namespace LispBridge.Reader

/-- What succeeds in two parts succeeds in the first, and then in the second. -/
theorem bind_eq_ok {ε α β : Type} {x : Except ε α} {f : α → Except ε β} {b : β}
    (done : (x >>= f) = .ok b) : ∃ a, x = .ok a ∧ f a = .ok b := by
  cases x with
  | error fault => cases done
  | ok a => exact ⟨a, rfl, done⟩

namespace State

variable {single : Bool} {s t u : State} {c : Char} {cs : List Char}

/-! ### Runs -/

/-- The state behind a text that leaves everything else as it is. -/
def passed (s : State) (cs : List Char) : State :=
  { s with seen := cs.reverse ++ s.seen, count := s.count + cs.length }

theorem read_eq_passed (s : State) (c : Char) (mode : Mode) :
    s.read c mode = { s.passed [c] with mode } :=
  rfl

theorem accept_eq (s : State) (d : Datum) :
    s.accept d = { s with
      mode := .between
      enclosing := (place d s.forms s.enclosing).1
      forms := (place d s.forms s.enclosing).2 } :=
  rfl

theorem run_cons_of_ok (stepped : s.step single c = .ok t) (more : List Char) :
    s.run single (c :: more) = t.run single more := by
  rw [run, stepped]

theorem run_cons (ran : s.run single (c :: cs) = .ok u) :
    ∃ t, s.step single c = .ok t ∧ t.run single cs = .ok u := by
  rw [run] at ran
  cases stepped : s.step single c with
  | error fault =>
    rw [stepped] at ran
    cases ran
  | ok t =>
    rw [stepped] at ran
    exact ⟨t, rfl, ran⟩

theorem run_append_of_ok (ran : s.run single cs = .ok t) (more : List Char) :
    s.run single (cs ++ more) = t.run single more := by
  induction cs generalizing s with
  | nil =>
    obtain rfl := Except.ok.inj ran
    rfl
  | cons c cs ih =>
    obtain ⟨s', stepped, ran⟩ := run_cons ran
    rw [List.cons_append, run_cons_of_ok stepped]
    exact ih ran

theorem run_append_of_error {fault : ReadFault} (failed : s.run single cs = .error fault)
    (more : List Char) : s.run single (cs ++ more) = .error fault := by
  induction cs generalizing s with
  | nil => cases failed
  | cons c cs ih =>
    rw [run] at failed
    rw [List.cons_append, run]
    cases stepped : s.step single c with
    | error fault' =>
      rw [stepped] at failed
      exact failed
    | ok s' =>
      rw [stepped] at failed
      exact ih failed

/-! ### Complete values -/

/-- The state in which the value being read is taken to be complete, if it may end here. -/
def settle? (single : Bool) (s : State) : Option State :=
  match s.mode with
  | .between => some s
  | .token content => some (s.accept (.ofToken content.reverse))
  | .hash => if s.isFull single then none else some (s.accept (.symbol "#"))
  | .hashToken content | .name content =>
    some (s.accept (.symbol (String.ofList content.reverse)))
  | .lineComment | .blockComment _ | .string .. | .character | .comma => none

theorem settle?_of_between (between : s.mode = .between) : s.settle? single = some s := by
  rw [settle?, between]

theorem mode_of_settle? (settled : s.settle? single = some t) : t.mode = .between := by
  unfold settle? at settled
  split at settled
  · next between =>
    obtain rfl := Option.some.inj settled
    exact between
  · obtain rfl := Option.some.inj settled
    rfl
  · split at settled
    · cases settled
    · obtain rfl := Option.some.inj settled
      rfl
  · obtain rfl := Option.some.inj settled
    rfl
  · obtain rfl := Option.some.inj settled
    rfl
  all_goals cases settled

end State

/-- Whether a character ends every value that may end, and is no part of it. -/
def EndsValue (c : Char) : Prop :=
  Text.isBlank c = true ∨ c = ')'

theorem EndsValue.isDelimiter {c : Char} (ends : EndsValue c) : Datum.isDelimiter c = true := by
  rcases ends with blank | rfl
  · simp [Datum.isDelimiter, blank]
  · rfl

theorem EndsValue.ne {c d : Char} (ends : EndsValue c) (other : Text.isBlank d = false)
    (open' : d ≠ ')') : c ≠ d := by
  rintro rfl
  rcases ends with blank | same
  · rw [blank] at other
    cases other
  · exact open' same

theorem endsValue_blank : EndsValue ' ' :=
  .inl rfl

theorem endsValue_close : EndsValue ')' :=
  .inr rfl

namespace State

variable {single : Bool} {s t u : State} {c : Char} {cs : List Char}

/-- What ends a value is read behind the complete value. -/
theorem step_of_settle (settled : s.settle? single = some t) (ends : EndsValue c) :
    s.step single c = t.begin single c := by
  have delimits := ends.isDelimiter
  have paren : c ≠ '(' := ends.ne rfl (by decide)
  unfold settle? at settled
  unfold step
  split at settled
  · next between =>
    obtain rfl := Option.some.inj settled
    simp only [between]
  · next content mode =>
    obtain rfl := Option.some.inj settled
    simp only [mode, delimits, if_true]
  · next mode =>
    split at settled
    · cases settled
    · next room =>
      obtain rfl := Option.some.inj settled
      have bar : c ≠ '|' := ends.ne rfl (by decide)
      have quote : c ≠ '\'' := ends.ne rfl (by decide)
      have backslash : c ≠ '\\' := ends.ne rfl (by decide)
      simp only [mode, bar, room, quote, backslash, hashToken, paren, delimits, if_true, if_false,
        Bool.false_eq_true]
      rfl
  · next content mode =>
    obtain rfl := Option.some.inj settled
    simp only [mode, hashToken, paren, delimits, if_true, if_false]
  · next content mode =>
    obtain rfl := Option.some.inj settled
    simp only [mode, delimits, if_true]
  all_goals cases settled

/-- The end of the text ends the value as well. -/
theorem flush_of_settle (settled : s.settle? single = some t) : s.flush single = .ok t := by
  unfold settle? at settled
  unfold flush
  split at settled
  · next between =>
    obtain rfl := Option.some.inj settled
    simp only [between]
  · next mode =>
    obtain rfl := Option.some.inj settled
    simp only [mode]
  · next mode =>
    split at settled
    · cases settled
    · next room =>
      obtain rfl := Option.some.inj settled
      simp only [mode, room, if_false, Bool.false_eq_true]
  · next mode =>
    obtain rfl := Option.some.inj settled
    simp only [mode]
  · next mode =>
    obtain rfl := Option.some.inj settled
    simp only [mode]
  all_goals cases settled

/-! ### Texts of complete values -/

/-- Reading a text from `s` comes to `t`, once the value at its end is complete. -/
def Yields (single : Bool) (s : State) (cs : List Char) (t : State) : Prop :=
  ∃ s', s.run single cs = .ok s' ∧ s'.settle? single = some t

theorem Yields.mode_eq (yields : s.Yields single cs t) : t.mode = .between := by
  obtain ⟨_, _, settled⟩ := yields
  exact mode_of_settle? settled

theorem yields_of_run (ran : s.run single cs = .ok t) (between : t.mode = .between) :
    s.Yields single cs t :=
  ⟨t, ran, settle?_of_between between⟩

/-- Behind a text that yields a state, what ends a value is read from that state. -/
theorem Yields.run_append_cons (yields : s.Yields single cs t) (ends : EndsValue c)
    (more : List Char) : s.run single (cs ++ c :: more) = t.run single (c :: more) := by
  obtain ⟨s', ran, settled⟩ := yields
  rw [run_append_of_ok ran, run, run, step_of_settle settled ends,
    step_of_settle (settle?_of_between (mode_of_settle? settled)) ends]

theorem Yields.trans (front : s.Yields single cs t) (ends : EndsValue c) {more : List Char}
    (back : t.Yields single (c :: more) u) : s.Yields single (cs ++ c :: more) u := by
  obtain ⟨u', ran, settled⟩ := back
  exact ⟨u', by rw [front.run_append_cons ends, ran], settled⟩

theorem Yields.after {as bs : List Char} (ran : s.run single as = .ok t)
    (back : t.Yields single bs u) : s.Yields single (as ++ bs) u := by
  obtain ⟨u', ran', settled⟩ := back
  exact ⟨u', by rw [run_append_of_ok ran, ran'], settled⟩

/-- A text that yields a state in which nothing is open has the forms of that state. -/
theorem Yields.forms_eq (yields : State.Yields single {} cs t) (closed : t.enclosing = []) :
    Reader.forms single cs = .ok t.forms.reverse := by
  obtain ⟨s', ran, settled⟩ := yields
  simp only [Reader.forms, finish, ran, flush_of_settle settled, closed, bind, Except.bind]

end State

end LispBridge.Reader
