import LispBridge.Proofs.Datum.Steps

/-!
Reading a text inside an open bracket, compared to reading it by itself.

* `State.within`: the state of a reader that has read a text by itself, moved into a bracket.
* `Lifts`: how a step inside the bracket follows the step by itself.
* `lifts_step`: every step does, up to the one that closes the bracket.
-/

namespace LispBridge.Reader

/-! ### Moving into a bracket -/

/-- Whether a construct has a closing parenthesis. -/
def Open.IsBracket : Open → Prop
  | .list _ | .vector _ => True
  | .prefixed _ => False

/-- A construct whose text begins `n` characters later. -/
def Open.moved (n : Nat) : Open → Open
  | .list items => .list items
  | .prefixed head => .prefixed head
  | .vector start => .vector (n + start)

/-- A construct with more forms read inside it, last first. -/
def Open.holding (forms : List Datum) : Open → Open
  | .list items => .list (forms ++ items)
  | .prefixed head => .prefixed head
  | .vector start => .vector start

namespace State

/-- Where `o` has read up to the bracket and `s` the text inside it: the state that has read both.
What `s` holds at top level is in the bracket. -/
def within (o : State) (bracket : Open) (outer : List Open) (s : State) : State where
  seen := s.seen ++ o.seen
  count := o.count + s.count
  mode := s.mode
  enclosing := s.enclosing.map (Open.moved o.count) ++ bracket.holding s.forms :: outer
  forms := o.forms

end State

theorem length_within (o s : State) (bracket : Open) (outer : List Open) :
    (o.within bracket outer s).enclosing.length = s.enclosing.length + (outer.length + 1) := by
  simp [State.within]

theorem enclosing_within_ne_nil (o s : State) (bracket : Open) (outer : List Open) :
    (o.within bracket outer s).enclosing ≠ [] := by
  simp [State.within]

section Within

variable {single : Bool} {o s t : State} {bracket : Open} {outer : List Open} {c : Char}

theorem place_within (holds : bracket.IsBracket) (d : Datum) (forms own : List Datum) (n : Nat)
    (inner : List Open) :
    place d forms (inner.map (Open.moved n) ++ bracket.holding own :: outer) =
      ((place d own inner).1.map (Open.moved n) ++ bracket.holding (place d own inner).2 :: outer,
        forms) := by
  induction inner generalizing d with
  | nil =>
    cases bracket with
    | list items => rfl
    | vector start => rfl
    | prefixed head => exact holds.elim
  | cons op inner ih =>
    cases op with
    | list items => rfl
    | vector start => rfl
    | prefixed head => exact ih _

theorem accept_within (holds : bracket.IsBracket) (o s : State) (outer : List Open) (d : Datum) :
    (o.within bracket outer s).accept d = o.within bracket outer (s.accept d) := by
  simp only [State.accept_eq, State.within, place_within holds]

theorem read_within (c : Char) (mode : Mode) :
    (o.within bracket outer s).read c mode = o.within bracket outer (s.read c mode) :=
  rfl

theorem isFull_within : (o.within bracket outer s).isFull single = false := by
  simp [State.isFull, State.within]

theorem isFull_all : s.isFull false = false := by
  simp [State.isFull]

theorem textFrom_within (tallied : s.count = s.seen.length) (o : State) (bracket : Open)
    (outer : List Open) (start : Nat) :
    (o.within bracket outer s).textFrom (o.count + start) = s.textFrom start := by
  have inner : o.count + s.count - (o.count + start) = s.count - start := by omega
  simp only [State.textFrom, State.within, inner]
  rw [List.take_append_of_le_length (by omega)]

end Within

/-! ### Steps -/

/-- What a step inside the bracket comes to, by what it comes to in the text by itself: the same,
unless the bracket leaves no room for what is open. -/
structure Lifts (o : State) (bracket : Open) (outer : List Open)
    (own inner : Except ReadFault State) : Prop where
  forward : ∀ s, own = .ok s → s.enclosing.length + (outer.length + 1) ≤ maxDepth →
    inner = .ok (o.within bracket outer s)
  backward : ∀ t, inner = .ok t → ∃ s, own = .ok s ∧ t = o.within bracket outer s

section Steps

variable {single : Bool} {o s t : State} {bracket : Open} {outer : List Open} {c : Char}

theorem lifts_ok (s : State) :
    Lifts o bracket outer (.ok s) (.ok (o.within bracket outer s)) where
  forward := by
    intro t same _
    rw [Except.ok.inj same]
  backward := by
    intro t same
    exact ⟨s, rfl, (Except.ok.inj same).symm⟩

theorem lifts_error (own inner : ReadFault) :
    Lifts o bracket outer (.error own) (.error inner) where
  forward := by
    intro t same
    cases same
  backward := by
    intro t same
    cases same

theorem lifts_enter (s : State) (op : Open) :
    Lifts o bracket outer (s.enter op) ((o.within bracket outer s).enter (op.moved o.count)) := by
  have length : (o.within bracket outer s).enclosing.length =
      s.enclosing.length + (outer.length + 1) := by
    simp [State.within]
  constructor
  · intro t entered fits
    rw [State.enter] at entered
    split at entered
    · next few =>
      obtain rfl := Except.ok.inj entered
      rw [State.enter, length, if_pos]
      · rfl
      · simp only [List.length_cons] at fits
        omega
    · cases entered
  · intro t entered
    rw [State.enter, length] at entered
    split at entered
    · next few =>
      obtain rfl := Except.ok.inj entered
      refine ⟨{ s with mode := .between, enclosing := op :: s.enclosing }, ?_, rfl⟩
      rw [State.enter, if_pos (by omega)]
    · cases entered

theorem lifts_close (holds : bracket.IsBracket) (tallied : s.count = s.seen.length)
    (inside : s.enclosing ≠ []) (c : Char) :
    Lifts o bracket outer (s.close c) ((o.within bracket outer s).close c) := by
  obtain ⟨op, inner, enclosing⟩ := List.exists_cons_of_ne_nil inside
  have shell : (o.within bracket outer s).enclosing =
      op.moved o.count :: (inner.map (Open.moved o.count) ++ bracket.holding s.forms :: outer) := by
    rw [State.within, enclosing]
    rfl
  let rest : State := { s.read c .between with enclosing := inner }
  have accepted := accept_within holds o rest outer
  cases op with
  | list items =>
    simp only [State.close, shell, enclosing]
    show Lifts o bracket outer (.ok (rest.accept (.ofItems items.reverse)))
      (.ok ((o.within bracket outer rest).accept (.ofItems items.reverse)))
    rw [accepted]
    exact lifts_ok _
  | vector start =>
    have counted : rest.count = rest.seen.length := by
      simp [rest, State.read, tallied]
    have text := textFrom_within counted o bracket outer start
    simp only [State.close, shell, enclosing]
    show Lifts o bracket outer (.ok (rest.accept (rest.textFrom start)))
      (.ok ((o.within bracket outer rest).accept
        ((o.within bracket outer rest).textFrom (o.count + start))))
    rw [text, accepted]
    exact lifts_ok _
  | prefixed head =>
    simp only [State.close, shell, enclosing]
    exact lifts_error _ _

theorem lifts_begin (holds : bracket.IsBracket) (tallied : s.count = s.seen.length)
    (stays : c = ')' → s.enclosing ≠ []) :
    Lifts o bracket outer (s.begin false c) ((o.within bracket outer s).begin single c) := by
  simp only [State.begin, isFull_within, isFull_all, Bool.false_eq_true, if_false]
  split
  · exact lifts_ok _
  split
  · exact lifts_ok _
  split
  · exact lifts_ok _
  split
  · exact lifts_enter (s.read '(' .between) (.list [])
  · exact lifts_close holds tallied (stays rfl) ')'
  · exact lifts_ok _
  · exact lifts_enter (s.read '\'' .between) (.prefixed "quote")
  · exact lifts_enter (s.read '`' .between) (.prefixed "quasiquote")
  · exact lifts_ok _
  · exact lifts_ok _

/-- A token goes on, or is complete in front of what the character begins. -/
theorem lifts_continues (holds : bracket.IsBracket) (tallied : s.count = s.seen.length)
    {d : Datum} {mode : Mode} (stays : c = ')' → (s.accept d).enclosing ≠ []) :
    Lifts o bracket outer
      (if Datum.isDelimiter c then (s.accept d).begin false c else .ok (s.read c mode))
      (if Datum.isDelimiter c then ((o.within bracket outer s).accept d).begin single c
        else .ok ((o.within bracket outer s).read c mode)) := by
  split
  · rw [accept_within holds]
    exact lifts_begin holds tallied stays
  · exact lifts_ok _

theorem lifts_hashToken (holds : bracket.IsBracket) (tallied : s.count = s.seen.length)
    {content : List Char} (counted : content.length ≤ s.count)
    (stays : c = ')' → (s.accept (.symbol (String.ofList content.reverse))).enclosing ≠ []) :
    Lifts o bracket outer (s.hashToken false content c)
      ((o.within bracket outer s).hashToken single content c) := by
  simp only [State.hashToken]
  split
  · have start : (o.within bracket outer s).count - content.length =
        o.count + (s.count - content.length) := by
      simp only [State.within]
      omega
    rw [start]
    exact lifts_enter (s.read c .between) (.vector (s.count - content.length))
  · exact lifts_continues holds tallied stays

/-- Only a closing parenthesis leaves fewer constructs open than a form begins with. -/
theorem length_le_of_begin (began : s.begin single c = .ok t) (other : c ≠ ')') :
    s.enclosing.length ≤ t.enclosing.length := by
  cases begins_of_begin began with
  | read => exact Nat.le_refl _
  | list entered =>
    obtain ⟨_, rfl⟩ := enter_eq_ok entered
    exact Nat.le_succ _
  | quote _ entered =>
    obtain ⟨_, rfl⟩ := enter_eq_ok entered
    exact Nat.le_succ _
  | closeList paren => exact absurd paren other
  | closeVector paren => exact absurd paren other

/-- No prefix is closed by a parenthesis. -/
theorem begin_close_of_prefixed (single : Bool) {head : String} {inner : List Open}
    (waiting : s.enclosing = .prefixed head :: inner) :
    s.begin single ')' = .error (.unexpectedClose s.offset) := by
  have room : s.isFull single = false := by simp [State.isFull, waiting]
  simp only [State.begin, show Text.isBlank ')' = false from rfl, room, Bool.false_eq_true,
    if_false, show ')' ≠ ';' from by decide, show ')' ≠ '#' from by decide, State.close, waiting]

theorem lifts_comma (holds : bracket.IsBracket) (tallied : s.count = s.seen.length) (c : Char) :
    Lifts o bracket outer (s.enter (.prefixed "unquote") >>= fun s => s.begin false c)
      ((o.within bracket outer s).enter (.prefixed "unquote") >>= fun s => s.begin single c) := by
  let entered : State :=
    { s with mode := .between, enclosing := .prefixed "unquote" :: s.enclosing }
  have own : s.enter (.prefixed "unquote") =
      if s.enclosing.length < maxDepth then .ok entered else .error (.tooDeep s.offset) := rfl
  have inner : (o.within bracket outer s).enter (.prefixed "unquote") =
      if s.enclosing.length + (outer.length + 1) < maxDepth then
        .ok (o.within bracket outer entered)
      else .error (.tooDeep (o.within bracket outer s).offset) := by
    simp only [State.enter, State.within, List.length_append, List.length_map, List.length_cons]
    rfl
  rw [own, inner]
  -- Without room for the prefix in the bracket, the text by itself may still go on, but it stays
  -- as deep as the prefix and never comes to fit.
  by_cases few : s.enclosing.length + (outer.length + 1) < maxDepth
  · rw [if_pos few, if_pos (by omega)]
    exact lifts_begin (s := entered) holds tallied fun _ => List.cons_ne_nil _ _
  · rw [if_neg few]
    constructor
    · intro t began fits
      split at began
      · have other : c ≠ ')' := by
          rintro rfl
          have closed := begin_close_of_prefixed false (s := entered) rfl
          cases closed.symm.trans began
        have grown := length_le_of_begin (s := entered) began other
        simp only [entered, List.length_cons] at grown
        omega
      · cases began
    · intro t began
      cases began

/-- A step inside the bracket follows that of the text by itself, unless it closes the bracket. -/
theorem lifts_step (holds : bracket.IsBracket) (tallied : s.Tallied)
    (stays : c = ')' → ∀ t, s.settle? false = some t → t.enclosing ≠ []) :
    Lifts o bracket outer (s.step false c) ((o.within bracket outer s).step single c) := by
  have count_eq := tallied.count_eq
  have width_le : s.mode.hashText.length ≤ s.count := by
    rw [count_eq]
    exact tallied.text_prefix.length_le
  have same : (o.within bracket outer s).mode = s.mode := rfl
  cases mode : s.mode with
  | between =>
    simp only [State.step, same, mode]
    refine lifts_begin holds count_eq fun close => stays close s ?_
    exact State.settle?_of_between mode
  | lineComment =>
    simp only [State.step, same, mode]
    exact lifts_ok _
  | blockComment bar =>
    simp only [State.step, same, mode]
    exact lifts_ok _
  | string content escaped =>
    cases escaped with
    | true =>
      simp only [State.step, same, mode]
      exact lifts_ok _
    | false =>
      simp only [State.step, same, mode, read_within, accept_within holds]
      split
      · exact lifts_ok _
      split
      · exact lifts_ok _
      · exact lifts_ok _
  | token content =>
    simp only [State.step, same, mode]
    refine lifts_continues holds count_eq fun close => stays close _ ?_
    rw [State.settle?, mode]
  | hash =>
    rw [mode] at width_le
    simp only [State.step, same, mode, isFull_within, isFull_all, Bool.false_eq_true, if_false]
    split
    · exact lifts_ok _
    split
    · exact lifts_enter (s.read c .between) (.prefixed "function")
    split
    · exact lifts_ok _
    · refine lifts_hashToken holds count_eq width_le fun close => stays close _ ?_
      rw [State.settle?, mode]
      rfl
  | hashToken content =>
    rw [mode] at width_le
    simp only [State.step, same, mode]
    refine lifts_hashToken holds count_eq width_le fun close => stays close _ ?_
    rw [State.settle?, mode]
  | character =>
    simp only [State.step, same, mode]
    exact lifts_ok _
  | name content =>
    simp only [State.step, same, mode]
    refine lifts_continues holds count_eq fun close => stays close _ ?_
    rw [State.settle?, mode]
  | comma =>
    simp only [State.step, same, mode]
    split
    · exact lifts_enter (s.read c .between) (.prefixed "unquote-splicing")
    · exact lifts_comma holds count_eq c

/-! ### The end of the bracket -/

theorem settle?_within (holds : bracket.IsBracket) (o s : State) (outer : List Open) :
    (o.within bracket outer s).settle? single =
      (s.settle? false).map (o.within bracket outer) := by
  have same : (o.within bracket outer s).mode = s.mode := rfl
  cases mode : s.mode with
  | hash =>
    simp only [State.settle?, same, mode, isFull_within, isFull_all, accept_within holds,
      Bool.false_eq_true, if_false, Option.map_some]
  | _ =>
    simp only [State.settle?, same, mode, accept_within holds, Option.map_some, Option.map_none]

/-- A parenthesis meets the bracket as the text by itself leaves it. -/
theorem step_within_close (holds : bracket.IsBracket) (single : Bool) (o : State)
    (outer : List Open) (settled : s.settle? false = some t) :
    (o.within bracket outer s).step single ')' = (o.within bracket outer t).close ')' := by
  have inner : (o.within bracket outer s).settle? single = some (o.within bracket outer t) := by
    rw [settle?_within holds, settled, Option.map_some]
  rw [State.step_of_settle inner endsValue_close, State.begin]
  simp [isFull_within, show Text.isBlank ')' = false from rfl]

/-- The end of the text finds the bracket open. -/
theorem finish_within_ne_ok (holds : bracket.IsBracket) (ds : List Datum) :
    (o.within bracket outer s).finish single ≠ .ok ds := by
  intro finished
  obtain ⟨t, flushed, closed, _⟩ := finish_eq_ok finished
  rcases flush_cases flushed with rfl | settled | ⟨_, rfl⟩ | some
  · exact enclosing_within_ne_nil _ _ _ _ closed
  · rw [settle?_within holds] at settled
    obtain ⟨last, _, rfl⟩ := Option.map_eq_some_iff.mp settled
    exact enclosing_within_ne_nil _ _ _ _ closed
  · rw [accept_within holds] at closed
    exact enclosing_within_ne_nil _ _ _ _ closed
  · exact some closed

end Steps

end LispBridge.Reader
