import LispBridge.Proofs.Datum.Embedding

/-!
The only form of a text is all of its forms.

A reader that expects a single form goes on as one that takes every form, until it fails
(`step_all`), and once it has its form it takes nothing but blanks and comments
(`State.IsSparing`). So what `Datum.read` makes of a text is all that `Datum.readAll` does
(`readAll_of_read`).
-/

namespace LispBridge.Reader

/-! ### Behind a form -/

/-- Whether a reader in this mode is outside of values, or may turn out to be. -/
def Mode.isIdle : Mode → Bool
  | .between | .lineComment | .blockComment _ | .hash => true
  | _ => false

/-- Whether the reader holds one form at most, and is outside of values if it holds one. -/
def State.IsSparing (s : State) : Prop :=
  s.forms = [] ∨ (∃ d, s.forms = [d]) ∧ s.enclosing = [] ∧ s.mode.isIdle = true

section Begin

variable {s t : State} {c : Char}

theorem isSparing_read {mode : Mode} (none : s.forms = [])
    (same : Except.ok (s.read c mode) = (Except.ok t : Except ReadFault State)) :
    t.IsSparing := by
  rw [← Except.ok.inj same]
  exact .inl none

/-- A reader that goes on outside of values holds the form that it held. -/
theorem State.IsSparing.passes {mode : Mode} (sparing : s.IsSparing) (idle : mode.isIdle = true)
    (same : Except.ok (s.read c mode) = (Except.ok t : Except ReadFault State)) :
    t.IsSparing := by
  rw [← Except.ok.inj same]
  exact sparing.imp_right fun ⟨one, closed, _⟩ => ⟨one, closed, idle⟩

theorem isSparing_enter {op : Open} (none : s.forms = []) (entered : s.enter op = .ok t) :
    t.IsSparing := by
  obtain ⟨_, rfl⟩ := enter_eq_ok entered
  exact .inl none

theorem place_eq_nil_or_singleton (d : Datum) (enclosing : List Open) :
    (place d [] enclosing).2 = [] ∨ ∃ x, place d [] enclosing = ([], [x]) := by
  induction enclosing generalizing d with
  | nil => exact .inr ⟨d, rfl⟩
  | cons op enclosing ih =>
    cases op with
    | list items => exact .inl rfl
    | vector start => exact .inl rfl
    | prefixed head => exact ih _

theorem isSparing_accept (none : s.forms = []) (d : Datum) : (s.accept d).IsSparing := by
  rw [State.accept_eq, none]
  rcases place_eq_nil_or_singleton d s.enclosing with still | ⟨x, done⟩
  · exact .inl still
  · rw [done]
    exact .inr ⟨⟨x, rfl⟩, rfl, rfl⟩

theorem isFull_of_done {d : Datum} (one : s.forms = [d]) (closed : s.enclosing = []) :
    s.isFull true = true := by
  simp [State.isFull, one, closed]

/-- A reader that has room for a form holds none. -/
theorem State.IsSparing.forms_eq_nil_of_room (sparing : s.IsSparing)
    (room : ¬ s.isFull true = true) : s.forms = [] := by
  rcases sparing with none | ⟨⟨d, one⟩, closed, _⟩
  · exact none
  · exact absurd (isFull_of_done one closed) room

theorem begin_all (began : s.begin true c = .ok t) : s.begin false c = .ok t := by
  unfold State.begin at began ⊢
  cases full : s.isFull true with
  | false => simpa only [full, isFull_all] using began
  | true =>
    rw [full] at began
    split at began
    · next blank => rwa [if_pos blank]
    rename_i ordinary
    split at began
    · next comment => rwa [if_neg ordinary, if_pos comment]
    rename_i comment
    split at began
    · next hash => rwa [if_neg ordinary, if_neg comment, if_pos hash]
    · cases began

theorem State.IsSparing.begin (sparing : s.IsSparing) (began : s.begin true c = .ok t) :
    t.IsSparing := by
  rcases sparing with none | ⟨⟨d, one⟩, closed, idle⟩
  · cases begins_of_begin began with
    | read => exact isSparing_read none rfl
    | list entered => exact isSparing_enter (s := s.read c .between) none entered
    | quote _ entered => exact isSparing_enter (s := s.read c .between) none entered
    | @closeList _ outer =>
      exact isSparing_accept (s := { s.read c .between with enclosing := outer }) none _
    | @closeVector _ outer =>
      exact isSparing_accept (s := { s.read c .between with enclosing := outer }) none _
  · have sparing : s.IsSparing := .inr ⟨⟨d, one⟩, closed, idle⟩
    unfold State.begin at began
    rw [isFull_of_done one closed] at began
    split at began
    · exact sparing.passes rfl began
    split at began
    · exact sparing.passes rfl began
    split at began
    · exact sparing.passes rfl began
    · cases began

end Begin

/-! ### Steps -/

section Steps

variable {s t : State} {c : Char} {cs : List Char}

theorem State.IsSparing.forms_eq_nil (sparing : s.IsSparing) (busy : s.mode.isIdle = false) :
    s.forms = [] := by
  rcases sparing with none | ⟨_, _, idle⟩
  · exact none
  · rw [busy] at idle
    cases idle

/-- A token ends in front of a delimiter, and goes on with any other character. -/
theorem continues_all {d : Datum} {mode : Mode}
    (stepped : (if Datum.isDelimiter c then (s.accept d).begin true c else .ok (s.read c mode)) =
      .ok t) :
    (if Datum.isDelimiter c then (s.accept d).begin false c else .ok (s.read c mode)) = .ok t := by
  split at stepped
  · next ends =>
    rw [if_pos ends]
    exact begin_all stepped
  · next ends => rwa [if_neg ends]

theorem isSparing_continues {d : Datum} {mode : Mode} (none : s.forms = [])
    (stepped : (if Datum.isDelimiter c then (s.accept d).begin true c else .ok (s.read c mode)) =
      .ok t) :
    t.IsSparing := by
  split at stepped
  · exact (isSparing_accept none d).begin stepped
  · exact isSparing_read none stepped

theorem hashToken_all {content : List Char} (stepped : s.hashToken true content c = .ok t) :
    s.hashToken false content c = .ok t := by
  unfold State.hashToken at stepped ⊢
  split at stepped
  · next paren => rwa [if_pos paren]
  · next paren =>
    rw [if_neg paren]
    exact continues_all stepped

theorem isSparing_hashToken {content : List Char} (none : s.forms = [])
    (stepped : s.hashToken true content c = .ok t) : t.IsSparing := by
  unfold State.hashToken at stepped
  split at stepped
  · exact isSparing_enter (s := s.read c .between) none stepped
  · exact isSparing_continues none stepped

/-- A reader that expects a single form goes on as one that takes all. -/
theorem step_all (stepped : s.step true c = .ok t) : s.step false c = .ok t := by
  unfold State.step at stepped ⊢
  cases mode : s.mode with
  | between =>
    simp only [mode] at stepped ⊢
    exact begin_all stepped
  | token content =>
    simp only [mode] at stepped ⊢
    exact continues_all stepped
  | name content =>
    simp only [mode] at stepped ⊢
    exact continues_all stepped
  | hash =>
    simp only [mode, isFull_all, Bool.false_eq_true, if_false] at stepped ⊢
    split at stepped
    · next bar => rwa [if_pos bar]
    rename_i bar
    rw [if_neg bar]
    split at stepped
    · cases stepped
    split at stepped
    · next quote => rwa [if_pos quote]
    rename_i quote
    rw [if_neg quote]
    split at stepped
    · next backslash => rwa [if_pos backslash]
    · next backslash =>
      rw [if_neg backslash]
      exact hashToken_all stepped
  | hashToken content =>
    simp only [mode] at stepped ⊢
    exact hashToken_all stepped
  | comma =>
    simp only [mode] at stepped ⊢
    split at stepped
    · next splice => rwa [if_pos splice]
    · next splice =>
      obtain ⟨u, entered, began⟩ := bind_eq_ok stepped
      rw [if_neg splice, entered]
      exact begin_all began
  | lineComment => simpa only [mode] using stepped
  | blockComment bar => simpa only [mode] using stepped
  | string content escaped => cases escaped <;> simpa only [mode] using stepped
  | character => simpa only [mode] using stepped

/-- A single form stays the only one: what follows it is outside of values. -/
theorem State.IsSparing.step (sparing : s.IsSparing) (stepped : s.step true c = .ok t) :
    t.IsSparing := by
  have busy (isBusy : s.mode.isIdle = false) := sparing.forms_eq_nil isBusy
  unfold State.step at stepped
  cases mode : s.mode with
  | between =>
    simp only [mode] at stepped
    exact sparing.begin stepped
  | lineComment =>
    simp only [mode] at stepped
    exact sparing.passes (by split <;> rfl) stepped
  | blockComment bar =>
    simp only [mode] at stepped
    exact sparing.passes (by split <;> rfl) stepped
  | hash =>
    simp only [mode] at stepped
    split at stepped
    · exact sparing.passes rfl stepped
    split at stepped
    · cases stepped
    rename_i room
    have none := sparing.forms_eq_nil_of_room room
    split at stepped
    · exact isSparing_enter (s := s.read c .between) none stepped
    split at stepped
    · exact isSparing_read none stepped
    · exact isSparing_hashToken none stepped
  | string content escaped =>
    have none := busy (by rw [mode]; rfl)
    cases escaped with
    | true =>
      simp only [mode] at stepped
      exact isSparing_read none stepped
    | false =>
      simp only [mode] at stepped
      split at stepped
      · rw [← Except.ok.inj stepped]
        exact isSparing_accept none _
      split at stepped
      · exact isSparing_read none stepped
      · exact isSparing_read none stepped
  | token content =>
    have none := busy (by rw [mode]; rfl)
    simp only [mode] at stepped
    exact isSparing_continues none stepped
  | hashToken content =>
    have none := busy (by rw [mode]; rfl)
    simp only [mode] at stepped
    exact isSparing_hashToken none stepped
  | character =>
    have none := busy (by rw [mode]; rfl)
    simp only [mode] at stepped
    exact isSparing_read none stepped
  | name content =>
    have none := busy (by rw [mode]; rfl)
    simp only [mode] at stepped
    exact isSparing_continues none stepped
  | comma =>
    have none := busy (by rw [mode]; rfl)
    simp only [mode] at stepped
    split at stepped
    · exact isSparing_enter (s := s.read c .between) none stepped
    · obtain ⟨u, entered, began⟩ := bind_eq_ok stepped
      exact (isSparing_enter none entered).begin began

/-! ### Whole texts -/

theorem run_all (ran : s.run true cs = .ok t) : s.run false cs = .ok t := by
  induction cs generalizing s with
  | nil => exact ran
  | cons c cs ih =>
    obtain ⟨u, stepped, ran⟩ := State.run_cons ran
    rw [State.run_cons_of_ok (step_all stepped)]
    exact ih ran

theorem State.IsSparing.run (sparing : s.IsSparing) (ran : s.run true cs = .ok t) :
    t.IsSparing := by
  induction cs generalizing s with
  | nil =>
    obtain rfl := Except.ok.inj ran
    exact sparing
  | cons c cs ih =>
    obtain ⟨u, stepped, ran⟩ := State.run_cons ran
    exact ih (sparing.step stepped) ran

/-- The end of the text leaves one form at most. -/
theorem State.IsSparing.flush (sparing : s.IsSparing) (flushed : s.flush true = .ok t) :
    s.flush false = .ok t ∧ t.IsSparing := by
  have busy (isBusy : s.mode.isIdle = false) := sparing.forms_eq_nil isBusy
  unfold State.flush at flushed ⊢
  cases mode : s.mode with
  | hash =>
    simp only [mode, isFull_all, Bool.false_eq_true, if_false] at flushed ⊢
    split at flushed
    · cases flushed
    · next room =>
      refine ⟨flushed, ?_⟩
      rw [← Except.ok.inj flushed]
      exact isSparing_accept (sparing.forms_eq_nil_of_room room) _
  | token | hashToken | name | character =>
    simp only [mode] at flushed ⊢
    refine ⟨flushed, ?_⟩
    rw [← Except.ok.inj flushed]
    exact isSparing_accept (busy (by rw [mode]; rfl)) _
  | string => simp only [mode, reduceCtorEq] at flushed
  | comma =>
    simp only [mode] at flushed ⊢
    exact ⟨flushed, isSparing_enter (busy (by rw [mode]; rfl)) flushed⟩
  | between | lineComment | blockComment =>
    simp only [mode] at flushed ⊢
    refine ⟨flushed, ?_⟩
    rwa [← Except.ok.inj flushed]

theorem forms_all {ds : List Datum} (read : forms true cs = .ok ds) :
    forms false cs = .ok ds ∧ ds.length ≤ 1 := by
  obtain ⟨s, ran, finished⟩ := forms_eq_ok read
  obtain ⟨t, flushed, closed, rfl⟩ := finish_eq_ok finished
  have sparing : State.IsSparing {} := .inl rfl
  obtain ⟨flushed', sparing⟩ := (sparing.run ran).flush flushed
  constructor
  · simp only [forms, run_all ran, State.finish, flushed', closed, bind, Except.bind]
  · rcases sparing with none | ⟨⟨d, one⟩, _⟩
    · simp [none]
    · simp [one]

end Steps

end LispBridge.Reader

namespace LispBridge.Datum

/-- A text with only one form has no others. -/
theorem readAll_of_read {s : String} {d : Datum} (accepted : read s = .ok d) :
    readAll s = .ok [d] := by
  obtain ⟨ds, all⟩ := Reader.forms_of_read accepted
  obtain ⟨same, few⟩ := Reader.forms_all all
  obtain rfl := List.eq_nil_of_length_eq_zero (Nat.le_zero.mp (Nat.le_of_succ_le_succ few))
  exact same

end LispBridge.Datum
