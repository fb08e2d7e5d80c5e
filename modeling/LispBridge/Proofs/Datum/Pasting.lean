import LispBridge.Proofs.Datum.OnlyForm
import LispBridge.Proofs.Datum.Spelling
import LispBridge.Session.Query

/-!
Source text that is pasted into a command as it is.

The commands `(lisp:progn …)` and `(slime::slime-macroexpand (lisp:quote …))` hold text that has
only been read by itself. Around it they read as intended up to two effects.

* `EndsOpen`: a text that ends inside a comment, or behind a `#\` without its character, takes the
  parenthesis behind it as well.
* `NestsWithin`: the lists around a text leave less room for what it opens.
* `read_prognCommand_iff`, `read_macroexpand_iff`: there are no other effects.
-/

namespace LispBridge.Reader

/-- Whether a reader in this mode takes a closing parenthesis as part of what it reads, although the
text may end here. -/
def Mode.swallows : Mode → Bool
  | .lineComment | .blockComment _ | .character => true
  | _ => false

end LispBridge.Reader

namespace LispBridge.Datum

open Reader

/-- Whether a text ends inside a comment, or behind a `#\` that waits for its character. -/
def EndsOpen (text : String) : Prop :=
  ∃ s, State.run false {} text.toList = .ok s ∧ s.mode.swallows = true

/-- Whether no more than `n` constructs are open at once in a text. -/
def NestsWithin (n : Nat) (text : String) : Prop :=
  ∀ front s, front <+: text.toList → State.run false {} front = .ok s → s.enclosing.length ≤ n

end LispBridge.Datum

namespace LispBridge.Reader

open Datum

/-! ### Texts in a bracket -/

section Within

variable {single : Bool} {o s t u : State} {bracket : Open} {outer : List Open} {c : Char}
  {cs : List Char}

/-- A text by itself has no parenthesis that closes what is around it. -/
theorem enclosing_ne_nil_of_step (stepped : s.step false ')' = .ok t)
    (settled : s.settle? false = some u) : u.enclosing ≠ [] := by
  intro closed
  rw [State.step_of_settle settled endsValue_close, State.begin] at stepped
  simp [isFull_all, State.close, closed, show Text.isBlank ')' = false from rfl] at stepped

/-- So all of its characters stay inside the bracket. -/
theorem lifts_of_step (holds : bracket.IsBracket) (tallied : s.Tallied)
    (stepped : s.step false c = .ok t) :
    Lifts o bracket outer (s.step false c) ((o.within bracket outer s).step single c) := by
  refine lifts_step holds tallied ?_
  rintro rfl u settled
  exact enclosing_ne_nil_of_step stepped settled

/-- Inside a bracket a text is read as by itself, if the constructs around it leave room for what
it opens. -/
theorem run_within (holds : bracket.IsBracket) (tallied : s.Tallied)
    (ran : s.run false cs = .ok t)
    (fits : ∀ front u, front <+: cs → s.run false front = .ok u →
      u.enclosing.length + (outer.length + 1) ≤ maxDepth) :
    (o.within bracket outer s).run single cs = .ok (o.within bracket outer t) := by
  induction cs generalizing s with
  | nil =>
    obtain rfl := Except.ok.inj ran
    rfl
  | cons c cs ih =>
    obtain ⟨next, stepped, ran⟩ := State.run_cons ran
    have room := fits [c] next (by simp) (by rw [State.run_cons_of_ok stepped]; rfl)
    rw [State.run_cons_of_ok ((lifts_of_step holds tallied stepped).forward next stepped room)]
    refine ih (tallied.step stepped) ran fun front u part ran => ?_
    exact fits (c :: front) u (List.prefix_cons_inj c |>.mpr part)
      ((State.run_cons_of_ok stepped front).trans ran)

/-- Without that room, the bracket cannot be read. -/
theorem fits_of_run_within (holds : bracket.IsBracket) (tallied : s.Tallied)
    (few : s.enclosing.length + (outer.length + 1) ≤ maxDepth) (ran : s.run false cs = .ok t)
    (inside : (o.within bracket outer s).run single cs = .ok u) {front : List Char} {v : State}
    (part : front <+: cs) (reached : s.run false front = .ok v) :
    v.enclosing.length + (outer.length + 1) ≤ maxDepth := by
  induction cs generalizing s front with
  | nil =>
    obtain rfl := List.prefix_nil.mp part
    obtain rfl := Except.ok.inj reached
    exact few
  | cons c cs ih =>
    obtain ⟨next, stepped, rest⟩ := State.run_cons ran
    obtain ⟨next', stepped', inner⟩ := State.run_cons inside
    obtain ⟨own, same, rfl⟩ := (lifts_of_step holds tallied stepped).backward next' stepped'
    obtain rfl := Except.ok.inj (stepped.symm.trans same)
    have left := length_enclosing_step (by rwa [length_within]) stepped'
    rw [length_within] at left
    cases front with
    | nil =>
      obtain rfl := Except.ok.inj reached
      exact few
    | cons c' front =>
      obtain ⟨rfl, part'⟩ := List.cons_prefix_cons.mp part
      rw [State.run_cons_of_ok stepped] at reached
      exact ih (tallied.step stepped) left rest inner part' reached

end Within

/-! ### The parenthesis behind a text -/

section Close

variable {s t : State}

/-- Where a text may end, the value in front is complete, unless the mode takes more characters. -/
theorem settle?_of_flush (flushed : s.flush false = .ok t) (closed : t.enclosing = [])
    (ends : s.mode.swallows = false) : s.settle? false = some t := by
  cases mode : s.mode with
  | between | token | hashToken | name =>
    simp only [State.flush, mode] at flushed
    rw [State.settle?, mode]
    exact congrArg some (Except.ok.inj flushed)
  | hash =>
    simp only [State.flush, mode, isFull_all, Bool.false_eq_true, if_false] at flushed
    simp only [State.settle?, mode, isFull_all, Bool.false_eq_true, if_false]
    exact congrArg some (Except.ok.inj flushed)
  | string =>
    simp only [State.flush, mode] at flushed
    cases flushed
  | comma =>
    simp only [State.flush, mode] at flushed
    obtain ⟨_, rfl⟩ := enter_eq_ok flushed
    cases closed
  | lineComment | blockComment | character =>
    rw [mode] at ends
    cases ends

/-- A parenthesis behind a complete text closes the list that the text is in. -/
theorem step_within_list (single : Bool) (o : State) (items : List Datum) (outer : List Open)
    (settled : s.settle? false = some t) (closed : t.enclosing = []) :
    ∃ u : State, (o.within (.list items) outer s).step single ')' =
        .ok (u.accept (.ofItems (items.reverse ++ t.forms.reverse))) ∧
      u.enclosing = outer ∧ u.forms = o.forms := by
  rw [step_within_close (by trivial) single o outer settled]
  refine ⟨{ (o.within (.list items) outer t).read ')' .between with enclosing := outer }, ?_,
    rfl, rfl⟩
  simp [State.close, State.within, closed, Open.holding]

/-- A parenthesis that a text takes is read as part of the text. -/
theorem step_of_swallows (single : Bool) (o : State) (bracket : Open) (outer : List Open)
    (ends : s.mode.swallows = true) :
    ∃ s', (o.within bracket outer s).step single ')' = .ok (o.within bracket outer s') ∧
      (s'.mode.swallows = true ∨
        s.mode = .character ∧ s' = s.read ')' (.name [')', '\\', '#'])) := by
  have same : (o.within bracket outer s).mode = s.mode := rfl
  cases mode : s.mode with
  | lineComment =>
    refine ⟨s.read ')' .lineComment, ?_, .inl rfl⟩
    simp only [State.step, same, mode]
    rfl
  | blockComment bar =>
    refine ⟨s.read ')' (.blockComment false), ?_, .inl rfl⟩
    simp only [State.step, same, mode, show ')' ≠ '#' from by decide, and_false, if_false]
    rfl
  | character =>
    refine ⟨_, ?_, .inr ⟨rfl, rfl⟩⟩
    simp only [State.step, same, mode]
    rfl
  | _ =>
    rw [mode] at ends
    cases ends

/-- How much a value leaves open does not depend on the value. -/
theorem place_fst_eq_nil (d d' : Datum) (forms forms' : List Datum) {enclosing : List Open}
    (closed : (place d forms enclosing).1 = []) : (place d' forms' enclosing).1 = [] := by
  induction enclosing generalizing d d' with
  | nil => rfl
  | cons op enclosing ih =>
    cases op with
    | list items => cases closed
    | vector start => cases closed
    | prefixed head => exact ih _ _ closed

/-- Where a text may end behind `#\`, it may end behind the character as well. -/
theorem settle?_of_character {ds : List Datum} (mode : s.mode = .character)
    (finished : s.finish false = .ok ds) (content : List Char) :
    ∃ t, (s.read ')' (.name content)).settle? false = some t ∧ t.enclosing = [] := by
  obtain ⟨t, flushed, closed, -⟩ := finish_eq_ok finished
  simp only [State.flush, mode] at flushed
  rw [← Except.ok.inj flushed] at closed
  exact ⟨_, rfl, place_fst_eq_nil _ _ _ _ closed⟩

end Close

/-! ### Accepted texts in a list -/

section Pasted

variable {text : String} {ds : List Datum}
variable (single : Bool) (o : State) (items : List Datum) (outer : List Open)

/-- With enough room, the text is read in the list as by itself. -/
theorem run_pasted {s : State} (ran : State.run false {} text.toList = .ok s)
    (nests : NestsWithin (maxDepth - (outer.length + 1)) text) (room : outer.length < maxDepth) :
    (o.within (.list items) outer {}).run single text.toList =
      .ok (o.within (.list items) outer s) := by
  refine run_within trivial ⟨rfl, List.nil_prefix⟩ ran fun front u part reached => ?_
  have few := nests front u part reached
  omega

/-- The parenthesis behind a complete text closes the list around its forms. -/
theorem run_pasted_of_complete (accepted : readAll text = .ok ds) (complete : ¬ EndsOpen text)
    (nests : NestsWithin (maxDepth - (outer.length + 1)) text) (room : outer.length < maxDepth) :
    ∃ u : State, (o.within (.list items) outer {}).run single (text.toList ++ [')']) =
        .ok (u.accept (.ofItems (items.reverse ++ ds))) ∧
      u.enclosing = outer ∧ u.forms = o.forms := by
  obtain ⟨s, ran, finished⟩ := forms_eq_ok accepted
  obtain ⟨t, flushed, closed, rfl⟩ := finish_eq_ok finished
  have settled : s.settle? false = some t := by
    refine settle?_of_flush flushed closed ?_
    cases ends : s.mode.swallows with
    | false => rfl
    | true => exact absurd ⟨s, ran, ends⟩ complete
  obtain ⟨u, stepped, left⟩ := step_within_list single o items outer settled closed
  refine ⟨u, ?_, left⟩
  rw [State.run_append_of_ok (run_pasted single o items outer ran nests room),
    State.run_cons_of_ok stepped]
  rfl

/-- The parenthesis behind a text that ends open leaves the list open. -/
theorem run_pasted_of_endsOpen (accepted : readAll text = .ok ds) (ends : EndsOpen text)
    (nests : NestsWithin (maxDepth - (outer.length + 1)) text) (room : outer.length < maxDepth) :
    ∃ s, (o.within (.list items) outer {}).run single (text.toList ++ [')']) =
        .ok (o.within (.list items) outer s) ∧
      (s.mode.swallows = true ∨ ∃ t, s.settle? false = some t ∧ t.enclosing = []) := by
  obtain ⟨s, ran, finished⟩ := forms_eq_ok accepted
  obtain ⟨s', ran', swallows⟩ := ends
  obtain rfl := Except.ok.inj (ran.symm.trans ran')
  obtain ⟨next, stepped, goes⟩ := step_of_swallows single o (.list items) outer swallows
  refine ⟨next, ?_, goes.imp_right ?_⟩
  · rw [State.run_append_of_ok (run_pasted single o items outer ran nests room),
      State.run_cons_of_ok stepped]
    rfl
  · rintro ⟨mode, rfl⟩
    exact settle?_of_character mode finished _

/-- Without enough room, the reader stops inside the text. -/
theorem run_pasted_of_deep (accepted : readAll text = .ok ds) (room : outer.length < maxDepth)
    (deep : ¬ NestsWithin (maxDepth - (outer.length + 1)) text) (more : List Char) :
    ∃ fault, (o.within (.list items) outer {}).run single (text.toList ++ more) =
      .error fault := by
  cases inside : (o.within (.list items) outer {}).run single text.toList with
  | error fault => exact ⟨fault, State.run_append_of_error inside more⟩
  | ok u =>
    obtain ⟨s, ran, _⟩ := forms_eq_ok accepted
    refine absurd (fun front v part reached => ?_) deep
    have start : 0 + (outer.length + 1) ≤ maxDepth := by omega
    have few := fits_of_run_within (s := {}) (by trivial : (Open.list items).IsBracket)
      ⟨rfl, List.nil_prefix⟩ start ran inside part reached
    omega

end Pasted

/-! ### Commands with a text inside -/

/-- The reader behind the text in front of a pasted one, but for the lists that it opened. -/
def State.behind (front : String) : State :=
  { seen := front.toList.reverse, count := front.length }

end LispBridge.Reader

namespace LispBridge.Datum

open Reader

theorem read_of_run {text : String} {s : State} {d : Datum}
    (ran : State.run true {} text.toList = .ok s) (between : s.mode = .between)
    (closed : s.enclosing = []) (only : s.forms = [d]) : read text = .ok d := by
  have yields := (State.yields_of_run ran between).forms_eq closed
  rw [read, yields, only]
  rfl

theorem run_of_read {text : String} {d : Datum} (accepted : read text = .ok d) :
    ∃ s ds, State.run true {} text.toList = .ok s ∧ s.finish true = .ok ds := by
  obtain ⟨ds, all⟩ := forms_of_read accepted
  obtain ⟨s, ran, finished⟩ := forms_eq_ok all
  exact ⟨s, _, ran, finished⟩

section Commands

variable {text : String}

theorem toList_prognCommand (text : String) :
    (Action.prognCommand text).toList = "(lisp:progn ".toList ++ (text.toList ++ [')']) := by
  show ("(lisp:progn " ++ text ++ ")").toList = _
  rw [String.toList_append, String.toList_append, List.append_assoc]
  rfl

theorem toList_macroexpand (text : String) :
    (QueryText.macroexpand text).toList =
      "(slime::slime-macroexpand (lisp:quote ".toList ++ (text.toList ++ [')'] ++ [')']) := by
  show ("(slime::slime-macroexpand (lisp:quote " ++ text ++ "))").toList = _
  rw [String.toList_append, String.toList_append, List.append_assoc, List.append_assoc]
  rfl

theorem run_prognCommand (text : String) :
    State.run true {} (Action.prognCommand text).toList =
      ((State.behind "(lisp:progn ").within (.list [.symbol "lisp:progn"]) [] {}).run true
        (text.toList ++ [')']) := by
  have front : State.run true {} "(lisp:progn ".toList =
      .ok ((State.behind "(lisp:progn ").within (.list [.symbol "lisp:progn"]) [] {}) := by
    rfl
  rw [toList_prognCommand, State.run_append_of_ok front]

theorem run_macroexpand (text : String) :
    State.run true {} (QueryText.macroexpand text).toList =
      ((State.behind "(slime::slime-macroexpand (lisp:quote ").within (.list [.symbol "lisp:quote"])
        [.list [.symbol "slime::slime-macroexpand"]] {}).run true
          (text.toList ++ [')'] ++ [')']) := by
  have front : State.run true {} "(slime::slime-macroexpand (lisp:quote ".toList =
      .ok ((State.behind "(slime::slime-macroexpand (lisp:quote ").within
        (.list [.symbol "lisp:quote"]) [.list [.symbol "slime::slime-macroexpand"]] {}) := by
    rfl
  rw [toList_macroexpand, State.run_append_of_ok front]

/-- Forms that are evaluated one after another are those of their text, unless the text takes the
parenthesis behind it or is nested too deep. -/
theorem read_prognCommand_iff {ds : List Datum} (accepted : readAll text = .ok ds) :
    read (Action.prognCommand text) = .ok (.list (.symbol "lisp:progn" :: ds)) ↔
      ¬ EndsOpen text ∧ NestsWithin (maxDepth - 1) text := by
  have room : ([] : List Open).length < maxDepth := by decide
  constructor
  · intro back
    obtain ⟨s, _, ran, finished⟩ := run_of_read back
    rw [run_prognCommand] at ran
    have nests : NestsWithin (maxDepth - 1) text := by
      by_contra deep
      obtain ⟨fault, failed⟩ := run_pasted_of_deep true _ _ [] accepted room deep [')']
      cases failed.symm.trans ran
    refine ⟨fun ends => ?_, nests⟩
    obtain ⟨next, reached, -⟩ := run_pasted_of_endsOpen true _ _ [] accepted ends nests room
    obtain rfl := Except.ok.inj (ran.symm.trans reached)
    exact finish_within_ne_ok (by trivial) _ finished
  · rintro ⟨complete, nests⟩
    obtain ⟨u, reached, closed, none⟩ := run_pasted_of_complete true _ _ [] accepted complete nests
      room
    rw [← run_prognCommand] at reached
    refine read_of_run reached rfl ?_ ?_
    · rw [State.accept_eq, closed]
      rfl
    · rw [State.accept_eq, closed, none]
      rfl

/-- A form that is expanded is the one of its text, under the same conditions. -/
theorem read_macroexpand_iff {d : Datum} (accepted : read text = .ok d) :
    read (QueryText.macroexpand text) =
        .ok (.list [.symbol "slime::slime-macroexpand", .list [.symbol "lisp:quote", d]]) ↔
      ¬ EndsOpen text ∧ NestsWithin (maxDepth - 2) text := by
  have accepted := readAll_of_read accepted
  let outer : List Open := [.list [.symbol "slime::slime-macroexpand"]]
  have room : outer.length < maxDepth := by decide
  constructor
  · intro back
    obtain ⟨s, _, ran, finished⟩ := run_of_read back
    rw [run_macroexpand] at ran
    have nests : NestsWithin (maxDepth - 2) text := by
      by_contra deep
      obtain ⟨fault, failed⟩ := run_pasted_of_deep true _ _ outer accepted room deep [')', ')']
      rw [List.append_assoc] at ran
      cases failed.symm.trans ran
    refine ⟨fun ends => ?_, nests⟩
    obtain ⟨next, reached, goes⟩ := run_pasted_of_endsOpen true _ _ outer accepted ends nests room
    rw [State.run_append_of_ok reached] at ran
    obtain ⟨last, stepped, ran⟩ := State.run_cons ran
    obtain rfl := Except.ok.inj ran
    rcases goes with swallows | ⟨t, settled, closed⟩
    · obtain ⟨next, stepped', -⟩ := step_of_swallows true _ _ _ swallows
      obtain rfl := Except.ok.inj (stepped.symm.trans stepped')
      exact finish_within_ne_ok (by trivial) _ finished
    · obtain ⟨u, stepped', inside, -⟩ := step_within_list true _ _ _ settled closed
      obtain rfl := Except.ok.inj (stepped.symm.trans stepped')
      rw [State.accept_list inside] at finished
      cases finished
  · rintro ⟨complete, nests⟩
    obtain ⟨u, reached, inside, none⟩ := run_pasted_of_complete true
      (.behind "(slime::slime-macroexpand (lisp:quote ") [.symbol "lisp:quote"] outer accepted
      complete nests room
    have accepts := State.accept_list inside (.list [.symbol "lisp:quote", d])
    have closed := State.step_close true (s := u.accept (.list [.symbol "lisp:quote", d])) rfl
      (by rw [accepts])
    have ran := (State.run_append_of_ok reached [')']).trans (State.run_cons_of_ok closed [])
    rw [← run_macroexpand] at ran
    refine read_of_run ran rfl rfl ?_
    rw [accepts]
    show Datum.list _ :: u.forms = _
    rw [none]
    rfl

end Commands

end LispBridge.Datum
