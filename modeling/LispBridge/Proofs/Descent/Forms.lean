import LispBridge.Proofs.Descent.Values

/-!
Whole texts: recursive descent and the reader come to the same.

* `readForms_parses`, `readOnly_parses`: every form of what is left of a text, and its only form.
* `readForms_ends`, `readOnly_ends`: what they come to for a whole text.
-/

namespace LispBridge.Descent

open Reader Datum

variable {text front back gap used rest : List Char} {k : Nat} {d : Datum}

theorem read_parses (split : text = front ++ back) : ReadsNext (read text) front back k :=
  read_reads (reads text (back.length + 1)).1 split (Nat.lt_succ_self _)

/-! ### The top level -/

section TopLevel

variable {single : Bool} {o : State}

/-- The state behind a form of the text. -/
def withForm (o : State) (cs : List Char) (d : Datum) : State :=
  { o.passed cs with forms := d :: o.forms }

/-- Outside of every construct, a value is a form of the text. -/
theorem accept_passed (between : o.mode = .between) (closed : o.enclosing = []) (cs : List Char)
    (d : Datum) : (o.passed cs).accept d = withForm o cs d := by
  simp [State.accept_eq, withForm, State.passed, place, between, closed]

theorem finish_of_closed (single : Bool) (between : o.mode = .between) (closed : o.enclosing = []) :
    o.outcome single [] = .ok o.forms.reverse := by
  simp only [State.outcome_nil, State.finish, State.flush, between, closed, bind, Except.bind]

/-- Behind the only form, whatever is solid is trailing data. -/
theorem outcome_of_full {c : Char} {r : List Char} (between : o.mode = .between)
    (full : o.isFull single = true) (solid : Solid (c :: r)) :
    o.outcome single (c :: r) = .error (.trailingData o.offset) := by
  obtain ⟨blank, semicolon, block⟩ := solid c rfl
  by_cases hash : c = '#'
  · subst hash
    have back : (o.read '#' .hash).offset - 1 = o.offset := by
      simp [State.offset, State.read, Utf8.charLength, Char.utf8Size]
    have full' : (o.read '#' .hash).isFull single = true := full
    rw [State.outcome_cons_of_ok (by simp only [State.step, between]; rfl)]
    cases r with
    | nil =>
      simp only [State.outcome_nil, State.finish, State.flush, full', back, if_true]
      rfl
    | cons d r =>
      have bar : d ≠ '|' := by
        rintro rfl
        exact block ⟨r, rfl⟩
      refine State.outcome_cons_of_error ?_ r
      simp only [State.step, bar, full', back, if_true, if_false]
      rfl
  · exact State.outcome_cons_of_error (State.step_of_full between full blank ⟨semicolon, hash⟩) r

/-- What is solid is not skipped. -/
theorem Skips.not_solid {c : Char} {r : List Char} (skips : Skips (c :: r) gap []) :
    ¬ Solid (c :: r) := by
  intro solid
  -- A reader that has its only form tells a gap from anything else.
  let full : State := { forms := [.nil] }
  have trailing : full.outcome true (c :: r) = _ := outcome_of_full rfl rfl solid
  rw [skips.same true full rfl, finish_of_closed true rfl rfl] at trailing
  cases trailing

/-- A form in front of the rest of a text. -/
theorem Takes.form (takes : Takes (front ++ gap) used rest k d)
    (skips : Skips back gap (used ++ rest)) (ready : Ready single o front k)
    (closed : o.enclosing = []) :
    o.outcome single back = (withForm o (gap ++ used) d).outcome single rest := by
  rw [skips.same single o ready.between, takes.same single _ (ready.passed gap),
    State.passed_passed, accept_passed ready.between closed]

/-- A form and everything that is skipped behind it. -/
theorem Takes.formed {gap' rest' : List Char} (takes : Takes (front ++ gap) used rest k d)
    (skips : Skips back gap (used ++ rest)) (skips' : Skips rest gap' rest')
    (ready : Ready single o front k) (closed : o.enclosing = []) :
    o.outcome single back = (withForm o (gap ++ used ++ gap') d).outcome single rest' := by
  rw [takes.form skips ready closed, skips'.same single (withForm o _ d) ready.between]
  simp [withForm, State.passed, Nat.add_assoc]

theorem Ready.withForm (ready : Ready false o front k) (cs : List Char) (d : Datum) :
    Ready false (withForm o cs d) (front ++ cs) k where
  between := ready.between
  seen := (ready.passed cs).seen
  count := (ready.passed cs).count
  depth := ready.depth
  room := isFull_all

end TopLevel

/-! ### Every form -/

theorem readForms_parses (forms : List Datum) (split : text = front ++ back) :
    Parses (readForms text forms) (behind front k)
      (fun ds c => c = behind text k ∧ ∃ more, ds = forms.reverse ++ more ∧
        (∀ d ∈ more, Stands k d) ∧ (back ≠ [] → Solid back → more ≠ []) ∧
        ∀ o : State, Ready false o front k → o.enclosing = [] →
          o.outcome false back = .ok (o.forms.reverse ++ more))
      (fun f => ∀ o : State, Ready false o front k → o.enclosing = [] →
        o.outcome false back = .error f) := by
  induction length : back.length using Nat.strongRecOn generalizing front back forms with
  | ind n ih =>
    refine .succ (.bind (read_parses split) ?_ ?_)
    · rintro _ _ (@⟨gap, skips⟩ | @⟨gap, used, rest, d, skips, takes⟩)
      · refine .pure ⟨?_, [], by simp, by simp, ?_, fun o ready closed => ?_⟩
        · rw [split, skips.split, List.append_nil]
        · intro nonempty solid
          obtain ⟨c, r, rfl⟩ := List.exists_cons_of_ne_nil nonempty
          exact absurd solid skips.not_solid
        · rw [skips.same false o ready.between, List.append_nil]
          exact finish_of_closed false ready.between closed
      · have split' : text = (front ++ gap ++ used) ++ rest := by
          rw [split, skips.split, List.append_assoc, List.append_assoc]
        have shorter : rest.length < n :=
          length ▸ Nat.lt_of_lt_of_le takes.length_lt skips.length_le
        refine (ih _ shorter (d :: forms) split' rfl).mono ?_ ?_
        · rintro _ _ ⟨ended, more, rfl, fits, -, same⟩
          refine ⟨ended, d :: more, by simp, List.forall_mem_cons.mpr ⟨takes.fits, fits⟩,
            fun _ _ => List.cons_ne_nil _ _, fun o ready closed => ?_⟩
          have ready' := ready.withForm (gap ++ used) d
          rw [← List.append_assoc] at ready'
          rw [takes.form skips ready closed, same _ ready' closed]
          simp [withForm]
        · intro f failed o ready closed
          have ready' := ready.withForm (gap ++ used) d
          rw [← List.append_assoc] at ready'
          rw [takes.form skips ready closed, failed _ ready' closed]
    · intro f failed o ready closed
      exact failed false o ready (by simp [closed])

/-! ### The only form -/

/-- The only form of a text, from its forms. -/
def onlyForm : List Datum → Except ReadFault Datum
  | [] => .error .emptyInput
  | d :: _ => .ok d

section Only

variable {o : State} {gap' : List Char}

/-- A form with nothing but blanks and comments around it is the only one. -/
theorem Takes.only (takes : Takes (front ++ gap) used rest k d)
    (skips : Skips back gap (used ++ rest)) (skips' : Skips rest gap' [])
    (ready : Ready true o front k) (closed : o.enclosing = []) (none : o.forms = []) :
    (o.outcome true back >>= onlyForm) = .ok d := by
  rw [takes.formed skips skips' ready closed,
    finish_of_closed (o := withForm o _ d) true ready.between closed, withForm, none]
  rfl

/-- Anything else behind a form is trailing data. -/
theorem Takes.trailing {c : Char} {r : List Char} (takes : Takes (front ++ gap) used rest k d)
    (skips : Skips back gap (used ++ rest)) (skips' : Skips rest gap' (c :: r))
    (ready : Ready true o front k) (closed : o.enclosing = []) :
    o.outcome true back =
      .error (.trailingData (Utf8.byteLength (front ++ gap ++ used ++ gap'))) := by
  have full : (withForm o (gap ++ used ++ gap') d).isFull true = true := by
    simp [State.isFull, withForm, State.passed, closed]
  have here : (withForm o (gap ++ used ++ gap') d).offset =
      Utf8.byteLength (front ++ gap ++ used ++ gap') := by
    have := (ready.passed (gap ++ used ++ gap')).offset
    rwa [← List.append_assoc, ← List.append_assoc] at this
  rw [takes.formed skips skips' ready closed,
    outcome_of_full (o := withForm o _ d) ready.between full skips'.solid, here]

end Only

theorem readOnly_parses (split : text = front ++ back) :
    Parses (readOnly text) (behind front k)
      (fun d c => c = behind text k ∧ ∀ o : State, Ready true o front k → o.enclosing = [] →
        o.forms = [] → (o.outcome true back >>= onlyForm) = .ok d)
      (fun f => ∀ o : State, Ready true o front k → o.enclosing = [] → o.forms = [] →
        (o.outcome true back >>= onlyForm) = .error f) := by
  refine .bind (read_parses split) ?_ ?_
  · rintro _ _ (@⟨gap, skips⟩ | @⟨gap, used, rest, d, skips, takes⟩)
    · refine .stop fun o ready closed none => ?_
      have ended := finish_of_closed true (ready.passed gap).between closed
      rw [skips.same true o ready.between, ended, show (o.passed gap).forms = [] from none]
      rfl
    · have split' : text = (front ++ gap ++ used) ++ rest := by
        rw [split, skips.split, List.append_assoc, List.append_assoc]
      obtain ⟨gap', rest', skips', skipped⟩ := skipAtmosphere_behind (k := k) split'
      have split'' : text = (front ++ gap ++ used ++ gap') ++ rest' := by
        rw [split', skips'.split, List.append_assoc _ gap']
      have size : Utf8.byteLength text =
          Utf8.byteLength (front ++ gap ++ used ++ gap') + Utf8.byteLength rest' := by
        rw [split'', Utf8.byteLength_append]
      refine .call skipped (.after getOffset_behind ?_)
      rcases rest' with - | ⟨c, r⟩
      · have ended : ¬ Utf8.byteLength (front ++ gap ++ used ++ gap') < Utf8.byteLength text := by
          rw [size, Utf8.byteLength_nil]
          omega
        simp only [ended, if_false]
        exact .pure ⟨by rw [split'', List.append_nil], fun o => takes.only skips skips'⟩
      · have trailing : Utf8.byteLength (front ++ gap ++ used ++ gap') < Utf8.byteLength text := by
          have positive := Utf8.charLength_pos c
          rw [Utf8.byteLength_cons] at size
          omega
        simp only [trailing, if_true]
        refine .fails rfl fun o ready closed _ => ?_
        rw [takes.trailing skips skips' ready closed]
        rfl
  · intro f failed o ready closed _
    rw [failed true o ready (by simp [closed])]
    rfl

/-! ### From the start of a text -/

theorem ready_start (single : Bool) : Ready single {} [] 0 where
  between := rfl
  seen := rfl
  count := rfl
  depth := rfl
  room := by cases single <;> rfl

/-- What recursive descent over a text comes to if the reader comes to a result. -/
def comesTo {α : Type} (text : String) : Except ReadFault α → Except Stop (α × Cursor)
  | .ok a => .ok (a, { offset := text.utf8ByteSize })
  | .error f => .error (.fault f)

theorem behind_toList (text : String) :
    behind text.toList 0 = { offset := text.utf8ByteSize } := by
  rw [behind, Utf8.byteLength_toList]

theorem readForms_ends (text : String) :
    Ends (readForms text.toList []) {} (comesTo text (Datum.readAll text)) := by
  have start := ready_start false
  cases readForms_parses (k := 0) [] (List.nil_append text.toList).symm with
  | ok ran holds =>
    obtain ⟨rfl, more, rfl, -, -, same⟩ := holds
    have all : Datum.readAll text = .ok _ := same {} start rfl
    rw [behind_toList] at ran
    rw [all]
    exact ran
  | fault failed holds =>
    have all : Datum.readAll text = .error _ := holds {} start rfl
    rw [all]
    exact failed

theorem readOnly_ends (text : String) :
    Ends (readOnly text.toList) {} (comesTo text (Datum.read text)) := by
  have start := ready_start true
  cases readOnly_parses (k := 0) (List.nil_append text.toList).symm with
  | ok ran holds =>
    obtain ⟨rfl, same⟩ := holds
    have only : Datum.read text = .ok _ := same {} start rfl rfl
    rw [behind_toList] at ran
    rw [only]
    exact ran
  | fault failed holds =>
    have only : Datum.read text = .error _ := holds {} start rfl rfl
    rw [only]
    exact failed

end LispBridge.Descent
