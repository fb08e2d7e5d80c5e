import LispBridge.Proofs.Datum.Embedding
import LispBridge.Proofs.Datum.RoundTrip
import LispBridge.Proofs.Text.Utf8

/-!
What stands between the forms of a text.

* `IsGap`: white space and comments, each of which ends.
* `State.run_gap`: the reader passes a gap and is ready for a form as it was before.
* `separated_values_read`: values with separators between them are read back, and they are a single
  form only if there is one of them.
-/

namespace LispBridge.Reader

/-! ### Gaps -/

/-- White space, comments up to the end of their line, and block comments with their end mark, in
any order. A block comment ends with the first end mark behind its opening. -/
inductive IsGap : List Char → Prop
  | nil : IsGap []
  | blank {c : Char} {cs : List Char} (blank : Text.isBlank c = true) (gap : IsGap cs) :
      IsGap (c :: cs)
  | lineComment {body cs : List Char} (line : '\n' ∉ body) (gap : IsGap cs) :
      IsGap (';' :: (body ++ '\n' :: cs))
  | blockComment {body cs : List Char} (unmarked : ¬ ['|', '#'] <:+: body) (gap : IsGap cs) :
      IsGap ('#' :: '|' :: (body ++ '|' :: '#' :: cs))

/-- A gap that starts with white space, which ends any value in front of it. -/
def IsSeparator (cs : List Char) : Prop :=
  ∃ c r, cs = c :: r ∧ Text.isBlank c = true ∧ IsGap r

theorem IsSeparator.isGap {cs : List Char} (separates : IsSeparator cs) : IsGap cs := by
  obtain ⟨c, r, rfl, blank, gap⟩ := separates
  exact .blank blank gap

namespace State

variable {single : Bool} {s t : State} {c : Char} {cs body : List Char}

theorem passed_passed (s : State) (as bs : List Char) :
    (s.passed as).passed bs = s.passed (as ++ bs) := by
  simp [passed, Nat.add_assoc]

/-- A comment goes on up to the end of its line. -/
theorem run_lineComment (single : Bool) (inside : s.mode = .lineComment) (line : '\n' ∉ body) :
    s.run single body = .ok (s.passed body) := by
  induction body generalizing s with
  | nil => rfl
  | cons c body ih =>
    obtain ⟨other, line⟩ := not_or.mp (mt List.mem_cons.mpr line)
    have stepped : s.step single c = .ok (s.passed [c]) := by
      simp only [step, inside, Ne.symm other, if_false, read_eq_passed]
      rw [← inside]
      rfl
    rw [run_cons_of_ok stepped, ih (s := s.passed [c]) inside line, passed_passed,
      List.singleton_append]

/-- A block comment goes on up to its end mark. -/
theorem run_blockComment (single : Bool) {bar : Bool} (inside : s.mode = .blockComment bar)
    (open' : bar = true → body.head? ≠ some '#') (unmarked : ¬ ['|', '#'] <:+: body) :
    ∃ bar', s.run single body = .ok { s.passed body with mode := .blockComment bar' } := by
  induction body generalizing s bar with
  | nil =>
    refine ⟨bar, ?_⟩
    rw [← inside]
    rfl
  | cons c body ih =>
    have goes : ¬ (bar = true ∧ c = '#') := by
      rintro ⟨isBar, rfl⟩
      exact open' isBar rfl
    have stepped : s.step single c = .ok (s.read c (.blockComment (c = '|'))) := by
      simp only [step, inside, goes, if_false]
    have open'' : decide (c = '|') = true → body.head? ≠ some '#' := by
      intro isBar starts
      obtain rfl := of_decide_eq_true isBar
      obtain ⟨r, rfl⟩ := List.head?_eq_some_iff.mp starts
      exact unmarked ⟨[], r, rfl⟩
    have unmarked' : ¬ ['|', '#'] <:+: body :=
      fun marked => unmarked (marked.trans (List.suffix_cons c body).isInfix)
    obtain ⟨bar', ran⟩ := ih (s := s.read c _) rfl open'' unmarked'
    refine ⟨bar', ?_⟩
    rw [run_cons_of_ok stepped, ran, read_eq_passed]
    simp [passed, Nat.add_assoc, Nat.add_comm 1]

/-- The reader passes a gap and is as it was before, even if it takes no further form. -/
theorem run_gap (single : Bool) (gap : IsGap cs) (between : s.mode = .between) :
    s.run single cs = .ok (s.passed cs) := by
  induction gap generalizing s with
  | nil => rfl
  | @blank c cs blank _ ih =>
    rw [run_cons_of_ok (step_blank single between blank), ih (s := s.passed [c]) between,
      passed_passed, List.singleton_append]
  | @lineComment body cs line _ ih =>
    have opened : s.step single ';' = .ok (s.read ';' .lineComment) := by
      simp only [step, between]
      rfl
    have inside := run_lineComment single (s := s.read ';' .lineComment) rfl line
    rw [run_cons_of_ok opened, run_append_of_ok inside, run_cons_of_ok rfl, ih rfl]
    simp [read_eq_passed, passed, between]
    omega
  | @blockComment body cs unmarked _ ih =>
    have opened : s.step single '#' = .ok (s.read '#' .hash) := by
      simp only [step, between]
      rfl
    obtain ⟨bar, inside⟩ := run_blockComment single
      (s := (s.read '#' .hash).read '|' (.blockComment false)) rfl (by simp) unmarked
    have barred (u : State) (mode : u.mode = .blockComment bar) :
        u.step single '|' = .ok (u.read '|' (.blockComment true)) := by
      simp [step, mode]
    rw [run_cons_of_ok opened, run_cons_of_ok rfl, run_append_of_ok inside,
      run_cons_of_ok (barred _ rfl), run_cons_of_ok rfl, ih rfl]
    simp [read_eq_passed, passed, between]
    omega

/-- Where no further form may follow, what begins one is trailing data. -/
theorem step_of_full (between : s.mode = .between) (full : s.isFull single = true)
    (blank : Text.isBlank c = false) (comment : c ≠ ';' ∧ c ≠ '#') :
    s.step single c = .error (.trailingData s.offset) := by
  simp only [step, between, begin, blank, comment.1, comment.2, full, Bool.false_eq_true, if_false,
    if_true]

end State

end LispBridge.Reader

namespace LispBridge.Datum

open Reader

/-! ### Values with separators -/

/-- The texts of values, each with a text behind it. -/
def spaced : List (Datum × String) → String
  | [] => ""
  | (d, separator) :: items => d.wire ++ separator ++ spaced items

/-- The text of a value begins with a character that begins a value. -/
theorem exists_first {d : Datum} (wellFormed : d.WellFormed) :
    ∃ c r, d.chars .wire = c :: r ∧ Text.isBlank c = false ∧ c ≠ ';' ∧ c ≠ '#' := by
  have token {cs : List Char} (token : IsToken cs) :
      ∃ c r, cs = c :: r ∧ Text.isBlank c = false ∧ c ≠ ';' ∧ c ≠ '#' := by
    obtain ⟨c, r, rfl⟩ := List.exists_cons_of_ne_nil token.nonempty
    have plain := token.plain c List.mem_cons_self
    refine ⟨c, r, rfl, not_isBlank_of_plain plain, ?_, (token.begins c rfl).1⟩
    rintro rfl
    cases plain
  cases wellFormed with
  | nil =>
    rw [chars_nil]
    exact token (by decide)
  | t =>
    rw [chars_t]
    exact token (by decide)
  | int n =>
    rw [chars_int]
    exact token (isToken_of_numeral (renderInt_ne_nil _)
      fun _ mem => isNumeralChar_of_mem_renderInt mem)
  | float finite =>
    rw [chars_float]
    exact token (isToken_render finite)
  | str content =>
    rw [chars_str]
    exact ⟨_, _, rfl, by decide⟩
  | symbol plain =>
    rw [chars_symbol]
    exact token plain.token
  | list nonempty elements =>
    obtain ⟨d, ds, rfl⟩ := List.exists_cons_of_ne_nil nonempty
    rw [chars_list_cons]
    exact ⟨_, _, rfl, by decide⟩

section Separated

variable {single : Bool} {o : State} {d : Datum} {front separator : String}
  {items : List (Datum × String)}

/-- A value that may stand at the top level of a text. -/
structure IsForm (d : Datum) : Prop where
  wellFormed : d.WellFormed
  fits : d.nesting ≤ maxDepth

/-- At the top level, a value and the separator behind it add the value to the forms. -/
theorem run_separated (single : Bool) (form : d.IsForm) (separates : IsSeparator separator.toList)
    (between : o.mode = .between) (closed : o.enclosing = []) (room : o.isFull single = false) :
    o.run single (d.wire ++ separator).toList =
      .ok { o.passed (d.wire ++ separator).toList with forms := d :: o.forms } := by
  have yields := readsBack_of_wellFormed form.wellFormed ((Nat.zero_add _).trans_le form.fits)
    single o between (Nat.le_of_eq (congrArg List.length closed)) room
  rw [form.wellFormed.reread] at yields
  have after := State.run_gap single separates.isGap yields.mode_eq
  obtain ⟨c, r, text, blank, -⟩ := separates
  rw [text] at after
  rw [String.toList_append, text, show d.wire.toList = d.chars .wire from rfl,
    yields.run_append_cons (.inl blank), after]
  simp [State.accept_eq, State.passed, closed, place, between, Nat.add_assoc]

/-- A reader that takes every form takes all of the values. -/
theorem run_spaced (forms : ∀ i ∈ items, i.1.IsForm)
    (apart : ∀ i ∈ items, IsSeparator i.2.toList) (between : o.mode = .between)
    (closed : o.enclosing = []) :
    o.run false (spaced items).toList =
      .ok { o.passed (spaced items).toList with
        forms := (items.map Prod.fst).reverse ++ o.forms } := by
  induction items generalizing o with
  | nil => rfl
  | cons i items ih =>
    obtain ⟨form, forms⟩ := List.forall_mem_cons.mp forms
    obtain ⟨separates, apart⟩ := List.forall_mem_cons.mp apart
    have first := run_separated false form separates between closed isFull_all
    rw [spaced, String.toList_append, State.run_append_of_ok first,
      ih forms apart (o := { o.passed _ with forms := _ }) between closed]
    simp [State.passed, Nat.add_assoc]

/-- Behind its only form, a reader takes no other. -/
theorem run_of_full (form : d.IsForm) (between : o.mode = .between)
    (full : o.isFull single = true) (more : String) :
    o.run single (d.wire ++ more).toList = .error (.trailingData o.offset) := by
  obtain ⟨c, r, text, blank, comment⟩ := exists_first form.wellFormed
  rw [String.toList_append, show d.wire.toList = d.chars .wire from rfl, text, List.cons_append,
    State.run, State.step_of_full between full blank comment]

theorem offset_passed (text : String) :
    (State.passed {} text.toList).offset = text.utf8ByteSize := by
  simp [State.offset, State.passed, Utf8.byteLength_toList]

end Separated

/-- What the text of values comes to if it must be a single form. -/
def asSingle (front : String) : List (Datum × String) → Except Failure Datum
  | [] => .error (.malformed "empty input")
  | [(d, _)] => .ok d
  | (d, separator) :: _ :: _ =>
    .error (.malformed s!"trailing data at byte {(front ++ d.wire ++ separator).utf8ByteSize}")

section Separated

variable {front : String} {items : List (Datum × String)}

theorem read_spaced (opens : IsGap front.toList) (forms : ∀ i ∈ items, i.1.IsForm)
    (apart : ∀ i ∈ items, IsSeparator i.2.toList) :
    (read (front ++ spaced items)).mapError (fun fault => (MessageFault.unreadable fault).failure) =
      asSingle front items := by
  have gap := State.run_gap true (s := {}) opens rfl
  cases items with
  | nil =>
    rw [read, Reader.forms, spaced, String.append_empty, gap]
    rfl
  | cons i items =>
    obtain ⟨d, separator⟩ := i
    obtain ⟨form, forms⟩ := List.forall_mem_cons.mp forms
    obtain ⟨separates, apart⟩ := List.forall_mem_cons.mp apart
    have first := run_separated true (o := State.passed {} front.toList) form separates
      rfl rfl rfl
    rw [State.passed_passed, ← String.toList_append, ← String.append_assoc] at first
    have ran : State.run true {} (front ++ spaced ((d, separator) :: items)).toList =
        State.run true { State.passed {} (front ++ d.wire ++ separator).toList with forms := [d] }
          (spaced items).toList := by
      rw [spaced, String.toList_append, State.run_append_of_ok gap, String.toList_append,
        State.run_append_of_ok first]
      rfl
    rw [read, Reader.forms, ran]
    cases items with
    | nil => rfl
    | cons j items =>
      obtain ⟨second, _⟩ := List.forall_mem_cons.mp forms
      have trailing : State.run true
          { State.passed {} (front ++ d.wire ++ separator).toList with forms := [d] }
          (spaced (j :: items)).toList =
          .error (.trailingData (front ++ d.wire ++ separator).utf8ByteSize) := by
        have text : spaced (j :: items) = j.1.wire ++ (j.2 ++ spaced items) :=
          String.append_assoc
        rw [← offset_passed, text]
        exact run_of_full second rfl rfl _
      rw [trailing]
      rfl

/-- **Values with separators around them are read back in order**, whatever stands in the comments
and however deep each value is nested. As a single form they are read back if there is one of them,
and malformed otherwise. -/
theorem separated_values_read (opens : IsGap front.toList) (forms : ∀ i ∈ items, i.1.IsForm)
    (apart : ∀ i ∈ items, IsSeparator i.2.toList) :
    readAll (front ++ spaced items) = .ok (items.map Prod.fst) ∧
      (read (front ++ spaced items)).mapError
        (fun fault => (MessageFault.unreadable fault).failure) = asSingle front items := by
  refine ⟨?_, read_spaced opens forms apart⟩
  have gap := State.run_gap false (s := {}) opens rfl
  have ran := run_spaced forms apart (o := State.passed {} front.toList) rfl rfl
  rw [readAll, Reader.forms, String.toList_append, State.run_append_of_ok gap, ran]
  exact congrArg Except.ok (by simp [State.passed])

end Separated

/-- Two values at the deepest nesting, around comments that hold quotes, parentheses and openings of
comments. -/
theorem separated_values_read_of_deepest :
    let deep := Datum.inLists (.str ";#|") 512
    let front := "#|#|#;)\n"
    let first := " ; \"(#|\n"
    let second := "\t#|;\"(#||| |#\n"
    (IsGap front.toList ∧ deep.IsForm ∧ IsSeparator first.toList ∧ IsSeparator second.toList) ∧
      (readAll (front ++ spaced [(deep, first), (deep, second)]) = .ok [deep, deep] ∧
        (read (front ++ spaced [(deep, first), (deep, second)])).mapError
          (fun fault => (MessageFault.unreadable fault).failure) =
            .error (.malformed
              s!"trailing data at byte {(front ++ deep.wire ++ first).utf8ByteSize}")) ∧
      readAll (front ++ spaced [(deep, second)]) = .ok [deep] ∧
        (read (front ++ spaced [(deep, second)])).mapError
          (fun fault => (MessageFault.unreadable fault).failure) = .ok deep := by
  intro deep front first second
  have opens : IsGap front.toList := by
    have line : IsGap (';' :: ([')'] ++ ['\n'])) := .lineComment (by decide) .nil
    have block : IsGap ('#' :: '|' :: (['#'] ++ '|' :: '#' :: ';' :: ([')'] ++ ['\n']))) :=
      .blockComment (by decide) line
    simpa [front] using block
  have form : deep.IsForm := by
    refine ⟨wellFormed_inLists (.str _) 512, ?_⟩
    rw [nesting_inLists]
    decide
  have apart : IsSeparator first.toList := by
    have line : IsGap (';' :: ([' ', '"', '(', '#', '|'] ++ ['\n'])) :=
      .lineComment (by decide) .nil
    exact ⟨' ', _, by simp [first], rfl, line⟩
  have apart' : IsSeparator second.toList := by
    have block : IsGap ('#' :: '|' :: ([';', '"', '(', '#', '|', '|', '|', ' '] ++
        '|' :: '#' :: ['\n'])) :=
      .blockComment (by decide) (.blank rfl .nil)
    exact ⟨'\t', _, by simp [second], rfl, block⟩
  have forms : ∀ i ∈ [(deep, first), (deep, second)], i.1.IsForm := by simp [form]
  have separates : ∀ i ∈ [(deep, first), (deep, second)], IsSeparator i.2.toList := by
    simp [apart, apart']
  have both := separated_values_read opens forms separates
  have one := separated_values_read opens (List.forall_mem_of_forall_mem_cons forms)
    (List.forall_mem_of_forall_mem_cons separates)
  exact ⟨⟨opens, form, apart, apart'⟩, both, one⟩

end LispBridge.Datum
