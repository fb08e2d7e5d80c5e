import LispBridge.Proofs.Datum.Gaps

/-!
What the rest of a text comes to.

* `State.outcome`: the forms of a text of which a part has been read.
* `outcome_token`, `outcome_string`, `outcome_close` and the others: one lemma for each thing that
  may stand in front of the rest, with the state behind it.
-/

namespace LispBridge.Reader

namespace State

/-- The forms of a text of which `cs` is left. -/
def outcome (single : Bool) (s : State) (cs : List Char) : Except ReadFault (List Datum) := do
  (← s.run single cs).finish single

/-- The forms of a text of which `cs` is left, if a construct is entered in front of it. -/
def outcomeInside (single : Bool) (s : State) (op : Open) (cs : List Char) :
    Except ReadFault (List Datum) := do
  (← s.enter op).outcome single cs

variable {single : Bool} {s t : State} {c : Char} {cs : List Char} {fault : ReadFault}

theorem outcome_append_of_ok (ran : s.run single cs = .ok t) (more : List Char) :
    s.outcome single (cs ++ more) = t.outcome single more := by
  rw [outcome, run_append_of_ok ran]
  rfl

theorem outcome_cons_of_ok (stepped : s.step single c = .ok t) (more : List Char) :
    s.outcome single (c :: more) = t.outcome single more := by
  rw [outcome, run_cons_of_ok stepped]
  rfl

theorem outcome_cons_of_error (failed : s.step single c = .error fault) (more : List Char) :
    s.outcome single (c :: more) = .error fault := by
  rw [outcome, run, failed]
  rfl

theorem outcome_nil : s.outcome single [] = s.finish single :=
  rfl

theorem outcome_cons_of_enter {op : Open} (entered : s.step single c = t.enter op)
    (more : List Char) : s.outcome single (c :: more) = t.outcomeInside single op more := by
  rw [outcomeInside]
  cases result : t.enter op with
  | ok u =>
    rw [result] at entered
    exact outcome_cons_of_ok entered more
  | error fault =>
    rw [result] at entered
    exact outcome_cons_of_error entered more

theorem outcomeInside_of_room {op : Open} (few : s.enclosing.length < maxDepth) :
    s.outcomeInside single op cs =
      ({ s with mode := .between, enclosing := op :: s.enclosing } : State).outcome single cs := by
  rw [outcomeInside, enter, if_pos few]
  rfl

theorem outcomeInside_of_deep {op : Open} (many : ¬ s.enclosing.length < maxDepth) :
    s.outcomeInside single op cs = .error (.tooDeep s.offset) := by
  rw [outcomeInside, enter, if_neg many]
  rfl

/-! ### Gaps -/

theorem outcome_of_gap (gap : IsGap cs) (between : s.mode = .between) (more : List Char) :
    s.outcome single (cs ++ more) = (s.passed cs).outcome single more :=
  outcome_append_of_ok (run_gap single gap between) more

/-- A line comment may end with the text. -/
theorem outcome_lineComment (line : '\n' ∉ cs) (between : s.mode = .between) :
    s.outcome single (';' :: cs) = (s.passed (';' :: cs)).outcome single [] := by
  have opened : s.step single ';' = .ok (s.read ';' .lineComment) := by
    simp only [step, between]
    rfl
  rw [outcome, run_cons_of_ok opened, run_lineComment single rfl line, outcome, run]
  simp only [finish, flush, passed, read, between, bind, Except.bind]

/-- So may a block comment. -/
theorem outcome_blockComment (unmarked : ¬ ['|', '#'] <:+: cs) (between : s.mode = .between) :
    s.outcome single ('#' :: '|' :: cs) = (s.passed ('#' :: '|' :: cs)).outcome single [] := by
  have opened : s.step single '#' = .ok (s.read '#' .hash) := by
    simp only [step, between]
    rfl
  obtain ⟨bar, ran⟩ := run_blockComment single
    (s := (s.read '#' .hash).read '|' (.blockComment false)) rfl (by simp) unmarked
  rw [outcome, run_cons_of_ok opened, run_cons_of_ok rfl, ran, outcome, run]
  simp only [finish, flush, passed, read, between, bind, Except.bind]

/-! ### Values -/

/-- A value that is complete at the next character, or at the end of the text, is accepted. -/
theorem outcome_of_settle (settled : s.settle? single = some t)
    (ends : ∀ c ∈ cs.head?, s.step single c = t.step single c) :
    s.outcome single cs = t.outcome single cs := by
  cases cs with
  | nil =>
    have between : t.settle? single = some t := settle?_of_between (mode_of_settle? settled)
    rw [outcome_nil, outcome_nil, finish, finish, flush_of_settle settled,
      flush_of_settle between]
  | cons c cs => rw [outcome, outcome, run, run, ends c rfl]

variable {o : State}

theorem outcome_token (token : IsToken cs) (between : o.mode = .between)
    (room : o.isFull single = false) {more : List Char}
    (ends : ∀ c ∈ more.head?, Datum.isDelimiter c = true) :
    o.outcome single (cs ++ more) =
      ((o.passed cs).accept (.ofToken cs)).outcome single more := by
  rw [outcome_append_of_ok (run_token token between room)]
  refine outcome_of_settle ?_ ?_
  · simp only [settle?, List.reverse_reverse]
    rfl
  · intro c first
    simp only [step, ends c first, if_true, List.reverse_reverse]
    rfl

theorem outcome_name (name : IsName cs) (between : o.mode = .between)
    (room : o.isFull single = false) {more : List Char}
    (ends : ∀ c ∈ more.head?, Datum.isDelimiter c = true) :
    o.outcome single (cs ++ more) =
      ((o.passed cs).accept (.symbol (String.ofList cs))).outcome single more := by
  rw [outcome_append_of_ok (run_name name between room)]
  refine outcome_of_settle ?_ ?_
  · simp only [settle?, List.reverse_reverse]
    rfl
  · intro c first
    simp only [step, ends c first, if_true, List.reverse_reverse]
    rfl

/-- The text may end behind `#\`. -/
theorem outcome_character (between : o.mode = .between) (room : o.isFull single = false) :
    o.outcome single ['#', '\\'] =
      ((o.passed ['#', '\\']).accept (.symbol "#\\")).outcome single [] := by
  have roomy : (o.read '#' .hash).isFull single = false := room
  have second : (o.read '#' .hash).step single '\\' =
      .ok ((o.read '#' .hash).read '\\' .character) := by
    simp only [step, roomy, Bool.false_eq_true, if_false]
    rfl
  rw [outcome_cons_of_ok (by simp only [step, between]; rfl), outcome_cons_of_ok second]
  rfl

theorem outcome_hashToken (token : IsHashToken cs) (between : o.mode = .between)
    (room : o.isFull single = false) {more : List Char}
    (ends : ∀ c ∈ more.head?, Datum.isDelimiter c = true ∧ c ≠ '(' ∧ (cs = ['#'] → c ≠ '\'')) :
    o.outcome single (cs ++ more) =
      ((o.passed cs).accept (.symbol (String.ofList cs))).outcome single more := by
  obtain ⟨mode, ran, shape⟩ := run_hashToken token between room
  rw [outcome_append_of_ok ran]
  rcases shape with ⟨rfl, rfl⟩ | rfl
  · have roomy : ({ o.passed ['#'] with mode := .hash } : State).isFull single = false := room
    refine outcome_of_settle ?_ ?_
    · simp only [settle?, roomy, Bool.false_eq_true, if_false]
      rfl
    · intro c first
      obtain ⟨delimits, paren, quote⟩ := ends c first
      have bar : c ≠ '|' := by
        rintro rfl
        cases delimits
      have backslash : c ≠ '\\' := by
        rintro rfl
        cases delimits
      simp only [step, bar, roomy, quote rfl, backslash, hashToken, paren, delimits, if_true,
        if_false, Bool.false_eq_true]
      rfl
  · refine outcome_of_settle ?_ ?_
    · simp only [settle?, List.reverse_reverse]
      rfl
    · intro c first
      obtain ⟨delimits, paren, _⟩ := ends c first
      simp only [step, hashToken, paren, delimits, if_true, if_false, List.reverse_reverse]
      rfl

/-- A literal goes on up to its closing quote. -/
theorem outcome_string {content : List Char} (inside : s.mode = .string content false)
    (more : List Char) :
    s.outcome single ('"' :: more) =
      ((s.passed ['"']).accept (.str (String.ofList content.reverse))).outcome single more := by
  refine outcome_cons_of_ok ?_ more
  simp only [step, inside, if_true]
  rfl

theorem outcome_escape {content : List Char} (inside : s.mode = .string content false)
    (more : List Char) :
    s.outcome single ('\\' :: c :: more) =
      ({ s.passed ['\\', c] with mode := .string (unescape c :: content) false } : State).outcome
        single more := by
  have escaped : s.step single '\\' = .ok (s.read '\\' (.string content true)) := by
    simp only [step, inside]
    rfl
  rw [outcome_cons_of_ok escaped, outcome_cons_of_ok rfl]
  rfl

theorem outcome_content {content : List Char} (inside : s.mode = .string content false)
    (quote : c ≠ '"') (backslash : c ≠ '\\') (more : List Char) :
    s.outcome single (c :: more) =
      ({ s.passed [c] with mode := .string (c :: content) false } : State).outcome single more := by
  refine outcome_cons_of_ok ?_ more
  simp only [step, inside, quote, backslash, if_false]
  rfl

/-! ### Constructs -/

theorem outcome_open (between : o.mode = .between) (room : o.isFull single = false)
    (more : List Char) :
    o.outcome single ('(' :: more) = (o.passed ['(']).outcomeInside single (.list []) more :=
  outcome_cons_of_enter (step_open_eq single between room) more

theorem outcome_openString (between : o.mode = .between) (room : o.isFull single = false)
    (more : List Char) :
    o.outcome single ('"' :: more) =
      ({ o.passed ['"'] with mode := .string [] false } : State).outcome single more := by
  refine outcome_cons_of_ok ?_ more
  simp only [step, between, begin, show Text.isBlank '"' = false from rfl, room,
    Bool.false_eq_true, if_false, show '"' ≠ ';' from by decide, show '"' ≠ '#' from by decide]
  rfl

/-- The prefixes of one form, with the heads of the forms they stand for. -/
def prefixes : List (List Char × String) :=
  [(['\''], "quote"), (['`'], "quasiquote"), ([',', '@'], "unquote-splicing"),
    (['#', '\''], "function")]

theorem outcome_prefix {head : String} (known : (cs, head) ∈ prefixes)
    (between : o.mode = .between) (room : o.isFull single = false) (more : List Char) :
    o.outcome single (cs ++ more) = (o.passed cs).outcomeInside single (.prefixed head) more := by
  simp only [prefixes, List.mem_cons, Prod.mk.injEq, List.not_mem_nil, or_false] at known
  rcases known with ⟨rfl, rfl⟩ | ⟨rfl, rfl⟩ | ⟨rfl, rfl⟩ | ⟨rfl, rfl⟩
  · refine outcome_cons_of_enter ?_ more
    simp only [step, between, begin, room]
    rfl
  · refine outcome_cons_of_enter ?_ more
    simp only [step, between, begin, room]
    rfl
  · have comma : o.step single ',' = .ok (o.read ',' .comma) := by
      simp only [step, between, begin, room]
      rfl
    rw [List.cons_append, outcome_cons_of_ok comma]
    refine outcome_cons_of_enter ?_ more
    rfl
  · have hash : o.step single '#' = .ok (o.read '#' .hash) := by
      simp only [step, between]
      rfl
    have roomy : (o.read '#' .hash).isFull single = false := room
    rw [List.cons_append, outcome_cons_of_ok hash]
    refine outcome_cons_of_enter ?_ more
    simp only [step, roomy, Bool.false_eq_true, if_false, if_true]
    rfl

/-- A parenthesis behind a token that starts with `#` opens a vector, which begins with the
token. -/
theorem outcome_vector (token : IsHashToken cs) (between : o.mode = .between)
    (room : o.isFull single = false) (more : List Char) :
    o.outcome single (cs ++ '(' :: more) =
      (o.passed (cs ++ ['('])).outcomeInside single (.vector o.count) more := by
  obtain ⟨mode, ran, shape⟩ := run_hashToken token between room
  have read : ∀ s : State, (s.read '(' .between).enter (.vector o.count) =
      (s.passed ['(']).enter (.vector o.count) := fun _ => rfl
  have same : ({ o.passed cs with mode } : State).passed ['('] =
      { o.passed (cs ++ ['(']) with mode } := by
    simp [passed, Nat.add_assoc]
  have entered : ({ o.passed cs with mode } : State).step single '(' =
      (o.passed (cs ++ ['('])).enter (.vector o.count) := by
    have goal : ({ o.passed cs with mode } : State).step single '(' =
        (({ o.passed cs with mode } : State).read '(' .between).enter (.vector o.count) := by
      rcases shape with ⟨rfl, rfl⟩ | rfl
      · have roomy : ({ o.passed ['#'] with mode := .hash } : State).isFull single = false := room
        simp only [step, roomy, Bool.false_eq_true, if_false, hashToken]
        rfl
      · have start : (o.passed cs).count - cs.reverse.length = o.count := by
          simp [passed]
        simp only [step, hashToken, if_true, start]
    rw [goal, read, same]
    rfl
  rw [outcome_append_of_ok ran]
  exact outcome_cons_of_enter entered more

/-- The construct that a comma opens is entered at the next character, or at the end of the text. -/
theorem outcome_of_comma (inside : s.mode = .comma) (other : ∀ c ∈ cs.head?, c ≠ '@') :
    s.outcome single cs = s.outcomeInside single (.prefixed "unquote") cs := by
  rw [outcomeInside]
  cases entered : s.enter (.prefixed "unquote") with
  | error fault =>
    cases cs with
    | nil => simp only [outcome_nil, finish, flush, inside, entered, bind, Except.bind]
    | cons c cs =>
      refine outcome_cons_of_error ?_ cs
      simp only [step, inside, other c rfl, entered, if_false, bind, Except.bind]
  | ok t =>
    have between : t.mode = .between := by
      obtain ⟨_, rfl⟩ := enter_eq_ok entered
      rfl
    cases cs with
    | nil =>
      simp only [outcome_nil, finish, flush, inside, between, entered, bind, Except.bind]
    | cons c cs =>
      have same : s.step single c = t.step single c := by
        simp only [step, inside, between, other c rfl, entered, if_false, bind, Except.bind]
      simp only [outcome, run, same, bind, Except.bind]

/-- A comma is a prefix by itself if no `@` follows. -/
theorem outcome_comma (between : o.mode = .between) (room : o.isFull single = false)
    {more : List Char} (other : ∀ c ∈ more.head?, c ≠ '@') :
    o.outcome single (',' :: more) =
      (o.passed [',']).outcomeInside single (.prefixed "unquote") more := by
  have comma : o.step single ',' = .ok (o.read ',' .comma) := by
    simp only [step, between, begin, room]
    rfl
  rw [outcome_cons_of_ok comma, outcome_of_comma rfl other]
  rfl

end State

/-! ### Closing -/

/-- Whether a construct has elements, and these are its elements so far, last first. A vector
forgets its elements. -/
def Open.Collects : Open → List Datum → Prop
  | .list items, ds => items = ds
  | .vector _, _ => True
  | .prefixed _, _ => False

/-- What a construct is worth once it is closed in a state: a list of its elements, or the text of a
vector. -/
def Open.worth (s : State) (list : Datum) : Open → Datum
  | .vector start => s.textFrom start
  | .list _ | .prefixed _ => list

namespace State

variable {single : Bool} {o : State} {op : Open} {outer : List Open}

/-- The state behind a construct of which `cs` is the rest, and `list` the list of its elements. -/
def closed (o : State) (op : Open) (outer : List Open) (cs : List Char) (list : Datum) : State :=
  ({ o.passed cs with enclosing := outer } : State).accept (op.worth (o.passed cs) list)

theorem outcome_close {items : List Datum} (collects : op.Collects items)
    (between : o.mode = .between) (inside : o.enclosing = op :: outer) (more : List Char) :
    o.outcome single (')' :: more) =
      (o.closed op outer [')'] (.ofItems items.reverse)).outcome single more := by
  refine outcome_cons_of_ok ?_ more
  have room : o.isFull single = false := isFull_of_enclosing single (by simp [inside])
  cases op with
  | list own =>
    obtain rfl : own = items := collects
    exact step_close single between inside
  | vector start =>
    simp only [step, between, begin, show Text.isBlank ')' = false from rfl, room,
      Bool.false_eq_true, if_false, show ')' ≠ ';' from by decide, show ')' ≠ '#' from by decide,
      close, inside, passed_of_between between]
    rfl
  | prefixed head => exact collects.elim

/-- A list or vector may not be open at the end of the text. -/
theorem outcome_unterminatedList {items : List Datum} (collects : op.Collects items)
    (between : o.mode = .between) (inside : o.enclosing = op :: outer) :
    o.outcome single [] = .error .unterminatedList := by
  simp only [outcome_nil, finish, flush, between, inside, bind, Except.bind]
  cases op with
  | list own => rfl
  | vector start => rfl
  | prefixed head => exact collects.elim

/-- Outside of lists and vectors there is nothing to close. -/
theorem outcome_unexpectedClose (between : o.mode = .between) (room : o.isFull single = false)
    (outside : ∀ op ∈ o.enclosing.head?, ¬ op.IsBracket) (more : List Char) :
    o.outcome single (')' :: more) = .error (.unexpectedClose o.offset) := by
  refine outcome_cons_of_error ?_ more
  simp only [step, between, begin, show Text.isBlank ')' = false from rfl, room,
    Bool.false_eq_true, if_false, show ')' ≠ ';' from by decide, show ')' ≠ '#' from by decide,
    close]
  split
  · next items _ inside => exact (outside (.list items) (by rw [inside]; rfl) trivial).elim
  · next start _ inside => exact (outside (.vector start) (by rw [inside]; rfl) trivial).elim
  · rfl

theorem closed_passed (o : State) (as bs : List Char) (list : Datum) :
    (o.passed as).closed op outer bs list = o.closed op outer (as ++ bs) list := by
  rw [closed, closed, passed_passed]

/-- Inside a list or vector, an element is added to what is there, and closing comes to the same. -/
theorem accept_element {items : List Datum} (collects : op.Collects items)
    (inside : o.enclosing = op :: outer) (d : Datum) :
    ∃ op', (o.accept d).enclosing = op' :: outer ∧ op'.Collects (d :: items) ∧
      ∀ cs list, (o.accept d).closed op' outer cs list = o.closed op outer cs list := by
  rw [accept_eq, inside]
  cases op with
  | list own =>
    obtain rfl : own = items := collects
    exact ⟨.list (d :: own), rfl, rfl, fun _ _ => rfl⟩
  | vector start => exact ⟨.vector start, rfl, trivial, fun _ _ => rfl⟩
  | prefixed head => exact collects.elim

end State

end LispBridge.Reader
