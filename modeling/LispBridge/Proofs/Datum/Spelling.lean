import LispBridge.Proofs.Datum.Printing
import LispBridge.Proofs.Datum.Steps
import LispBridge.Proofs.Number.Numeral

/-!
Texts that spell a value wherever the reader is ready for one.

* `Spells`: such a text, with how many constructs may be open around it.
* `spells_token`, `spells_hashToken`, `spells_name`, `spells_str`: the texts of atoms.
* `reread`: what a value is read back as. Only numbers that are not finite and lists without
  elements differ from it.
* `spells_list`: the text of a list, given those of its elements.
-/

namespace LispBridge.Reader

/-- A text that spells a value: from any state that is ready for a form, with at most `k`
constructs open, the reader passes the text and accepts the value. -/
def Spells (k : Nat) (cs : List Char) (d : Datum) : Prop :=
  ∀ (single : Bool) (o : State), o.mode = .between → o.enclosing.length ≤ k →
    o.isFull single = false → o.Yields single cs ((o.passed cs).accept d)

theorem Spells.mono {k l : Nat} {cs : List Char} {d : Datum} (spells : Spells k cs d)
    (le : l ≤ k) : Spells l cs d := by
  intro single o between few
  exact spells single o between (Nat.le_trans few le)

/-! ### Single characters -/

namespace State

variable (single : Bool) {s : State} {c : Char}

theorem passed_of_between (between : s.mode = .between) (c : Char) :
    s.read c .between = s.passed [c] := by
  rw [read_eq_passed, ← between]
  rfl

theorem step_blank (between : s.mode = .between) (blank : Text.isBlank c = true) :
    s.step single c = .ok (s.passed [c]) := by
  rw [← passed_of_between between]
  simp only [step, between, begin, blank, if_true]

theorem isFull_of_enclosing (inside : s.enclosing ≠ []) : s.isFull single = false := by
  have some : s.enclosing.isEmpty = false := by simpa using inside
  rw [isFull, some, Bool.and_false, Bool.false_and]

theorem step_open_eq (between : s.mode = .between) (room : s.isFull single = false) :
    s.step single '(' = (s.passed ['(']).enter (.list []) := by
  simp only [step, between, begin, show Text.isBlank '(' = false from rfl, room,
    passed_of_between between, Bool.false_eq_true, if_false,
    show '(' ≠ ';' from by decide, show '(' ≠ '#' from by decide]

theorem step_open (between : s.mode = .between) (room : s.isFull single = false)
    (few : s.enclosing.length < maxDepth) :
    s.step single '(' = .ok { s.passed ['('] with enclosing := .list [] :: s.enclosing } := by
  have entered : (s.passed ['(']).enter (.list []) =
      .ok { s.passed ['('] with mode := .between, enclosing := .list [] :: s.enclosing } :=
    if_pos few
  rw [step_open_eq single between room, entered, ← between]
  rfl

theorem step_open_of_deep (between : s.mode = .between) (room : s.isFull single = false)
    (many : maxDepth ≤ s.enclosing.length) :
    s.step single '(' = .error (.tooDeep (s.passed ['(']).offset) := by
  rw [step_open_eq single between room]
  exact if_neg (Nat.not_lt_of_le many)

theorem step_close {items : List Datum} {outer : List Open} (between : s.mode = .between)
    (inside : s.enclosing = .list items :: outer) :
    s.step single ')' =
      .ok (({ s.passed [')'] with enclosing := outer } : State).accept
        (.ofItems items.reverse)) := by
  have room : s.isFull single = false := isFull_of_enclosing single (by simp [inside])
  simp only [step, between, begin, show Text.isBlank ')' = false from rfl, room,
    Bool.false_eq_true, if_false, show ')' ≠ ';' from by decide, show ')' ≠ '#' from by decide,
    close, inside, passed_of_between between]

theorem accept_list {items : List Datum} {outer : List Open}
    (inside : s.enclosing = .list items :: outer) (d : Datum) :
    s.accept d = { s with mode := .between, enclosing := .list (d :: items) :: outer } := by
  rw [accept_eq, inside]
  rfl

/-! ### Tokens -/

variable {single}

/-- Characters that only make a token longer. -/
theorem run_grow {mode : List Char → Mode}
    (grows : ∀ (s : State) (content : List Char) (c : Char), s.mode = mode content →
      Datum.isDelimiter c = false → s.step single c = .ok (s.read c (mode (c :: content))))
    {cs : List Char} (plain : ∀ c ∈ cs, Datum.isDelimiter c = false) {s : State}
    {content : List Char} (inside : s.mode = mode content) :
    s.run single cs = .ok { s.passed cs with mode := mode (cs.reverse ++ content) } := by
  induction cs generalizing s content with
  | nil =>
    rw [run, List.reverse_nil, List.nil_append, ← inside]
    rfl
  | cons c cs ih =>
    obtain ⟨first, others⟩ := List.forall_mem_cons.mp plain
    rw [run_cons_of_ok (grows s content c inside first), ih others rfl, read_eq_passed]
    simp [passed, Nat.add_assoc, Nat.add_comm 1]

theorem token_grows (s : State) (content : List Char) (c : Char) (inside : s.mode = .token content)
    (plain : Datum.isDelimiter c = false) :
    s.step single c = .ok (s.read c (.token (c :: content))) := by
  simp only [step, inside, plain, Bool.false_eq_true, if_false]

theorem ne_open_of_plain (plain : Datum.isDelimiter c = false) : c ≠ '(' := by
  rintro rfl
  cases plain

theorem hashToken_grows (s : State) (content : List Char) (c : Char)
    (inside : s.mode = .hashToken content) (plain : Datum.isDelimiter c = false) :
    s.step single c = .ok (s.read c (.hashToken (c :: content))) := by
  simp only [step, inside, hashToken, ne_open_of_plain plain, plain, Bool.false_eq_true, if_false]

theorem name_grows (s : State) (content : List Char) (c : Char) (inside : s.mode = .name content)
    (plain : Datum.isDelimiter c = false) :
    s.step single c = .ok (s.read c (.name (c :: content))) := by
  simp only [step, inside, plain, Bool.false_eq_true, if_false]

end State

theorem State.begin_token {single : Bool} {s : State} {c : Char} (room : s.isFull single = false)
    (plain : Datum.isDelimiter c = false) (begins : c ≠ '#' ∧ c ≠ '`' ∧ c ≠ ',') :
    s.begin single c = .ok (s.read c (.token [c])) := by
  have blank := not_isBlank_of_plain plain
  have comment : c ≠ ';' := by
    rintro rfl
    cases plain
  simp only [begin, blank, comment, begins.1, room, Bool.false_eq_true, if_false]
  split
  · cases plain
  · cases plain
  · cases plain
  · cases plain
  · exact absurd rfl begins.2.1
  · exact absurd rfl begins.2.2
  · rfl

theorem run_token {cs : List Char} (token : IsToken cs) {single : Bool} {o : State}
    (between : o.mode = .between) (room : o.isFull single = false) :
    o.run single cs = .ok { o.passed cs with mode := .token cs.reverse } := by
  obtain ⟨c, r, rfl⟩ := List.exists_cons_of_ne_nil token.nonempty
  obtain ⟨first, others⟩ := List.forall_mem_cons.mp token.plain
  have started : o.step single c = .ok (o.read c (.token [c])) := by
    simp only [State.step, between]
    exact State.begin_token room first (token.begins c rfl)
  rw [State.run_cons_of_ok started, State.run_grow State.token_grows others rfl]
  simp [State.read_eq_passed, State.passed, Nat.add_assoc, Nat.add_comm 1]

theorem spells_token {cs : List Char} (token : IsToken cs) (k : Nat) :
    Spells k cs (.ofToken cs) := by
  intro single o between _ room
  refine ⟨_, run_token token between room, ?_⟩
  simp only [State.settle?, List.reverse_reverse]
  rfl

/-- A token that starts with `#` is read whole, whether or not it is the prefix of a vector. -/
theorem run_hashToken {cs : List Char} (token : IsHashToken cs) {single : Bool} {o : State}
    (between : o.mode = .between) (room : o.isFull single = false) :
    ∃ mode, o.run single cs = .ok { o.passed cs with mode } ∧
      (mode = .hash ∧ cs = ['#'] ∨ mode = .hashToken cs.reverse) := by
  obtain ⟨r, rfl, begins⟩ := token.begins
  have started : o.step single '#' = .ok (o.read '#' .hash) := by
    simp only [State.step, between]
    rfl
  have roomy : (o.read '#' .hash).isFull single = false := room
  cases r with
  | nil => exact ⟨.hash, State.run_cons_of_ok started [], .inl ⟨rfl, rfl⟩⟩
  | cons c r =>
    obtain ⟨_, first, others⟩ : _ ∧ Datum.isDelimiter c = false ∧ _ := by
      simpa only [List.forall_mem_cons] using token.plain
    obtain ⟨bar, backslash⟩ := begins c rfl
    have quote : c ≠ '\'' := by
      rintro rfl
      cases first
    have second : (o.read '#' .hash).step single c =
        .ok ((o.read '#' .hash).read c (.hashToken [c, '#'])) := by
      have open' := State.ne_open_of_plain first
      simp only [State.step, State.hashToken, bar, roomy, quote, backslash, open', first,
        Bool.false_eq_true, if_false]
      rfl
    refine ⟨.hashToken ('#' :: c :: r).reverse, ?_, .inr rfl⟩
    rw [State.run_cons_of_ok started, State.run_cons_of_ok second,
      State.run_grow State.hashToken_grows others rfl]
    simp [State.read_eq_passed, State.passed, Nat.add_assoc, Nat.add_comm 2]

theorem spells_hashToken {cs : List Char} (token : IsHashToken cs) (k : Nat) :
    Spells k cs (.symbol (String.ofList cs)) := by
  intro single o between _ room
  obtain ⟨mode, ran, shape⟩ := run_hashToken token between room
  refine ⟨_, ran, ?_⟩
  rcases shape with ⟨rfl, rfl⟩ | rfl
  · have roomy : ({ o.passed ['#'] with mode := .hash } : State).isFull single = false := room
    simp only [State.settle?, roomy, Bool.false_eq_true, if_false]
    rfl
  · simp only [State.settle?, List.reverse_reverse]
    rfl

/-- A character after `#\`, whatever it is, and the rest of its name. -/
theorem run_name {cs : List Char} (name : IsName cs) {single : Bool} {o : State}
    (between : o.mode = .between) (room : o.isFull single = false) :
    o.run single cs = .ok { o.passed cs with mode := .name cs.reverse } := by
  obtain ⟨c, r, rfl, plain⟩ := name.begins
  have roomy : (o.read '#' .hash).isFull single = false := room
  have second : (o.read '#' .hash).step single '\\' =
      .ok ((o.read '#' .hash).read '\\' .character) := by
    simp only [State.step, roomy, Bool.false_eq_true, if_false]
    rfl
  rw [State.run_cons_of_ok (by simp only [State.step, between]; rfl), State.run_cons_of_ok second,
    State.run_cons_of_ok rfl, State.run_grow State.name_grows plain rfl]
  simp [State.read_eq_passed, State.passed, Nat.add_assoc, Nat.add_comm 3]

theorem spells_name {cs : List Char} (name : IsName cs) (k : Nat) :
    Spells k cs (.symbol (String.ofList cs)) := by
  intro single o between _ room
  refine ⟨_, run_name name between room, ?_⟩
  simp only [State.settle?, List.reverse_reverse]
  rfl

/-! ### String literals -/

namespace State

variable {single : Bool} {s : State} {content : List Char}

/-- Inside a literal, what stands for a character is read as that character. -/
theorem run_escapeChar (inside : s.mode = .string content false) (c : Char) :
    s.run single (Datum.escapeChar c) =
      .ok { s.passed (Datum.escapeChar c) with mode := .string (c :: content) false } := by
  rw [Datum.escapeChar]
  split
  · next special =>
    have escaped : s.step single '\\' = .ok (s.read '\\' (.string content true)) := by
      simp only [step, inside]
      rfl
    have same : unescape c = c := by
      rcases special with rfl | rfl
      · rfl
      · rfl
    rw [run_cons_of_ok escaped, run_cons_of_ok rfl, same]
    rfl
  · next ordinary =>
    obtain ⟨quote, backslash⟩ := not_or.mp ordinary
    have stepped : s.step single c = .ok (s.read c (.string (c :: content) false)) := by
      simp only [step, inside, quote, backslash, if_false]
    rw [run_cons_of_ok stepped]
    rfl

theorem run_escaped (inside : s.mode = .string content false) (cs : List Char) :
    s.run single (cs.flatMap Datum.escapeChar) =
      .ok { s.passed (cs.flatMap Datum.escapeChar) with
        mode := .string (cs.reverse ++ content) false } := by
  induction cs generalizing s content with
  | nil =>
    rw [List.flatMap_nil, run, List.reverse_nil, List.nil_append, ← inside]
    rfl
  | cons c cs ih =>
    rw [List.flatMap_cons, run_append_of_ok (run_escapeChar inside c), ih rfl]
    simp [passed, Nat.add_assoc]

end State

theorem spells_str (content : String) (k : Nat) :
    Spells k ((Datum.str content).chars .wire) (.str content) := by
  intro single o between _ room
  have opened : o.step single '"' = .ok (o.read '"' (.string [] false)) := by
    simp only [State.step, between, State.begin, show Text.isBlank '"' = false from rfl, room,
      Bool.false_eq_true, if_false, show '"' ≠ ';' from by decide, show '"' ≠ '#' from by decide]
  rw [Datum.chars_str]
  refine State.yields_of_run ?_ rfl
  rw [State.run_cons_of_ok opened, State.run_append_of_ok (State.run_escaped rfl content.toList),
    State.run_cons_of_ok rfl]
  simp [State.run, State.read_eq_passed, State.accept_eq, State.passed, Nat.add_assoc,
    Nat.add_comm 1]

end LispBridge.Reader

namespace LispBridge.Datum

open Reader

/-! ### Numerals -/

theorem mem_digits_of_isDigit {c : Char} (digit : isDigit c = true) :
    c ∈ ['0', '1', '2', '3', '4', '5', '6', '7', '8', '9'] := by
  rw [isDigit, Bool.and_eq_true, decide_eq_true_eq, decide_eq_true_eq] at digit
  have low : 48 ≤ c.toNat := digit.1
  have high : c.toNat ≤ 57 := digit.2
  rw [← Char.ofNat_toNat c]
  generalize c.toNat = n at low high
  interval_cases n <;> decide

/-- No character of a numeral ends a token, begins anything else, or begins `nil` or `t`. -/
theorem plain_of_isNumeralChar {c : Char} (numeral : isNumeralChar c = true) :
    isDelimiter c = false ∧ (c ≠ '#' ∧ c ≠ '`' ∧ c ≠ ',') ∧ c.toLower ≠ 'n' ∧ c.toLower ≠ 't' := by
  have listed :
      c ∈ ['0', '1', '2', '3', '4', '5', '6', '7', '8', '9', '+', '-', '.', 'e', 'E'] := by
    simp only [isNumeralChar, Bool.or_eq_true, decide_eq_true_eq] at numeral
    rcases numeral with ((((digit | rfl) | rfl) | rfl) | rfl) | rfl
    · exact List.mem_append_left ['+', '-', '.', 'e', 'E'] (mem_digits_of_isDigit digit)
    all_goals decide
  have each : ['0', '1', '2', '3', '4', '5', '6', '7', '8', '9', '+', '-', '.', 'e', 'E'].all
      (fun c => decide (isDelimiter c = false ∧ (c ≠ '#' ∧ c ≠ '`' ∧ c ≠ ',') ∧
        c.toLower ≠ 'n' ∧ c.toLower ≠ 't')) = true := by
    decide
  exact of_decide_eq_true (List.all_eq_true.mp each c listed)

theorem isToken_of_numeral {cs : List Char} (nonempty : cs ≠ [])
    (numeral : ∀ c ∈ cs, isNumeralChar c = true) : IsToken cs where
  nonempty := nonempty
  plain c mem := (plain_of_isNumeralChar (numeral c mem)).1
  begins c mem := (plain_of_isNumeralChar (numeral c (List.mem_of_mem_head? mem))).2.1

/-- A numeral is neither `nil` nor `t`. -/
theorem ne_constant_of_numeral {cs : List Char} (numeral : ∀ c ∈ cs, isNumeralChar c = true) :
    cs.map Char.toLower ≠ ['n', 'i', 'l'] ∧ cs.map Char.toLower ≠ ['t'] := by
  have other {c : Char} {r : List Char} (begins : cs.map Char.toLower = c :: r) :
      c ≠ 'n' ∧ c ≠ 't' := by
    cases cs with
    | nil => cases begins
    | cons d cs =>
      rw [← (List.cons.inj begins).1]
      exact (plain_of_isNumeralChar (numeral d List.mem_cons_self)).2.2
  constructor
  · intro same
    exact (other same).1 rfl
  · intro same
    exact (other same).2 rfl

theorem ofToken_int {cs : List Char} (numeral : ∀ c ∈ cs, isNumeralChar c = true) {n : Int64}
    (reads : readInt64? cs = some n) : ofToken cs = .int n := by
  obtain ⟨notNil, notT⟩ := ne_constant_of_numeral numeral
  simp only [ofToken, notNil, notT, reads, if_false]

theorem ofToken_float {cs : List Char} (numeral : isNumeral cs = true) {x : Binary64}
    (other : readInt64? cs = none) (reads : readBinary64? cs = some x) :
    ofToken cs = .float x := by
  have chars := List.all_eq_true.mp (Bool.and_eq_true_iff.mp numeral).2
  obtain ⟨notNil, notT⟩ := ne_constant_of_numeral chars
  simp only [ofToken, notNil, notT, other, numeral, reads, if_true, if_false]

theorem renderInt_ne_nil (n : Int) : renderInt n ≠ [] := by
  rw [renderInt]
  split
  · exact List.cons_ne_nil _ _
  · exact digits_ne_nil _

theorem spells_int (n : Int64) (k : Nat) : Spells k ((Datum.int n).chars .wire) (.int n) := by
  have numeral : ∀ c ∈ renderInt n.toInt, isNumeralChar c = true :=
    fun _ mem => isNumeralChar_of_mem_renderInt mem
  have value := ofToken_int numeral (readInt64?_renderInt n)
  rw [chars_int]
  simpa only [value] using spells_token (isToken_of_numeral (renderInt_ne_nil _) numeral) k

theorem isToken_render {x : Binary64} (finite : x.IsFinite) : IsToken x.render := by
  obtain ⟨digit, chars⟩ := Bool.and_eq_true_iff.mp (Binary64.isNumeral_render finite)
  refine isToken_of_numeral ?_ (List.all_eq_true.mp chars)
  intro empty
  rw [empty] at digit
  cases digit

theorem spells_float {x : Binary64} (finite : x.IsFinite) (k : Nat) :
    Spells k x.render (.float x) := by
  have value := ofToken_float (Binary64.isNumeral_render finite)
    (Binary64.readInt64?_render finite) (Binary64.readBinary64?_render finite)
  simpa only [value] using spells_token (isToken_render finite) k

/-- A number that is not finite is written as a symbol. -/
theorem spells_notFinite {x : Binary64} (infinite : ¬ x.IsFinite) (k : Nat) :
    Spells k x.render (.symbol (String.ofList x.render)) := by
  have texts : x.render = "NaN".toList ∨ x.render = "inf".toList ∨ x.render = "-inf".toList := by
    rw [Binary64.render, Binary64.view, if_pos (Decidable.not_not.mp infinite)]
    by_cases zero : x.fractionField = 0
    · rw [if_pos zero]
      cases x.isNegative with
      | false => exact .inr (.inl rfl)
      | true => exact .inr (.inr rfl)
    · rw [if_neg zero]
      exact .inl rfl
  have symbol {cs : List Char} (token : IsToken cs)
      (value : ofToken cs = .symbol (String.ofList cs)) :
      Spells k cs (.symbol (String.ofList cs)) := by
    rw [← value]
    exact spells_token token k
  rcases texts with text | text | text
  · rw [text]
    exact symbol (by decide) rfl
  · rw [text]
    exact symbol (by decide) rfl
  · rw [text]
    exact symbol (by decide) rfl

/-! ### What a printed value is read back as -/

mutual

/-- What a value is read back as, if its symbols are. A number that is not finite comes back as a
symbol, and a list without elements as `nil`. -/
def reread : Datum → Datum
  | .float x => if x.IsFinite then .float x else .symbol (String.ofList x.render)
  | .list ds => ofItems (rereadItems ds)
  | .nil => .nil
  | .t => .t
  | .int n => .int n
  | .str s => .str s
  | .symbol name => .symbol name

/-- What values are read back as. -/
def rereadItems : List Datum → List Datum
  | [] => []
  | d :: ds => reread d :: rereadItems ds

end

theorem rereadItems_eq (ds : List Datum) : rereadItems ds = ds.map reread := by
  induction ds with
  | nil => rfl
  | cons d ds ih => rw [rereadItems, ih, List.map_cons]

theorem reread_list (ds : List Datum) : reread (.list ds) = ofItems (ds.map reread) := by
  rw [reread, rereadItems_eq]

/-- Whether the text of a value is read back as far as possible inside `k` open constructs. -/
def ReadsBack (k : Nat) (d : Datum) : Prop :=
  Spells k (d.chars .wire) d.reread

theorem readsBack_nil (k : Nat) : ReadsBack k .nil := by
  rw [ReadsBack, chars_nil]
  exact spells_token (by decide) k

theorem readsBack_t (k : Nat) : ReadsBack k .t := by
  rw [ReadsBack, chars_t]
  exact spells_token (by decide) k

theorem readsBack_int (n : Int64) (k : Nat) : ReadsBack k (.int n) :=
  spells_int n k

theorem readsBack_float (x : Binary64) (k : Nat) : ReadsBack k (.float x) := by
  rw [ReadsBack, chars_float, reread]
  split
  · next finite => exact spells_float finite k
  · next infinite => exact spells_notFinite infinite k

theorem readsBack_str (content : String) (k : Nat) : ReadsBack k (.str content) :=
  spells_str content k

theorem readsBack_symbol {cs : List Char} {k : Nat}
    (spells : Spells k cs (.symbol (String.ofList cs))) :
    ReadsBack k (.symbol (String.ofList cs)) := by
  rw [ReadsBack, chars_symbol, String.toList_ofList]
  exact spells

/-! ### Lists -/

section Elements

variable (single : Bool) {d : Datum} {ds items : List Datum} {outer : List Open} {o : State}

/-- An element of a list, from inside the list. -/
theorem yields_element (readable : ReadsBack (outer.length + 1) d) (between : o.mode = .between)
    (inside : o.enclosing = .list items :: outer) :
    o.Yields single (d.chars .wire)
      { o.passed (d.chars .wire) with enclosing := .list (d.reread :: items) :: outer } := by
  have yields := readable single o between (by simp [inside])
    (State.isFull_of_enclosing single (by simp [inside]))
  rw [State.accept_list (s := o.passed _) inside, ← between] at yields
  exact yields

/-- The elements of a list, from inside the list. -/
theorem yields_elements (readable : ∀ x ∈ d :: ds, ReadsBack (outer.length + 1) x)
    (between : o.mode = .between) (inside : o.enclosing = .list items :: outer) :
    o.Yields single (d.chars .wire ++ itemChars .wire ds)
      { o.passed (d.chars .wire ++ itemChars .wire ds) with
        enclosing := .list (((d :: ds).map reread).reverse ++ items) :: outer } := by
  induction ds generalizing d o items with
  | nil =>
    rw [itemChars_nil, List.append_nil]
    exact yields_element single (readable d List.mem_cons_self) between inside
  | cons d' ds ih =>
    obtain ⟨first, others⟩ := List.forall_mem_cons.mp readable
    have front := yields_element single first between inside
    have blank := State.step_blank single front.mode_eq (c := ' ') rfl
    have back := State.Yields.after (State.run_cons_of_ok blank [])
      (ih others front.mode_eq rfl)
    rw [itemChars_cons]
    have whole := front.trans endsValue_blank back
    simpa [State.passed, Nat.add_assoc, Nat.add_comm 1] using whole

end Elements

/-- Where as much is open as may be, no list can be read. -/
theorem run_list_of_full {single : Bool} {o : State} (between : o.mode = .between)
    (room : o.isFull single = false) (full : maxDepth ≤ o.enclosing.length) (d : Datum)
    (ds : List Datum) :
    o.run single (chars .wire (.list (d :: ds))) = .error (.tooDeep (o.passed ['(']).offset) := by
  rw [chars_list_cons, State.run, State.step_open_of_deep single between room full]

/-- The text of a list is read back if those of its elements are, one level further in. -/
theorem readsBack_list {ds : List Datum} {k : Nat} (few : k < maxDepth)
    (readable : ∀ d ∈ ds, ReadsBack (k + 1) d) : ReadsBack k (.list ds) := by
  cases ds with
  | nil => exact readsBack_nil k
  | cons d ds =>
    intro single o between depth room
    have opened := State.step_open single between room (Nat.lt_of_le_of_lt depth few)
    have elements := yields_elements single
      (fun x mem => (readable x mem).mono (Nat.succ_le_succ depth))
      (o := { o.passed ['('] with enclosing := .list [] :: o.enclosing }) between rfl
    have closed := State.step_close single elements.mode_eq rfl
    rw [chars_list_cons, reread_list]
    refine State.yields_of_run ?_ rfl
    rw [State.run_cons_of_ok opened, elements.run_append_cons endsValue_close,
      State.run_cons_of_ok closed]
    simp [State.run, State.accept_eq, State.passed, Nat.add_assoc, Nat.add_comm 1]

end LispBridge.Datum
