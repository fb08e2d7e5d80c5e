import LispBridge.Proofs.Session.Literals

/-!
Queries about the place of the cursor in a form.

* `Request.scopeAt`: the list around the cursor in an argument.
* `read_autodoc_at`: a command about a cursor is read as the form it was printed from.
* `cursor_queries_ask`: what `autodoc` and keyword completion ask, for every well-formed argument.
-/

namespace LispBridge

open Datum

/-! ### Well-formed values -/

namespace Datum

variable {k : Nat} {d : Datum}

theorem sturdy_of_wellFormed (fine : d.WellFormed) (fits : k + d.nesting ≤ maxDepth) :
    Sturdy k d := by
  induction fine generalizing k with
  | nil => exact .nil
  | t => exact .t
  | int n => exact .int n
  | float _ => exact .float _
  | str content => exact .str content
  | symbol plain => exact sturdy_plainName plain k
  | list nonempty elements ih =>
    rw [nesting] at fits
    refine .list (by omega) nonempty fun x mem => ih x mem ?_
    have least := nestingOf_le_iff.mp (Nat.le_refl _) x mem
    omega

theorem WellFormed.qualified (fine : d.WellFormed) : d.qualified.WellFormed := by
  induction fine with
  | nil => exact .symbol ⟨by decide, rfl⟩
  | t => exact .symbol ⟨by decide, rfl⟩
  | int n => exact .int n
  | float finite => exact .float finite
  | str content => exact .str content
  | symbol plain => exact .symbol plain
  | @list ds nonempty elements ih =>
    obtain ⟨d, ds, rfl⟩ := List.exists_cons_of_ne_nil nonempty
    rw [qualified_list_cons]
    refine .list (List.cons_ne_nil _ _) fun x mem => ?_
    obtain ⟨y, inside, rfl⟩ := List.mem_map.mp mem
    exact ih y inside

/-- A well-formed value in Lisp style is read back as itself, with symbols for `t` and `nil`. -/
theorem WellFormed.inLisp_eq (fine : d.WellFormed) : d.inLisp = d.qualified := by
  rw [inLisp, fine.qualified.reread]

theorem wellFormed_ofItems {ds : List Datum} (fine : ∀ d ∈ ds, WellFormed d) :
    (ofItems ds).WellFormed := by
  cases ds with
  | nil => exact .nil
  | cons d ds => exact .list (List.cons_ne_nil d ds) fine

theorem WellFormed.elements {ds : List Datum} (fine : (Datum.list ds).WellFormed) :
    ∀ x ∈ ds, x.WellFormed := by
  cases fine with
  | list _ elements => exact elements

/-- The elements of the scope that the search finds are well-formed. -/
theorem WellFormed.scope (fine : d.WellFormed) {s : Scope} (found : d.scope = some s) :
    ∀ x ∈ s.items, x.WellFormed := by
  obtain ⟨-, -, within⟩ :=
    holds_in_scope (P := fun _ => WellFormed) (k := 0) (fun _ _ => elements) fine found
  exact within.elements

end Datum

/-! ### Commands about a cursor -/

theorem renderInt_ofNat (n : Nat) : renderInt n = (toString n).toList := by
  rw [renderInt, if_neg (by omega)]
  simp [digits]

theorem autodoc_at_eq (function : String) {n : Nat} {i : Int64} (counted : i.toInt = n)
    (form : Datum) :
    QueryText.autodoc function (some n) form =
      (Datum.list [.symbol "slime::autodoc", .str function, .int i, quoted form]).lisp := by
  refine eq_lisp_of_chars ?_
  show ("(slime::autodoc \"" ++ escape function ++ "\" " ++ toString n ++ " (lisp:quote " ++
    form.lisp ++ "))").toList = _
  simp [quoted, chars_list_cons, itemChars_cons, chars_str, toList_escape, toList_lisp, counted,
    renderInt_ofNat]

/-- The command that asks about a cursor is read as the function, the index of the cursor and the
quoted form. -/
theorem read_autodoc_at (function : String) {n : Nat} {i : Int64} (counted : i.toInt = n)
    {form : Datum} (sturdy : Sturdy 2 form) :
    read (QueryText.autodoc function (some n) form) =
      .ok (.list [.symbol "slime::autodoc", .str function, .int i, quoted form.inLisp]) := by
  have each : ∀ d ∈ [.int i, quoted form], Sturdy 1 d :=
    List.forall_mem_cons.mpr
      ⟨.int i, List.forall_mem_singleton.mpr (sturdy_quoted (by decide) sturdy)⟩
  rw [autodoc_at_eq function counted, read_application ⟨by decide, rfl⟩ function each]
  simp only [List.map_cons, List.map_nil, inLisp_quoted]
  rfl

/-! ### What is asked about -/

/-- The list around the cursor in an argument of a request. One `quote` around the argument is left
out. -/
def Request.scopeAt (r : Request) (index : Nat) : Option Scope :=
  r.args[index]?.bind fun form => form.unquote.scope

/-- Whether an action asks the interpreter for one command and nothing else, and the command is read
as a form. -/
def Action.AsksOnly {α : Type} (a : Action α) (form : Datum) : Prop :=
  ∃ text, a.CallsFor [.command text .internal] ∧ read text = .ok form

section Requests

variable {r : Request} {s : Scope} {function : String}

/-- Whether an argument of a request is well-formed without the `quote` around it, and leaves room
for the lists that it is put into. -/
def Request.IsFine (r : Request) (index : Nat) : Prop :=
  ∀ form, r.args[index]? = some form →
    form.unquote.WellFormed ∧ form.unquote.nesting ≤ maxDepth - 3

theorem fine_of_scopeAt {index : Nat} (fine : r.IsFine index) (found : r.scopeAt index = some s) :
    ∀ x ∈ s.items, x.WellFormed ∧ Sturdy 3 x := by
  obtain ⟨form, given, found⟩ := Option.bind_eq_some_iff.mp found
  obtain ⟨wellFormed, fits⟩ := fine form given
  have sturdy : Sturdy 2 form.unquote :=
    sturdy_of_wellFormed wellFormed (by rw [maxDepth] at fits ⊢; omega)
  intro x mem
  exact ⟨wellFormed.scope found x mem, sturdy.scope found x mem⟩

/-- The elements without the mark are well-formed and leave room, and so is any part of them. -/
theorem ofItems_of_scopeAt {index : Nat} (fine : r.IsFine index)
    (found : r.scopeAt index = some s) {rest : List Datum} (part : ∀ x ∈ rest, x ∈ s.others) :
    Sturdy 2 (ofItems rest) ∧ (ofItems rest).inLisp = (ofItems rest).qualified := by
  have each : ∀ x ∈ rest, x.WellFormed ∧ Sturdy 3 x := fun x mem =>
    fine_of_scopeAt fine found x (List.mem_of_mem_eraseIdx (part x mem))
  have wellFormed : (ofItems rest).WellFormed := wellFormed_ofItems fun x mem => (each x mem).1
  exact ⟨sturdy_list (by decide) fun x mem => (each x mem).2, wellFormed.inLisp_eq⟩

/-! ### The handlers -/

variable {n : Nat} {form : Datum}

theorem asStr?_eq_some_iff {d : Datum} : d.asStr? = some function ↔ d = .str function := by
  cases d <;> simp [asStr?]

/-- There is something to ask about if the mark is behind a string at the head of the scope. -/
theorem autodocQuestion?_eq_some_iff :
    Action.autodocQuestion? r = some (function, n, form) ↔
      ∃ s, r.scopeAt 0 = some s ∧ 0 < s.cursor ∧ s.items[0]? = some (.str function) ∧
        s.cursor = n ∧ ofItems s.others = form := by
  simp only [Action.autodocQuestion?, Request.scopeAt, Option.bind_eq_bind, ← Option.bind_assoc]
  generalize (r.args[0]?.bind fun form => form.unquote.scope) = found
  cases found with
  | none => simp
  | some s =>
    by_cases first : s.cursor = 0
    · simp [first]
    · simp [first, Nat.pos_of_ne_zero, List.head?_eq_getElem?, Option.bind_eq_some_iff,
        asStr?_eq_some_iff, and_left_comm]

theorem autodocQuestion?_eq_none
    (nothing : ¬ ∃ s function, r.scopeAt 0 = some s ∧ 0 < s.cursor ∧
      s.items[0]? = some (.str function)) : Action.autodocQuestion? r = none := by
  refine Option.eq_none_iff_forall_ne_some.mpr ?_
  rintro ⟨function, n, form⟩ asked
  obtain ⟨s, found, behind, head, -⟩ := autodocQuestion?_eq_some_iff.mp asked
  exact nothing ⟨s, function, found, behind, head⟩

theorem callsFor_autodoc (asked : Action.autodocQuestion? r = some (function, n, form)) :
    (Action.autodoc r).CallsFor [.command (QueryText.autodoc function (some n) form) .internal] := by
  unfold Action.autodoc
  rw [asked]
  refine Action.callsFor_then ?_ fun known => ?_
  · exact Action.callsFor_attempt_bind (Action.callsFor_askInternal _) fun _ =>
      Action.callsFor_pure _
  · cases known with
    | none => exact Action.callsFor_pure _
    | some known => exact Action.callsFor_pure _

/-- An argument that is `nil` has no scope, so it does not matter that it counts as not given. -/
theorem scope_of_optArg? (r : Request) (index : Nat) :
    ((r.optArg? index).bind fun form => form.unquote.scope) = r.scopeAt index := by
  rw [Request.optArg?, Request.scopeAt]
  cases r.args[index]? with
  | none => rfl
  | some form =>
    cases form with
    | nil => rfl
    | _ => rfl

theorem keywordForm_of_no_scope {index : Nat} (nothing : r.scopeAt index = none) :
    Action.keywordForm (r.optArg? index) = .nil := by
  unfold Action.keywordForm
  rw [scope_of_optArg?, nothing]

/-- The empty string behind the mark is left out, and nothing else. -/
theorem keywordForm_of_scopeAt {index : Nat} {rest : List Datum} (found : r.scopeAt index = some s)
    (left : s.others = rest ++ [.str ""] ∨ s.others = rest ∧ rest.getLast? ≠ some (.str "")) :
    Action.keywordForm (r.optArg? index) = ofItems rest := by
  unfold Action.keywordForm
  rw [scope_of_optArg?, found]
  rcases left with open' | ⟨rfl, closed⟩
  · simp only [open', List.getLast?_concat, if_true, List.dropLast_concat]
  · simp only [if_neg closed]

end Requests

/-! ### What queries about a cursor ask -/

/-- **Queries about the place of the cursor ask what they mean to.** The form is an argument that is
well-formed without the `quote` around it and not nested too deeply, and its scope is the list
around the last mark in it.

`autodoc` asks a command exactly if there is a scope with a string `function` at its head and the
mark behind it. It asks one command, which is read as the function, the index of the mark and, in a
quote, the scope without this mark. Completing a keyword asks one command in any case. It is read as
the text to complete and the quoted scope without the mark and without an empty string that is last
then, or `nil` if there is no scope. In both forms `nil` and `t` have become the symbols of the
interpreter, at any depth.

An index in a list of the machine is far below `2 ^ 63`, so some 64-bit `i` stands for it. -/
theorem cursor_queries_ask (settings : Settings) (host : Host) (r : Request) :
    (r.IsFine 0 →
      (∀ s function i, r.scopeAt 0 = some s → 0 < s.cursor →
        s.items[0]? = some (.str function) → Int64.toInt i = s.cursor →
          (Action.ofCommand settings host r .autodoc).AsksOnly
            (.list [.symbol "slime::autodoc", .str function, .int i,
              quoted (ofItems s.others).qualified])) ∧
      ((¬ ∃ s function, r.scopeAt 0 = some s ∧ 0 < s.cursor ∧
        s.items[0]? = some (.str function)) →
          (Action.ofCommand settings host r .autodoc).CallsFor [])) ∧
    (r.IsFine 1 → ∀ start, r.strArg 0 = .ok start →
      (r.scopeAt 1 = none →
        (Action.ofCommand settings host r .keywordCompletions).AsksOnly
          (.list [.symbol "slime::slime-find-keyword", .str start, quoted lispNil])) ∧
      ∀ s rest, r.scopeAt 1 = some s →
        (s.others = rest ++ [.str ""] ∨ s.others = rest ∧ rest.getLast? ≠ some (.str "")) →
          (Action.ofCommand settings host r .keywordCompletions).AsksOnly
            (.list [.symbol "slime::slime-find-keyword", .str start,
              quoted (ofItems rest).qualified])) := by
  constructor
  · intro fine
    constructor
    · intro s function i found behind head counted
      obtain ⟨sturdy, inLisp⟩ := ofItems_of_scopeAt fine found fun _ mem => mem
      have asked : Action.autodocQuestion? r = some (function, s.cursor, ofItems s.others) :=
        autodocQuestion?_eq_some_iff.mpr ⟨s, found, behind, head, rfl, rfl⟩
      refine ⟨_, callsFor_autodoc asked, ?_⟩
      rw [read_autodoc_at function counted sturdy, inLisp]
    · intro nothing
      show (Action.autodoc r).CallsFor []
      unfold Action.autodoc
      rw [autodocQuestion?_eq_none nothing]
      exact Action.callsFor_pure _
  · intro fine start given
    have asks {form : Datum} (form_eq : Action.keywordForm (r.optArg? 1) = form) :
        (Action.ofCommand settings host r .keywordCompletions).CallsFor
          [.command (QueryText.findKeyword start form) .internal] := by
      rw [← form_eq]
      exact Action.callsFor_query (Action.ofExcept_ok_bind given _)
    constructor
    · intro nothing
      exact ⟨_, asks (keywordForm_of_no_scope nothing), read_findKeyword start .nil⟩
    · intro s rest found left
      have part : ∀ x ∈ rest, x ∈ s.others := by
        rcases left with open' | ⟨rfl, -⟩
        · intro x mem
          rw [open']
          exact List.mem_append_left _ mem
        · exact fun _ mem => mem
      obtain ⟨sturdy, inLisp⟩ := ofItems_of_scopeAt fine found part
      refine ⟨_, asks (keywordForm_of_scopeAt found left), ?_⟩
      rw [read_findKeyword start sturdy, inLisp]

/-- The cursor is the third element behind the name of a function. A keyword is completed where the
mark is alone before the empty string, and where it is the only element. -/
theorem cursor_queries_ask_of_samples :
    let mark : Datum := .symbol cursorMark
    let autodoc : Request :=
      { tag := "swank:autodoc", package := some "USER", thread := .t, id := 1
        args := [.list [.symbol "quote", .list [.str "f\"", .list [.str "g", .nil], mark]]] }
    let complete (form : Datum) : Request :=
      { tag := "swank:completions-for-keyword", package := some "USER", thread := .t, id := 2
        args := [.str ":k", .list [.symbol "quote", form]] }
    (Action.ofCommand {} {} autodoc .autodoc).AsksOnly
      (.list [.symbol "slime::autodoc", .str "f\"", .int 2,
        .list [.symbol "lisp:quote", .list [.str "f\"", .list [.str "g", .symbol "lisp:nil"]]]]) ∧
    (Action.ofCommand {} {} (complete (.list [.str "f", .t, mark, .str ""]))
        .keywordCompletions).AsksOnly
      (.list [.symbol "slime::slime-find-keyword", .str ":k",
        .list [.symbol "lisp:quote", .list [.str "f", .symbol "lisp:t"]]]) ∧
    (Action.ofCommand {} {} (complete (.list [mark])) .keywordCompletions).AsksOnly
      (.list [.symbol "slime::slime-find-keyword", .str ":k",
        .list [.symbol "lisp:quote", .symbol "lisp:nil"]]) := by
  intro mark autodoc complete
  have plain : WellFormed mark := .symbol ⟨by decide, rfl⟩
  have fineForm : WellFormed (.list [.str "f\"", .list [.str "g", .nil], mark]) := by
    refine .list (by simp) ?_
    simp only [List.forall_mem_cons]
    refine ⟨.str _, .list (by simp) ?_, plain, by simp⟩
    simp only [List.forall_mem_cons]
    exact ⟨.str _, .nil, by simp⟩
  have fineOpen : WellFormed (.list [.str "f", .t, mark, .str ""]) := by
    refine .list (by simp) ?_
    simp only [List.forall_mem_cons]
    exact ⟨.str _, .t, plain, .str _, by simp⟩
  have fineMark : WellFormed (.list [mark]) :=
    .list (by simp) (List.forall_mem_singleton.mpr plain)
  refine ⟨(cursor_queries_ask {} {} autodoc).1 ?_ |>.1 ⟨_, 2, 0⟩ "f\"" 2 rfl (by decide) rfl rfl,
    ((cursor_queries_ask {} {} (complete _)).2 ?_ ":k" rfl).2 ⟨_, 2, 0⟩ [.str "f", .t] rfl
      (.inl rfl),
    ((cursor_queries_ask {} {} (complete _)).2 ?_ ":k" rfl).2 ⟨_, 0, 0⟩ [] rfl
      (.inr ⟨rfl, by simp⟩)⟩
  · rintro _ ⟨⟩
    exact ⟨fineForm, by decide⟩
  · rintro _ ⟨⟩
    exact ⟨fineOpen, by decide⟩
  · rintro _ ⟨⟩
    exact ⟨fineMark, by decide⟩

end LispBridge
