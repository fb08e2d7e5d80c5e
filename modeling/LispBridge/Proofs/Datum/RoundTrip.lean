import LispBridge.Message.Inbound
import LispBridge.Proofs.Datum.Spelling

/-!
The reader undoes the printer.

* `nesting`: how deep lists are nested in a value.
* `WellFormed`: the values that a text can spell.
* `readsBack_of_wellFormed`, `run_of_tooDeep`: what the text of such a value comes to, by its
  nesting.
* `read_wire`: a printed value is read back, or it is nested too deep.
-/

namespace LispBridge.Datum

open Reader

/-! ### Nesting -/

mutual

/-- How deep lists are nested in a value. -/
def nesting : Datum → Nat
  | .list ds => 1 + nestingOf ds
  | .nil | .t | .int _ | .float _ | .str _ | .symbol _ => 0

/-- The largest nesting of some values. -/
def nestingOf : List Datum → Nat
  | [] => 0
  | d :: ds => max (nesting d) (nestingOf ds)

end

theorem nestingOf_le_iff {ds : List Datum} {n : Nat} :
    nestingOf ds ≤ n ↔ ∀ d ∈ ds, d.nesting ≤ n := by
  induction ds with
  | nil => simp [nestingOf]
  | cons d ds ih => rw [nestingOf, Nat.max_le, ih, List.forall_mem_cons]

theorem lt_nestingOf_iff {ds : List Datum} {n : Nat} :
    n < nestingOf ds ↔ ∃ d ∈ ds, n < d.nesting := by
  rw [← Nat.not_le, nestingOf_le_iff]
  simp

/-! ### Well-formed values -/

/-- The name of a symbol that is read back: a token that means nothing else. -/
structure IsPlainName (name : String) : Prop where
  token : IsToken name.toList
  symbol : ofToken name.toList = .symbol name

/-- The values without empty lists, infinities and NaN, all of whose symbols are read back. -/
inductive WellFormed : Datum → Prop
  | nil : WellFormed .nil
  | t : WellFormed .t
  | int (n : Int64) : WellFormed (.int n)
  | float {x : Binary64} (finite : x.IsFinite) : WellFormed (.float x)
  | str (content : String) : WellFormed (.str content)
  | symbol {name : String} (plain : IsPlainName name) : WellFormed (.symbol name)
  | list {ds : List Datum} (nonempty : ds ≠ []) (elements : ∀ d ∈ ds, WellFormed d) :
      WellFormed (.list ds)

theorem WellFormed.reread {d : Datum} (wellFormed : d.WellFormed) : d.reread = d := by
  induction wellFormed with
  | nil => rfl
  | t => rfl
  | int n => rfl
  | float finite => rw [Datum.reread, if_pos finite]
  | str content => rfl
  | symbol plain => rfl
  | @list ds nonempty elements ih =>
    have same : ds.map Datum.reread = ds :=
      (List.map_congr_left ih).trans (List.map_id' ds)
    rw [reread_list, same]
    cases ds with
    | nil => exact absurd rfl nonempty
    | cons d ds => rfl

/-- A value is read back wherever its nesting fits. -/
theorem readsBack_of_wellFormed {d : Datum} (wellFormed : d.WellFormed) {k : Nat}
    (fits : k + d.nesting ≤ maxDepth) : ReadsBack k d := by
  induction wellFormed generalizing k with
  | nil => exact readsBack_nil k
  | t => exact readsBack_t k
  | int n => exact readsBack_int n k
  | float finite => exact readsBack_float _ k
  | str content => exact readsBack_str content k
  | @symbol name plain =>
    have spells := spells_token plain.token k
    rw [plain.symbol, ← String.ofList_toList (s := name), String.toList_ofList] at spells
    rw [← String.ofList_toList (s := name)]
    exact readsBack_symbol spells
  | list nonempty elements ih =>
    rw [nesting] at fits
    refine readsBack_list (by omega) fun d mem => ih d mem ?_
    have least := nestingOf_le_iff.mp (Nat.le_refl _) d mem
    omega

/-! ### Values nested too deep -/

/-- Whether the text of a value is nested too deep inside `k` open constructs. -/
def IsTooDeep (k : Nat) (d : Datum) : Prop :=
  ∀ (single : Bool) (o : State), o.mode = .between → o.enclosing.length = k →
    o.isFull single = false → ∃ offset, o.run single (d.chars .wire) = .error (.tooDeep offset)

section Elements

variable {d : Datum} {ds items : List Datum} {outer : List Open} {o : State}

theorem run_element_of_tooDeep (single : Bool) (tooDeep : IsTooDeep (outer.length + 1) d)
    (between : o.mode = .between) (inside : o.enclosing = .list items :: outer)
    (more : List Char) :
    ∃ offset, o.run single (d.chars .wire ++ more) = .error (.tooDeep offset) := by
  obtain ⟨offset, failed⟩ := tooDeep single o between (by simp [inside])
    (State.isFull_of_enclosing single (by simp [inside]))
  exact ⟨offset, State.run_append_of_error failed more⟩

/-- Among elements of which some are read back, the first that is not stops the reader. -/
theorem run_elements_of_tooDeep (single : Bool)
    (each : ∀ x ∈ d :: ds, ReadsBack (outer.length + 1) x ∨ IsTooDeep (outer.length + 1) x)
    (deep : ∃ x ∈ d :: ds, IsTooDeep (outer.length + 1) x)
    (between : o.mode = .between) (inside : o.enclosing = .list items :: outer) :
    ∃ offset, o.run single (d.chars .wire ++ itemChars .wire ds) = .error (.tooDeep offset) := by
  induction ds generalizing d o items with
  | nil =>
    obtain ⟨x, mem, tooDeep⟩ := deep
    obtain rfl := List.mem_singleton.mp mem
    exact run_element_of_tooDeep single tooDeep between inside _
  | cons d' ds ih =>
    obtain ⟨first, others⟩ := List.forall_mem_cons.mp each
    rcases first with readable | tooDeep
    · by_cases here : IsTooDeep (outer.length + 1) d
      · exact run_element_of_tooDeep single here between inside _
      · have later : ∃ x ∈ d' :: ds, IsTooDeep (outer.length + 1) x := by
          obtain ⟨x, mem, tooDeep⟩ := deep
          rcases List.mem_cons.mp mem with rfl | mem
          · exact absurd tooDeep here
          · exact ⟨x, mem, tooDeep⟩
        have front := yields_element single readable between inside
        have blank := State.step_blank single front.mode_eq (c := ' ') rfl
        rw [itemChars_cons, front.run_append_cons endsValue_blank, State.run_cons_of_ok blank]
        exact ih others later front.mode_eq rfl
    · exact run_element_of_tooDeep single tooDeep between inside _

end Elements

theorem isTooDeep_of_wellFormed {d : Datum} (wellFormed : d.WellFormed) {k : Nat}
    (inside : k ≤ maxDepth) (deep : maxDepth < k + d.nesting) : IsTooDeep k d := by
  induction wellFormed generalizing k with
  | @list ds nonempty elements ih =>
    intro single o between depth room
    subst depth
    obtain ⟨d, ds, rfl⟩ := List.exists_cons_of_ne_nil nonempty
    by_cases full : maxDepth ≤ o.enclosing.length
    · exact ⟨_, run_list_of_full between room full d ds⟩
    · have few := Nat.lt_of_not_le full
      have each : ∀ x ∈ d :: ds, ReadsBack (o.enclosing.length + 1) x ∨
          IsTooDeep (o.enclosing.length + 1) x := by
        intro x mem
        by_cases fits : o.enclosing.length + 1 + x.nesting ≤ maxDepth
        · exact .inl (readsBack_of_wellFormed (elements x mem) fits)
        · exact .inr (ih x mem few (Nat.lt_of_not_le fits))
      have some : ∃ x ∈ d :: ds, IsTooDeep (o.enclosing.length + 1) x := by
        rw [nesting] at deep
        obtain ⟨x, mem, more⟩ := lt_nestingOf_iff.mp
          (by omega : maxDepth - o.enclosing.length - 1 < nestingOf (d :: ds))
        exact ⟨x, mem, ih x mem few (by omega)⟩
      have opened := State.step_open single between room few
      obtain ⟨offset, failed⟩ := run_elements_of_tooDeep single each some
        (o := { o.passed ['('] with enclosing := .list [] :: o.enclosing }) between rfl
      refine ⟨offset, ?_⟩
      rw [chars_list_cons, State.run_cons_of_ok opened]
      exact State.run_append_of_error failed _
  | nil => exact absurd deep (Nat.not_lt_of_le inside)
  | t => exact absurd deep (Nat.not_lt_of_le inside)
  | int n => exact absurd deep (Nat.not_lt_of_le inside)
  | float finite => exact absurd deep (Nat.not_lt_of_le inside)
  | str content => exact absurd deep (Nat.not_lt_of_le inside)
  | symbol plain => exact absurd deep (Nat.not_lt_of_le inside)

/-! ### Whole texts -/

/-- A value that is read back at the top level is the only form of its text. -/
theorem read_wire_of_readsBack {d : Datum} (readable : ReadsBack 0 d) :
    read d.wire = .ok d.reread := by
  have yields := readable true {} rfl (Nat.le_refl 0) rfl
  rw [read, show d.wire.toList = d.chars .wire from rfl, yields.forms_eq rfl]
  rfl

/-- A well-formed value is read back from its text, unless it is nested too deep: such a text is
malformed. -/
theorem read_wire {d : Datum} (wellFormed : d.WellFormed) :
    (d.nesting ≤ maxDepth → read d.wire = .ok d) ∧
      (maxDepth < d.nesting → ∃ offset, read d.wire = .error (.tooDeep offset) ∧
        (MessageFault.unreadable (.tooDeep offset)).failure =
          .malformed s!"nesting too deep at byte {offset}") := by
  constructor
  · intro fits
    rw [read_wire_of_readsBack (readsBack_of_wellFormed wellFormed (by omega)), wellFormed.reread]
  · intro deep
    obtain ⟨offset, failed⟩ := isTooDeep_of_wellFormed wellFormed (Nat.zero_le _) (by omega)
      true {} rfl rfl rfl
    refine ⟨offset, ?_, rfl⟩
    rw [read, show d.wire.toList = d.chars .wire from rfl, Reader.forms, failed]
    rfl

/-- A value inside `n` lists. -/
def inLists (d : Datum) : Nat → Datum
  | 0 => d
  | n + 1 => .list [d.inLists n]

theorem wellFormed_inLists {d : Datum} (wellFormed : d.WellFormed) (n : Nat) :
    (d.inLists n).WellFormed := by
  induction n with
  | zero => exact wellFormed
  | succ n ih =>
    refine .list (List.cons_ne_nil _ _) ?_
    intro x mem
    rwa [List.mem_singleton.mp mem]

theorem nesting_inLists (d : Datum) (n : Nat) : (d.inLists n).nesting = n + d.nesting := by
  induction n with
  | zero => simp [inLists]
  | succ n ih =>
    rw [inLists, nesting, nestingOf, nestingOf, ih]
    omega

/-- A message with a quote, a backslash and a line break is read back as it was, one level below
the limit and not above it. -/
theorem read_wire_of_message :
    let message := Datum.list [.symbol ":write-string", .str "a \"b\"\\\n",
      .float ⟨0xbfb999999999999a⟩, .int (-7), .t, .nil]
    read (message.inLists 511).wire = .ok (message.inLists 511) ∧
      ∃ offset, read (message.inLists 512).wire = .error (.tooDeep offset) := by
  intro message
  have plain : IsPlainName ":write-string" := ⟨by decide, by rfl⟩
  have wellFormed : message.WellFormed := by
    refine .list (List.cons_ne_nil _ _) ?_
    simp only [List.forall_mem_cons]
    exact ⟨.symbol plain, .str _, .float (by decide), .int _, .t, .nil, by simp⟩
  have one : message.nesting = 1 := rfl
  constructor
  · exact (read_wire (wellFormed_inLists wellFormed 511)).1 (by rw [nesting_inLists, one]; decide)
  · obtain ⟨offset, failed, _⟩ := (read_wire (wellFormed_inLists wellFormed 512)).2
      (by rw [nesting_inLists, one]; decide)
    exact ⟨offset, failed⟩

end LispBridge.Datum
