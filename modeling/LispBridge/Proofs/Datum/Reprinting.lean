import LispBridge.Proofs.Datum.Reading

/-!
What has been read prints back readable, with two exceptions.

* `Dangling`: a form whose text ends inside a character. It is the only value that a text can be
  read as and that is not sturdy, besides a lone `#\`.
* `sturdy_of_read`: what a text can be read as.
* `read_wire_eq_iff`: which of these values are read back from their own text.
-/

namespace LispBridge.Datum

open Reader

/-! ### Forms that end inside a character -/

/-- A form that a prefix stands for and that ends with `#\`. Where it is printed, the parenthesis
behind `#\` becomes the character. -/
inductive Dangling : Datum → Prop
  | character {head : String} (known : head ∈ prefixHeads) :
      Dangling (.list [.symbol head, .symbol "#\\"])
  | wrapped {head : String} {d : Datum} (known : head ∈ prefixHeads) (inner : Dangling d) :
      Dangling (.list [.symbol head, d])

/-- A lone `#\` under some prefixes stays under them when they are complete. -/
theorem dangling_place {d : Datum} {forms : List Datum} {enclosing : List Open}
    (opens : SturdyOpens enclosing) (ends : d = .symbol "#\\" ∨ d.Dangling)
    (closed : (place d forms enclosing).1 = []) :
    ∃ x, (place d forms enclosing).2 = x :: forms ∧ (x = .symbol "#\\" ∨ x.Dangling) := by
  induction enclosing generalizing d with
  | nil => exact ⟨d, rfl, ends⟩
  | cons op outer ih =>
    cases op with
    | list items => cases closed
    | vector start => cases closed
    | prefixed head =>
      obtain ⟨known, opens⟩ := opens
      have wrapped : Dangling (.list [.symbol head, d]) := by
        rcases ends with rfl | inner
        · exact .character known
        · exact .wrapped known inner
      exact ih opens (.inr wrapped) closed

end LispBridge.Datum

namespace LispBridge.Reader

open Datum

/-- The forms of a text are sturdy, but for those that end with the text inside a character. -/
theorem Reading.finish {single : Bool} {s : State} (reading : Reading s)
    (few : s.enclosing.length ≤ maxDepth) {ds : List Datum} (finished : s.finish single = .ok ds) :
    ∀ d ∈ ds, Sturdy 0 d ∨ d = .symbol "#\\" ∨ d.Dangling := by
  cases reading with
  | outside holds shaped =>
    obtain ⟨t, flushed, closed, rfl⟩ := finish_eq_ok finished
    rcases flush_cases flushed with rfl | settled | ⟨_, rfl⟩ | some
    · exact fun d mem => .inl (holds.forms d (List.mem_reverse.mp mem))
    · exact fun d mem => .inl ((holds.settle shaped few settled).forms d (List.mem_reverse.mp mem))
    · obtain ⟨x, placed, ends⟩ := dangling_place holds.opens (.inl rfl) closed
      intro d mem
      rw [State.accept_eq, placed, List.mem_reverse] at mem
      rcases List.mem_cons.mp mem with rfl | mem
      · exact .inr ends
      · exact .inl (holds.forms d mem)
    · exact absurd closed some
  | inside => exact absurd finished (finish_within_ne_ok (by trivial) ds)

/-- In front of what a prefix stands in front of, its form opens a list. -/
theorem run_prefixForm {single : Bool} {o : State} {head : String} (known : head ∈ prefixHeads)
    (between : o.mode = .between) (room : o.isFull single = false)
    (few : o.enclosing.length < maxDepth) :
    o.run single ('(' :: (head.toList ++ [' '])) =
      .ok { o.passed ('(' :: (head.toList ++ [' '])) with
        enclosing := .list [.symbol head] :: o.enclosing } := by
  have opened := State.step_open single between room few
  have front := yields_element single (sturdy_prefixHead known _).readable
    (o := { o.passed ['('] with enclosing := .list [] :: o.enclosing }) between rfl
  have blank := State.step_blank single front.mode_eq (c := ' ') rfl
  rw [chars_symbol] at front blank
  rw [State.run_cons_of_ok opened, front.run_append_cons endsValue_blank,
    State.run_cons_of_ok blank]
  simp [State.run, State.passed, Nat.add_assoc, Nat.add_comm 1, reread]

theorem chars_prefixForm (head : String) (d : Datum) :
    chars .wire (.list [.symbol head, d]) =
      '(' :: (head.toList ++ [' ']) ++ (d.chars .wire ++ [')']) := by
  rw [chars_list_cons, chars_symbol, itemChars_cons, itemChars_nil]
  simp

/-- The text of such a form leaves its list open. -/
theorem yields_dangling {d : Datum} (dangling : d.Dangling) (single : Bool) {o : State}
    (between : o.mode = .between) (room : o.isFull single = false) :
    (∃ fault, o.run single (d.chars .wire) = .error fault) ∨
      ∃ t items, o.Yields single (d.chars .wire) t ∧ t.enclosing = .list items :: o.enclosing := by
  induction dangling generalizing o with
  | @character head known =>
    by_cases few : o.enclosing.length < maxDepth
    · have front := run_prefixForm known between room few
      have name : IsName ['#', '\\', ')'] := ⟨')', [], rfl, by simp⟩
      have inside := spells_name name _ single
        { o.passed ('(' :: (head.toList ++ [' '])) with
          enclosing := .list [.symbol head] :: o.enclosing }
        between (Nat.le_refl _) (State.isFull_of_enclosing single (List.cons_ne_nil _ _))
      rw [chars_prefixForm]
      exact .inr ⟨_, _, State.Yields.after front inside, rfl⟩
    · exact .inl ⟨_, run_list_of_full between room (Nat.le_of_not_lt few) _ _⟩
  | @wrapped head d known inner ih =>
    by_cases few : o.enclosing.length < maxDepth
    · have front := run_prefixForm known between room few
      have inside := ih (o := { o.passed ('(' :: (head.toList ++ [' '])) with
          enclosing := .list [.symbol head] :: o.enclosing })
        between (State.isFull_of_enclosing single (List.cons_ne_nil _ _))
      rw [chars_prefixForm]
      rcases inside with ⟨fault, failed⟩ | ⟨t, items, yields, left⟩
      · refine .inl ⟨fault, ?_⟩
        rw [State.run_append_of_ok front, State.run_append_of_error failed]
      · have closed := State.step_close single yields.mode_eq left
        have ran := (yields.run_append_cons endsValue_close []).trans
          (State.run_cons_of_ok closed [])
        exact .inr ⟨_, _, State.Yields.after front (State.yields_of_run ran rfl), rfl⟩
    · exact .inl ⟨_, run_list_of_full between room (Nat.le_of_not_lt few) _ _⟩

end LispBridge.Reader

namespace LispBridge.Datum

open Reader

theorem read_wire_of_dangling {d : Datum} (dangling : d.Dangling) (v : Datum) :
    read d.wire ≠ .ok v := by
  intro readable
  rw [read, show d.wire.toList = d.chars .wire from rfl, Reader.forms] at readable
  rcases yields_dangling dangling true (o := {}) rfl rfl with
    ⟨fault, failed⟩ | ⟨t, items, ⟨u, ran, settled⟩, left⟩
  · rw [failed] at readable
    cases readable
  · have flushed := State.flush_of_settle settled
    simp only [ran, State.finish, flushed, left, bind, Except.bind] at readable
    cases readable

/-- A text is read as a sturdy value, or it ends inside a character. -/
theorem sturdy_of_read {s : String} {v : Datum} (accepted : read s = .ok v) :
    Sturdy 0 v ∨ v = .symbol "#\\" ∨ v.Dangling := by
  obtain ⟨ds, all⟩ := forms_of_read accepted
  obtain ⟨t, ran, finished⟩ := forms_eq_ok all
  have reading : Reading {} := .outside ⟨trivial, by simp⟩ trivial
  have last := reading.run ⟨rfl, List.nil_prefix⟩ (Nat.zero_le _) ran
  have few := length_enclosing_run (Nat.zero_le _) ran
  exact last.finish few finished v List.mem_cons_self

/-- Which values that a text has been read as are read back from their own text: those without
infinities, which are written like symbols, that do not end inside a character. -/
theorem read_wire_eq_iff {s : String} {v : Datum} (accepted : read s = .ok v) :
    read v.wire = .ok v ↔ (∀ x, .float x ∈ v.parts → x.IsFinite) ∧ ¬ v.Dangling := by
  rcases sturdy_of_read accepted with sturdy | rfl | dangling
  · have back := read_wire_of_readsBack sturdy.readable
    have whole : ¬ v.Dangling := fun dangling => read_wire_of_dangling dangling _ back
    rw [back, Except.ok.injEq, reread_eq_self_iff sturdy.filled]
    exact (and_iff_left whole).symm
  · have whole : ¬ Dangling (.symbol "#\\") := fun dangling => nomatch dangling
    have finite : ∀ x, .float x ∈ parts (.symbol "#\\") → x.IsFinite := by simp [parts]
    exact iff_of_true rfl ⟨finite, whole⟩
  · constructor
    · intro back
      exact absurd back (read_wire_of_dangling dangling v)
    · rintro ⟨_, whole⟩
      exact absurd dangling whole

/-- A numeral beyond the finite numbers, and a quoted `#\` at the end of its text, are not read
back; a quoted vector with a comment in it is. -/
theorem read_wire_of_samples :
    let overflow := Datum.float ⟨0x7ff0000000000000⟩
    let character := Datum.list [.symbol "quote", .symbol "#\\"]
    let vector := Datum.list [.symbol "quote", .symbol "#((1 ; )\n) #|)|#)"]
    (read "1e999" = .ok overflow ∧ read overflow.wire ≠ .ok overflow) ∧
      (read "'#\\" = .ok character ∧ read character.wire ≠ .ok character) ∧
      (read "'#((1 ; )\n) #|)|#)" = .ok vector ∧ read vector.wire = .ok vector) := by
  intro overflow character vector
  have overflows : read "1e999" = .ok overflow := by rfl
  have ends : read "'#\\" = .ok character := by rfl
  have closes : read "'#((1 ; )\n) #|)|#)" = .ok vector := by rfl
  refine ⟨⟨overflows, ?_⟩, ⟨ends, ?_⟩, ⟨closes, ?_⟩⟩
  · rw [Ne, read_wire_eq_iff overflows]
    rintro ⟨finite, _⟩
    exact finite _ List.mem_cons_self (by rfl)
  · rw [Ne, read_wire_eq_iff ends]
    rintro ⟨_, whole⟩
    exact whole (.character (by decide))
  · rw [read_wire_eq_iff closes]
    constructor
    · intro x part
      simp [vector, parts, partsOf] at part
    · intro dangling
      generalize same : vector = d at dangling
      cases dangling with
      | character => simp [vector] at same
      | wrapped _ inner =>
        simp only [vector, list.injEq, List.cons.injEq] at same
        rw [← same.2.1] at inner
        cases inner

end LispBridge.Datum
