import LispBridge.Proofs.Datum.Sturdy

/-!
What the reader holds while it reads.

* `State.Holds`: it holds sturdy values only, outside of vectors.
* `Reading`: so it does whatever it has read so far, and inside of a vector the text of the vector
  so far would be read the same elsewhere.
* `Reading.step`, `Reading.run`: one character, and any text.
-/

namespace LispBridge.Reader

open Datum

/-! ### What the reader holds -/

/-- The constructs that are open around a place outside of vectors: their elements are sturdy, and
the prefixes among them are known. -/
def SturdyOpens : List Open → Prop
  | [] => True
  | .list items :: outer => (∀ d ∈ items, Sturdy (outer.length + 1) d) ∧ SturdyOpens outer
  | .prefixed head :: outer => head ∈ prefixHeads ∧ SturdyOpens outer
  | .vector _ :: _ => False

/-- Whether the reader holds sturdy values only, outside of vectors. -/
structure State.Holds (s : State) : Prop where
  opens : SturdyOpens s.enclosing
  forms : ∀ d ∈ s.forms, Sturdy 0 d

theorem sturdy_place {d : Datum} {forms : List Datum} {enclosing : List Open}
    (opens : SturdyOpens enclosing) (held : ∀ x ∈ forms, Sturdy 0 x)
    (few : enclosing.length ≤ maxDepth) (sturdy : Sturdy enclosing.length d) :
    SturdyOpens (place d forms enclosing).1 ∧ ∀ x ∈ (place d forms enclosing).2, Sturdy 0 x := by
  induction enclosing generalizing d with
  | nil => exact ⟨trivial, List.forall_mem_cons.mpr ⟨sturdy, held⟩⟩
  | cons op outer ih =>
    cases op with
    | list items =>
      obtain ⟨elements, opens⟩ := opens
      exact ⟨⟨List.forall_mem_cons.mpr ⟨sturdy, elements⟩, opens⟩, held⟩
    | prefixed head =>
      obtain ⟨known, opens⟩ := opens
      have form : Sturdy outer.length (.ofItems [.symbol head, d]) := by
        refine sturdy_list few ?_
        intro x mem
        rcases List.mem_cons.mp mem with rfl | mem
        · exact sturdy_prefixHead known _
        · rwa [List.mem_singleton.mp mem]
      exact ih opens (Nat.le_of_succ_le few) form
    | vector start => exact opens.elim

theorem State.Holds.accept {s : State} {d : Datum} (holds : s.Holds)
    (few : s.enclosing.length ≤ maxDepth) (sturdy : Sturdy s.enclosing.length d) :
    (s.accept d).Holds := by
  obtain ⟨opens, forms⟩ := sturdy_place holds.opens holds.forms few sturdy
  exact ⟨opens, forms⟩

section Steps

variable {single : Bool} {s t : State} {c : Char}

/-- The value that a token is taken for is sturdy. -/
theorem sturdy_of_settle (shaped : s.mode.IsShaped) (settled : s.settle? single = some t) :
    t = s ∨ ∃ d, t = s.accept d ∧ ∀ k, Sturdy k d := by
  unfold State.settle? at settled
  split at settled
  · exact .inl (Option.some.inj settled).symm
  · next content mode =>
    rw [mode] at shaped
    exact .inr ⟨_, (Option.some.inj settled).symm, fun k => sturdy_ofToken shaped k⟩
  · split at settled
    · cases settled
    · exact .inr ⟨_, (Option.some.inj settled).symm,
        fun k => Sturdy.symbol (spells_hashToken isHashToken_hash k)⟩
  · next content mode =>
    rw [mode] at shaped
    exact .inr ⟨_, (Option.some.inj settled).symm,
      fun k => Sturdy.symbol (spells_hashToken shaped.1 k)⟩
  · next content mode =>
    rw [mode] at shaped
    exact .inr ⟨_, (Option.some.inj settled).symm,
      fun k => Sturdy.symbol (spells_name shaped k)⟩
  all_goals cases settled

theorem State.Holds.settle (holds : s.Holds) (shaped : s.mode.IsShaped)
    (few : s.enclosing.length ≤ maxDepth) (settled : s.settle? single = some t) : t.Holds := by
  rcases sturdy_of_settle shaped settled with rfl | ⟨d, rfl, sturdy⟩
  · exact holds
  · exact holds.accept few (sturdy _)

theorem State.Holds.enter {op : Open} (holds : s.Holds) (entered : s.enter op = .ok t)
    (opens : SturdyOpens (op :: s.enclosing)) : t.Holds ∧ t.mode.IsShaped := by
  obtain ⟨_, rfl⟩ := enter_eq_ok entered
  exact ⟨⟨opens, holds.forms⟩, trivial⟩

theorem State.Holds.begins (holds : s.Holds) (few : s.enclosing.length ≤ maxDepth)
    (began : Begins s c t) : t.Holds ∧ t.mode.IsShaped := by
  have read {mode : Mode} : (s.read c mode).Holds := ⟨holds.opens, holds.forms⟩
  cases began with
  | read shaped => exact ⟨read, shaped⟩
  | list entered =>
    refine read.enter entered ⟨?_, holds.opens⟩
    intro d mem
    cases mem
  | quote known entered => exact read.enter entered ⟨known, holds.opens⟩
  | @closeList items outer _ inside =>
    have opens := holds.opens
    rw [inside] at opens few
    obtain ⟨elements, opens⟩ := opens
    have left : ({ s.read c .between with enclosing := outer } : State).Holds :=
      ⟨opens, holds.forms⟩
    refine ⟨left.accept (Nat.le_of_succ_le few) (sturdy_list few ?_), trivial⟩
    intro d mem
    exact elements d (List.mem_reverse.mp mem)
  | closeVector _ inside =>
    have opens := holds.opens
    rw [inside] at opens
    exact opens.elim

end Steps

/-- What the reader holds when it has read a text so far. -/
inductive Reading : State → Prop
  /-- Outside of vectors, it holds sturdy values and a token that may be one. -/
  | outside {s : State} (holds : s.Holds) (shaped : s.mode.IsShaped) : Reading s
  /-- Inside of a vector, it holds what it had held in front of it, and the text of the vector so
  far would be read the same elsewhere. -/
  | inside {o inner : State} {outer : List Open} {front body before : List Char}
      (holds : ({ o with enclosing := outer } : State).Holds) (token : IsHashToken front)
      (opened : o.seen = '(' :: (front.reverse ++ before)) (count : o.count = o.seen.length)
      (replays : Replays outer.length body inner) :
      Reading (o.within (.vector before.length) outer inner)

section Reading

variable {single : Bool} {s t : State} {c : Char} {cs : List Char}

theorem Replays.step {k : Nat} {body : List Char} {inner next : State}
    (replays : Replays k body inner) (stepped : inner.step false c = .ok next)
    (stays : c = ')' → ∀ t, inner.settle? false = some t → t.enclosing ≠ [])
    (few : next.enclosing.length + (k + 1) ≤ maxDepth) : Replays k (body ++ [c]) next where
  tallied := replays.tallied.step stepped
  seen := by
    rw [(read_of_step stepped).1, replays.seen, List.reverse_append]
    rfl
  run := by
    intro single o start outer depth
    have lifted : Lifts o (.vector start) outer (inner.step false c)
        ((o.within (.vector start) outer inner).step single c) :=
      lifts_step trivial replays.tallied stays
    rw [State.run_append_of_ok (replays.run single o start outer depth)]
    have inside := lifted.forward next stepped (by omega)
    rw [State.run_cons_of_ok inside]
    rfl

theorem Reading.step_outside (holds : s.Holds) (shaped : s.mode.IsShaped) (tallied : s.Tallied)
    (few : s.enclosing.length ≤ maxDepth) (stepped : s.step single c = .ok t) : Reading t := by
  have read {mode : Mode} : (s.read c mode).Holds := ⟨holds.opens, holds.forms⟩
  cases steps_of_step stepped with
  | read shape => exact .outside read (shape shaped)
  | literal content => exact .outside (read.accept few (.str content)) trivial
  | begin settled began =>
    obtain ⟨held, shape⟩ := (holds.settle shaped few settled).begins
      (Nat.le_trans (length_enclosing_settle settled) few) began
    exact .outside held shape
  | quote known entered =>
    obtain ⟨held, shape⟩ := read.enter entered ⟨known, holds.opens⟩
    exact .outside held shape
  | unquote entered began =>
    obtain ⟨waiting, _⟩ := holds.enter entered ⟨by decide, holds.opens⟩
    obtain ⟨held, shape⟩ := waiting.begins (length_enclosing_enter entered) began
    exact .outside held shape
  | vector paren token entered =>
    subst paren
    obtain ⟨_, rfl⟩ := enter_eq_ok entered
    obtain ⟨before, seen⟩ := tallied.text_prefix
    have start : s.count - s.mode.hashText.length = before.length := by
      rw [tallied.count_eq, ← seen, List.length_append]
      omega
    have began : Replays s.enclosing.length [] {} :=
      ⟨⟨rfl, List.nil_prefix⟩, rfl, fun _ _ _ _ _ => rfl⟩
    have opened : (s.read '(' .between).seen =
        '(' :: (s.mode.hashText.reverse.reverse ++ before) := by
      rw [List.reverse_reverse, seen]
      rfl
    have count : (s.read '(' .between).count = (s.read '(' .between).seen.length := by
      simp [State.read, tallied.count_eq]
    rw [start]
    exact .inside read (token shaped) opened count began

theorem Reading.step (reading : Reading s) (tallied : s.Tallied)
    (few : s.enclosing.length ≤ maxDepth) (stepped : s.step single c = .ok t) : Reading t := by
  cases reading with
  | outside holds shaped => exact step_outside holds shaped tallied few stepped
  | @inside o inner outer front body before holds token opened count replays =>
    by_cases closes : c = ')' ∧ ∃ last, inner.settle? false = some last ∧ last.enclosing = []
    · -- The vector ends: its text is a value like any other, wherever it was read.
      obtain ⟨rfl, last, settled, closed⟩ := closes
      obtain ⟨seen, counted, _⟩ := read_of_settle settled
      have start : o.count = before.length + front.length + 1 := by
        rw [count, opened, List.length_cons, List.length_append, List.length_reverse]
        omega
      have tallied : last.count = last.seen.length := by
        rw [counted, seen, replays.tallied.count_eq]
      rw [length_within] at few
      have room : outer.length < maxDepth := by omega
      have sturdy := Sturdy.symbol (spells_vector token room replays settled closed)
      rw [step_within_close (by trivial) single _ _ settled, close_within_vector outer opened start
        tallied (seen.trans replays.seen) closed] at stepped
      rw [← Except.ok.inj stepped]
      exact .outside (State.Holds.accept ⟨holds.opens, holds.forms⟩ (Nat.le_of_lt room) sturdy)
        trivial
    · -- The character stays inside: it is read as the text by itself would be.
      have stays : c = ')' → ∀ t, inner.settle? false = some t → t.enclosing ≠ [] :=
        fun close last settled closed => closes ⟨close, last, settled, closed⟩
      have lifted : Lifts o (.vector before.length) outer (inner.step false c)
          ((o.within (.vector before.length) outer inner).step single c) :=
        lifts_step trivial replays.tallied stays
      obtain ⟨next, own, rfl⟩ := lifted.backward t stepped
      have left := length_enclosing_step few stepped
      rw [length_within] at left
      exact .inside holds token opened count (replays.step own stays left)

theorem Reading.run (reading : Reading s) (tallied : s.Tallied)
    (few : s.enclosing.length ≤ maxDepth) (ran : s.run single cs = .ok t) : Reading t := by
  induction cs generalizing s with
  | nil =>
    obtain rfl := Except.ok.inj ran
    exact reading
  | cons c cs ih =>
    obtain ⟨u, stepped, ran⟩ := State.run_cons ran
    exact ih (reading.step tallied few stepped) (tallied.step stepped)
      (length_enclosing_step few stepped) ran

end Reading

end LispBridge.Reader
