import LispBridge.Proofs.Datum.Embedding
import LispBridge.Proofs.Datum.RoundTrip

/-!
Values that are read back from their text as far as their numbers allow.

* `parts`: everything in a value, with an induction over values (`inductionOn`).
* `reread_eq_self_iff`: which values are read back as themselves.
* `Sturdy`: a value all of whose texts are read back inside a given number of constructs.
* `Replays`, `spells_vector`: the text of a vector is a vector wherever it is read.
-/

namespace LispBridge.Datum

open Reader

/-! ### Parts of a value -/

mutual

/-- A value and everything in it. -/
def parts : Datum → List Datum
  | .list ds => .list ds :: partsOf ds
  | .nil => [.nil]
  | .t => [.t]
  | .int n => [.int n]
  | .float x => [.float x]
  | .str s => [.str s]
  | .symbol name => [.symbol name]

/-- Some values and everything in them. -/
def partsOf : List Datum → List Datum
  | [] => []
  | d :: ds => parts d ++ partsOf ds

end

theorem mem_partsOf_iff {d : Datum} {ds : List Datum} :
    d ∈ partsOf ds ↔ ∃ x ∈ ds, d ∈ x.parts := by
  induction ds with
  | nil => simp [partsOf]
  | cons x ds ih => simp [partsOf, ih]

theorem mem_parts_list_iff {d : Datum} {ds : List Datum} :
    d ∈ parts (.list ds) ↔ d = .list ds ∨ ∃ x ∈ ds, d ∈ x.parts := by
  rw [parts, List.mem_cons, mem_partsOf_iff]

/-- What holds of a list as soon as it holds of its elements holds of every value. -/
@[elab_as_elim]
theorem inductionOn {motive : Datum → Prop} (d : Datum) (nil : motive .nil) (t : motive .t)
    (int : ∀ n, motive (.int n)) (float : ∀ x, motive (.float x)) (str : ∀ s, motive (.str s))
    (symbol : ∀ name, motive (.symbol name))
    (list : ∀ ds, (∀ d ∈ ds, motive d) → motive (.list ds)) : motive d :=
  @Datum.rec motive (fun ds => ∀ d ∈ ds, motive d) nil t int float str symbol list
    (fun _ mem => nomatch mem) (fun _ _ first others => List.forall_mem_cons.mpr ⟨first, others⟩) d

/-- Without empty lists, a value is read back as itself if all its numbers are finite. -/
theorem reread_eq_self_iff {d : Datum} (filled : .list [] ∉ d.parts) :
    d.reread = d ↔ ∀ x, .float x ∈ d.parts → x.IsFinite := by
  induction d using inductionOn with
  | nil => simp [reread, parts]
  | t => simp [reread, parts]
  | int n => simp [reread, parts]
  | str s => simp [reread, parts]
  | symbol name => simp [reread, parts]
  | float x =>
    rw [reread]
    split
    · next finite => simp [parts, finite]
    · next infinite => simp [parts, infinite]
  | list ds ih =>
    obtain ⟨some, rest⟩ := not_or.mp (mt mem_parts_list_iff.mpr filled)
    have each : ∀ d ∈ ds, d.reread = d ↔ ∀ x, .float x ∈ d.parts → x.IsFinite :=
      fun d mem => ih d mem fun empty => rest ⟨d, mem, empty⟩
    have nonempty : ds ≠ [] := by
      rintro rfl
      exact some rfl
    obtain ⟨first, others, rfl⟩ := List.exists_cons_of_ne_nil nonempty
    have whole : reread (.list (first :: others)) = .list ((first :: others).map reread) :=
      reread_list _
    rw [whole, list.injEq]
    constructor
    · intro same x mem
      rcases mem_parts_list_iff.mp mem with eq | ⟨d, mem, part⟩
      · cases eq
      · refine (each d mem).mp ?_ x part
        exact List.map_inj_left.mp (same.trans (List.map_id _).symm) d mem
    · intro finite
      refine (List.map_congr_left fun d mem => ?_).trans (List.map_id _)
      exact (each d mem).mpr fun x part => finite x (mem_parts_list_iff.mpr (.inr ⟨d, mem, part⟩))

/-! ### Sturdy values -/

/-- A value all of whose texts are read back where they stand, if `k` constructs are open around the
value: its symbols are the values of their names, and its lists have elements and are not nested
too deep. -/
inductive Sturdy : Nat → Datum → Prop
  | nil {k : Nat} : Sturdy k .nil
  | t {k : Nat} : Sturdy k .t
  | int {k : Nat} (n : Int64) : Sturdy k (.int n)
  | float {k : Nat} (x : Binary64) : Sturdy k (.float x)
  | str {k : Nat} (content : String) : Sturdy k (.str content)
  | symbol {k : Nat} {cs : List Char} (spells : Spells k cs (.symbol (String.ofList cs))) :
      Sturdy k (.symbol (String.ofList cs))
  | list {k : Nat} {ds : List Datum} (few : k < maxDepth) (nonempty : ds ≠ [])
      (elements : ∀ d ∈ ds, Sturdy (k + 1) d) : Sturdy k (.list ds)

theorem Sturdy.readable {k : Nat} {d : Datum} (sturdy : Sturdy k d) : ReadsBack k d := by
  induction sturdy with
  | nil => exact readsBack_nil _
  | t => exact readsBack_t _
  | int n => exact readsBack_int n _
  | float x => exact readsBack_float x _
  | str content => exact readsBack_str content _
  | symbol spells => exact readsBack_symbol spells
  | list few _ _ ih => exact readsBack_list few ih

theorem Sturdy.filled {k : Nat} {d : Datum} (sturdy : Sturdy k d) : .list [] ∉ d.parts := by
  induction sturdy with
  | list _ nonempty _ ih =>
    intro empty
    rcases mem_parts_list_iff.mp empty with same | ⟨x, mem, part⟩
    · exact nonempty (list.inj same).symm
    · exact ih x mem part
  | _ => simp [parts]

/-- A value is read back in fewer constructs as well. -/
theorem Sturdy.mono {k l : Nat} {d : Datum} (sturdy : Sturdy k d) (le : l ≤ k) : Sturdy l d := by
  induction sturdy generalizing l with
  | nil => exact .nil
  | t => exact .t
  | int n => exact .int n
  | float x => exact .float x
  | str content => exact .str content
  | symbol spells => exact .symbol (spells.mono le)
  | list few nonempty _ ih =>
    exact .list (Nat.lt_of_le_of_lt le few) nonempty fun d mem => ih d mem (Nat.succ_le_succ le)

/-- A token is an atom, and if it is a symbol, one of its own text. -/
theorem ofToken_cases (cs : List Char) :
    ofToken cs = .nil ∨ ofToken cs = .t ∨ (∃ n, ofToken cs = .int n) ∨
      (∃ x, ofToken cs = .float x) ∨ ofToken cs = .symbol (String.ofList cs) := by
  rw [ofToken]
  by_cases isNil : cs.map Char.toLower = ['n', 'i', 'l']
  · exact .inl (if_pos isNil)
  by_cases isT : cs.map Char.toLower = ['t']
  · exact .inr (.inl (by rw [if_neg isNil, if_pos isT]))
  simp only [isNil, isT, if_false]
  split
  · exact .inr (.inr (.inl ⟨_, rfl⟩))
  split
  · exact .inr (.inr (.inr (.inl ⟨_, rfl⟩)))
  · exact .inr (.inr (.inr (.inr rfl)))

theorem sturdy_ofToken {cs : List Char} (token : IsToken cs) (k : Nat) : Sturdy k (ofToken cs) := by
  have spells := spells_token token k
  rcases ofToken_cases cs with value | value | ⟨n, value⟩ | ⟨x, value⟩ | value
  · rw [value]
    exact .nil
  · rw [value]
    exact .t
  · rw [value]
    exact .int n
  · rw [value]
    exact .float x
  · rw [value] at spells ⊢
    exact .symbol spells

theorem sturdy_list {ds : List Datum} {k : Nat} (few : k < maxDepth)
    (sturdy : ∀ d ∈ ds, Sturdy (k + 1) d) : Sturdy k (.ofItems ds) := by
  cases ds with
  | nil => exact .nil
  | cons d ds => exact .list few (List.cons_ne_nil d ds) sturdy

theorem sturdy_plainName {name : String} (plain : IsPlainName name) (k : Nat) :
    Sturdy k (.symbol name) := by
  have sturdy := sturdy_ofToken plain.token k
  rwa [plain.symbol] at sturdy

theorem sturdy_prefixHead {head : String} (known : head ∈ prefixHeads) (k : Nat) :
    Sturdy k (.symbol head) := by
  have plain : IsPlainName head := by
    simp only [prefixHeads, List.mem_cons, List.not_mem_nil, or_false] at known
    rcases known with rfl | rfl | rfl | rfl | rfl
    all_goals exact ⟨by decide, rfl⟩
  exact sturdy_plainName plain k

end LispBridge.Datum

namespace LispBridge.Reader

open Datum

/-! ### Vectors -/

theorem textFrom_eq {s : State} {cs before : List Char} {start : Nat}
    (seen : s.seen = cs.reverse ++ before) (count : s.count = start + cs.length) :
    s.textFrom start = .symbol (String.ofList cs) := by
  have own : s.count - start = cs.reverse.length := by
    rw [count, List.length_reverse]
    omega
  rw [State.textFrom, own, seen, List.take_left, List.reverse_reverse]

/-- A text inside a vector that is read the same in every vector, as `inner` when it is read by
itself, as long as no more than `k` constructs are open around the vector. -/
structure Replays (k : Nat) (body : List Char) (inner : State) : Prop where
  tallied : inner.Tallied
  seen : inner.seen = body.reverse
  run (single : Bool) (o : State) (start : Nat) (outer : List Open) :
    outer.length ≤ k →
      (o.within (.vector start) outer {}).run single body =
        .ok (o.within (.vector start) outer inner)

/-- The text of a vector with a prefix and a body. -/
def vectorText (front body : List Char) : List Char :=
  front ++ '(' :: (body ++ [')'])

/-- A parenthesis behind a token that starts with `#` opens a vector. -/
theorem step_open_vector {front : List Char} {single : Bool} {o : State} {mode : Mode}
    (shape : mode = .hash ∧ front = ['#'] ∨ mode = .hashToken front.reverse)
    (room : o.isFull single = false) (few : o.enclosing.length < maxDepth) :
    ({ o.passed front with mode } : State).step single '(' =
      .ok (((o.passed front).read '(' .between).within (.vector o.count) o.enclosing {}) := by
  have entered :
      (({ o.passed front with mode } : State).read '(' .between).enter (.vector o.count) =
        .ok (((o.passed front).read '(' .between).within (.vector o.count) o.enclosing {}) :=
    if_pos few
  rw [← entered]
  rcases shape with ⟨rfl, rfl⟩ | rfl
  · have roomy : ({ o.passed ['#'] with mode := .hash } : State).isFull single = false := room
    simp only [State.step, roomy, Bool.false_eq_true, if_false, State.hashToken]
    rfl
  · have start : (o.passed front).count - front.reverse.length = o.count := by
      simp [State.passed]
    simp only [State.step, State.hashToken, if_true, start]

/-- The parenthesis that closes a vector accepts its text, which begins behind `before`. -/
theorem close_within_vector {front body before : List Char} {o last : State} {start : Nat}
    (outer : List Open) (opened : o.seen = '(' :: (front.reverse ++ before))
    (count : o.count = start + front.length + 1) (tallied : last.count = last.seen.length)
    (seen : last.seen = body.reverse) (closed : last.enclosing = []) :
    (o.within (.vector start) outer last).close ')' =
      .ok (({ seen := (vectorText front body).reverse ++ before
              count := start + (vectorText front body).length
              enclosing := outer
              forms := o.forms } : State).accept
        (.symbol (String.ofList (vectorText front body)))) := by
  have length : o.count + body.length + 1 = start + (vectorText front body).length := by
    simp only [vectorText, List.length_append, List.length_cons, List.length_nil, count]
    omega
  have text : ')' :: (body.reverse ++ o.seen) = (vectorText front body).reverse ++ before := by
    simp [vectorText, opened]
  rw [seen, List.length_reverse] at tallied
  simp only [State.close, State.within, State.read, closed, List.map_nil, List.nil_append,
    Open.holding, seen, tallied, length, text]
  rw [textFrom_eq rfl rfl]

/-- The text of a vector is a vector wherever it is read. -/
theorem spells_vector {front body : List Char} {inner last : State} {k : Nat}
    (token : IsHashToken front) (few : k < maxDepth) (replays : Replays k body inner)
    (settled : inner.settle? false = some last) (closed : last.enclosing = []) :
    Spells k (vectorText front body) (.symbol (String.ofList (vectorText front body))) := by
  intro single o between depth room
  obtain ⟨mode, ran, shape⟩ := run_hashToken token between room
  obtain ⟨seen, count, _⟩ := read_of_settle settled
  have tallied : last.count = last.seen.length := by
    rw [count, seen, replays.tallied.count_eq]
  have opened := step_open_vector shape room (Nat.lt_of_le_of_lt depth few)
  have inside := replays.run single ((o.passed front).read '(' .between) o.count o.enclosing depth
  have ended :
      (((o.passed front).read '(' .between).within (.vector o.count) o.enclosing inner).step single
        ')' = .ok ((o.passed (vectorText front body)).accept
          (.symbol (String.ofList (vectorText front body)))) := by
    rw [step_within_close (by trivial) single _ _ settled, close_within_vector o.enclosing rfl rfl
      tallied (seen.trans replays.seen) closed]
    rfl
  refine State.yields_of_run ?_ rfl
  rw [vectorText, State.run_append_of_ok ran, State.run_cons_of_ok opened,
    State.run_append_of_ok inside, State.run_cons_of_ok ended]
  rfl

end LispBridge.Reader
