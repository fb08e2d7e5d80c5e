import LispBridge.Datum.Scope
import LispBridge.Proofs.Datum.OnlyForm
import LispBridge.Proofs.Descent.Forms

/-!
What is read is bounded and canonical.

* `Traversal`: a function that goes through a value recursively, and `Traversal.limited`, which does
  so as long as it need not enter too many lists inside each other.
* `printing`, `cursorSearch`: printing and the search for the cursor are traversals.
* `limited_eq_some`, `limited_eq_none`: a traversal goes exactly as deep as the value is nested.
* `read_bounded`: of every text, the values read are canonical and nested no deeper than `maxDepth`,
  and its only form is read if it has one form.
-/

namespace LispBridge.Datum

/-! ### Traversals -/

/-- A function on values that goes through them recursively: what it makes of a list comes from the
elements and what it makes of each of them. -/
structure Traversal (β : Type) where
  atom : Datum → β
  list : List Datum → List β → β
  run : Datum → β
  run_list (ds : List Datum) : run (.list ds) = list ds (ds.map run)
  run_atom (d : Datum) : (∀ ds, d ≠ .list ds) → run d = atom d

section Traversal

variable {β : Type}

/-- A traversal that enters at most so many lists inside each other, and fails if there are more. -/
def Traversal.limited (t : Traversal β) : Nat → Datum → Option β
  | 0, .list _ => none
  | n + 1, .list ds => (ds.mapM (t.limited n)).map (t.list ds)
  | _, d => some (t.atom d)

theorem mapM_eq_some {f : Datum → Option β} {g : Datum → β} {ds : List Datum}
    (each : ∀ d ∈ ds, f d = some (g d)) : ds.mapM f = some (ds.map g) := by
  induction ds with
  | nil => rfl
  | cons d ds ih =>
    obtain ⟨first, others⟩ := List.forall_mem_cons.mp each
    rw [List.mapM_cons, first, ih others]
    rfl

theorem mapM_eq_none {f : Datum → Option β} {d : Datum} {ds : List Datum} (mem : d ∈ ds)
    (none : f d = none) : ds.mapM f = Option.none := by
  induction ds with
  | nil => cases mem
  | cons x ds ih =>
    rw [List.mapM_cons]
    rcases List.mem_cons.mp mem with rfl | mem
    · rw [none]
      rfl
    · rw [ih mem]
      cases f x <;> rfl

theorem Traversal.limited_atom (t : Traversal β) (n : Nat) {d : Datum} (atom : ∀ ds, d ≠ .list ds) :
    t.limited n d = some (t.run d) := by
  rw [t.run_atom d atom]
  cases d with
  | list ds => exact absurd rfl (atom ds)
  | _ => cases n <;> rfl

/-- With as many levels as the value has, a traversal comes to its end. -/
theorem Traversal.limited_eq_some (t : Traversal β) {n : Nat} {d : Datum}
    (shallow : d.nesting ≤ n) : t.limited n d = some (t.run d) := by
  induction n generalizing d with
  | zero =>
    refine t.limited_atom 0 ?_
    rintro ds rfl
    rw [nesting] at shallow
    omega
  | succ n ih =>
    by_cases atom : ∀ ds, d ≠ .list ds
    · exact t.limited_atom _ atom
    · obtain ⟨ds, rfl⟩ : ∃ ds, d = .list ds := by simpa using atom
      have each : ∀ x ∈ ds, t.limited n x = some (t.run x) := by
        rw [nesting] at shallow
        exact fun x mem => ih (nestingOf_le_iff.mp (by omega) x mem)
      rw [Traversal.limited, mapM_eq_some each, t.run_list]
      rfl

/-- With fewer it does not. -/
theorem Traversal.limited_eq_none (t : Traversal β) {n : Nat} {d : Datum} (deep : n < d.nesting) :
    t.limited n d = none := by
  induction n generalizing d with
  | zero =>
    cases d with
    | list ds => rfl
    | _ => cases deep
  | succ n ih =>
    cases d with
    | list ds =>
      rw [nesting] at deep
      obtain ⟨x, mem, deep⟩ := lt_nestingOf_iff.mp (show n < nestingOf ds by omega)
      rw [Traversal.limited, mapM_eq_none mem (ih deep)]
      rfl
    | _ => cases deep

end Traversal

/-! ### Printing and the search for the cursor -/

/-- The text of a list, from what adds the texts of its elements to a text. -/
def printList (style : Style) : List (String → String) → String → String
  | [], acc => acc ++ style.falsehood
  | p :: ps, acc => (ps.foldl (fun acc p => p (acc.push ' ')) (p (acc.push '('))).push ')'

theorem printItemsOnto_eq (style : Style) (acc : String) (ds : List Datum) :
    printItemsOnto style acc ds =
      (ds.map fun d acc => printOnto style acc d).foldl (fun acc p => p (acc.push ' ')) acc := by
  induction ds generalizing acc with
  | nil => rfl
  | cons d ds ih => rw [printItemsOnto, ih, List.map_cons, List.foldl_cons]

/-- Printing: a value stands for what adds its text to a text. -/
def printing (style : Style) : Traversal (String → String) where
  atom d acc := printOnto style acc d
  list _ ps := printList style ps
  run d acc := printOnto style acc d
  run_list ds := by
    funext acc
    cases ds with
    | nil => rw [printOnto, List.map_nil, printList]
    | cons d ds => rw [printOnto, printItemsOnto_eq, List.map_cons, printList]
  run_atom _ _ := rfl

theorem withinItems_eq (depth : Nat) (best : Option Scope) (ds : List Datum) :
    Scope.withinItems depth best ds =
      (ds.map fun d depth => Scope.within depth d).foldl
        (fun best found => Scope.deeper best (found depth)) best := by
  induction ds generalizing best with
  | nil => rfl
  | cons d ds ih => rw [Scope.withinItems, ih, List.map_cons, List.foldl_cons]

/-- The search for the cursor: a value stands for its scope inside a number of lists. -/
def cursorSearch : Traversal (Nat → Option Scope) where
  atom _ _ := none
  list ds found depth :=
    found.foldl (fun best found => Scope.deeper best (found (depth + 1))) (Scope.own ds depth)
  run d depth := Scope.within depth d
  run_list ds := by
    funext depth
    rw [Scope.within, withinItems_eq]
  run_atom d atom := by
    funext depth
    cases d with
    | list ds => exact absurd rfl (atom ds)
    | _ => rfl

/-! ### What is read -/

/-- A canonical value that everything goes through without entering more than `maxDepth` lists
inside each other. -/
structure IsBounded (d : Datum) : Prop where
  canonical : d.IsCanonical
  shallow : d.nesting ≤ maxDepth
  descends {β : Type} (t : Traversal β) : t.limited maxDepth d = some (t.run d)
  prints (style : Style) :
    ((printing style).limited maxDepth d).map (fun onto => onto "") = some (d.print style)
  searches : (cursorSearch.limited maxDepth d).map (fun within => within 0) = some d.scope

theorem Stands.isBounded {d : Datum} (stands : Stands 0 d) : d.IsBounded where
  canonical := stands.canonical
  shallow := stands.shallow
  descends t := t.limited_eq_some stands.shallow
  prints style := congrArg _ ((printing style).limited_eq_some stands.shallow)
  searches := congrArg _ (cursorSearch.limited_eq_some stands.shallow)

section Read

open Descent Reader

variable {text : String} {d : Datum} {ds : List Datum}

theorem stands_of_readAll (accepted : readAll text = .ok ds) : ∀ d ∈ ds, Stands 0 d := by
  have start := ready_start false
  cases readForms_parses (k := 0) [] (List.nil_append text.toList).symm with
  | ok ran holds =>
    obtain ⟨-, more, -, stands, -, same⟩ := holds
    have all : readAll text = .ok more := same {} start rfl
    rw [accepted] at all
    cases all
    exact stands
  | fault failed holds =>
    have all : readAll text = .error _ := holds {} start rfl
    rw [accepted] at all
    cases all

theorem stands_of_read (accepted : read text = .ok d) : Stands 0 d :=
  stands_of_readAll (readAll_of_read accepted) d (List.mem_singleton_self d)

/-- Solid text holds another form, if it can be read. -/
theorem length_forms_lt {front back : List Char} {o : State} (split : text.toList = front ++ back)
    (nonempty : back ≠ []) (solid : Solid back) (ready : Ready false o front 0)
    (closed : o.enclosing = []) (accepted : o.outcome false back = .ok ds) :
    o.forms.length < ds.length := by
  cases readForms_parses (k := 0) [] split with
  | ok ran holds =>
    obtain ⟨-, more, -, -, holdsForm, same⟩ := holds
    obtain rfl := Except.ok.inj (accepted.symm.trans (same o ready closed))
    have positive := List.length_pos_iff.mpr (holdsForm nonempty solid)
    rw [List.length_append, List.length_reverse]
    omega
  | fault failed holds =>
    rw [holds o ready closed] at accepted
    cases accepted

/-- A text with one form in all has it as its only form. -/
theorem read_of_readAll (accepted : readAll text = .ok [d]) : read text = .ok d := by
  have all : State.outcome false {} text.toList = .ok [d] := accepted
  cases read_parses (k := 0) (List.nil_append text.toList).symm with
  | fault failed holds =>
    rw [holds false {} (ready_start false) (by simp)] at all
    cases all
  | ok ran next =>
    rcases next with @⟨gap, skips⟩ | @⟨gap, used, rest, x, skips, takes⟩
    · rw [skips.same false {} rfl, finish_of_closed false rfl rfl] at all
      cases all
    have split : text.toList = ([] ++ gap ++ used) ++ rest := by
      rw [skips.split, List.nil_append, List.append_assoc]
    obtain ⟨gap', rest', skips', -⟩ := skipAtmosphere_behind (k := 0) split
    rw [takes.formed skips skips' (ready_start false) rfl] at all
    rcases rest' with - | ⟨c, r⟩
    · rw [finish_of_closed (o := withForm {} _ x) false rfl rfl] at all
      obtain rfl : x = d := by simpa [withForm] using all
      exact takes.only skips skips' (ready_start true) rfl rfl
    · -- What is left would be a second form.
      have split' : text.toList = ([] ++ (gap ++ used ++ gap')) ++ c :: r := by
        rw [split, skips'.split]
        simp
      have more := length_forms_lt split' (List.cons_ne_nil c r) skips'.solid
        ((ready_start false).withForm _ x) rfl all
      exact absurd more (Nat.lt_irrefl 1)

/-- **What is read is bounded and canonical, whatever the text.** Every value that is read is, by
itself or among all the forms of the text, and a text has a value as its only form exactly if it has
this one form in all. -/
theorem read_bounded (text : String) :
    (∀ d, read text = .ok d → d.IsBounded) ∧
      (∀ ds, readAll text = .ok ds → ∀ d ∈ ds, d.IsBounded) ∧
      ∀ d, readAll text = .ok [d] ↔ read text = .ok d := by
  refine ⟨fun d accepted => (stands_of_read accepted).isBounded,
    fun ds accepted d mem => (stands_of_readAll accepted d mem).isBounded, fun d => ?_⟩
  exact ⟨read_of_readAll, readAll_of_read⟩

/-- The bound is reached, and with one level less the search for the cursor comes to nothing. -/
theorem read_bounded_of_deepest :
    let deep := Datum.inLists (.str "") 512
    read deep.wire = .ok deep ∧ readAll deep.wire = .ok [deep] ∧ deep.IsBounded ∧
      cursorSearch.limited 511 deep = none := by
  intro deep
  have nested : deep.nesting = 512 := nesting_inLists _ 512
  have accepted : read deep.wire = .ok deep :=
    (read_wire (wellFormed_inLists (.str _) 512)).1 (by rw [nesting_inLists]; decide)
  obtain ⟨only, -, same⟩ := read_bounded deep.wire
  exact ⟨accepted, (same deep).mpr accepted, only deep accepted,
    cursorSearch.limited_eq_none (by rw [nested]; decide)⟩

end Read

end LispBridge.Datum
