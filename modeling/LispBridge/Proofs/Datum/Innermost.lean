import LispBridge.Datum.Scope
import LispBridge.Proofs.Datum.Sturdy
import Mathlib.Data.List.Induction
import Mathlib.Data.List.Lex

/-!
Which list the search for the cursor finds.

* `at?`: the value at a place in a form, given by the indices that lead to it.
* `MarkedAt`: a list in a form that directly contains the mark, with its place.
* `AtMost`: the order in which such places are preferred, deeper ones first and then later ones.
* `scope_innermost`: the search finds the greatest of them, with the last mark in it.
-/

namespace LispBridge

namespace Datum

/-! ### Places -/

/-- The elements of a list; nothing else has any. -/
def elements : Datum → List Datum
  | .list ds => ds
  | _ => []

/-- The value at a place: the indices lead to it from the outermost list inwards. -/
def at? : List Nat → Datum → Option Datum
  | [], d => some d
  | i :: path, d => d.elements[i]?.bind (at? path)

/-- Whether a value is the mark, in any case. -/
def IsMark (d : Datum) : Prop :=
  d.isSymbol cursorMark = true

instance (d : Datum) : Decidable d.IsMark :=
  inferInstanceAs (Decidable (_ = true))

/-- A list at a place in a form that directly contains the mark. -/
def MarkedAt (d : Datum) (path : List Nat) (ds : List Datum) : Prop :=
  d.at? path = some (.list ds) ∧ ∃ x ∈ ds, x.IsMark

/-- An index at which a list has the mark, and behind which it has none. -/
structure IsLastMark (ds : List Datum) (i : Nat) : Prop where
  here : ∃ x, ds[i]? = some x ∧ x.IsMark
  none_behind : ∀ j x, i < j → ds[j]? = some x → ¬ x.IsMark

end Datum

/-- Whether a place is not preferred to another: it is less deep, or as deep and not behind it in
the text. -/
def Scope.AtMost (path path' : List Nat) : Prop :=
  path.length < path'.length ∨ path.length = path'.length ∧ path ≤ path'

namespace Scope

open Datum

/-! ### The last mark of a list -/

theorem lastMark_concat (i : Nat) (best : Option Nat) (ds : List Datum) (d : Datum) :
    lastMark i best (ds ++ [d]) =
      if d.isSymbol cursorMark then some (i + ds.length) else lastMark i best ds := by
  induction ds generalizing i best with
  | nil => rfl
  | cons d' ds ih => simp [lastMark, ih, Nat.add_assoc, Nat.add_comm 1]

theorem lastMark_eq_none_iff {ds : List Datum} :
    lastMark 0 none ds = none ↔ ∀ x ∈ ds, ¬ x.IsMark := by
  induction ds using List.reverseRecOn with
  | nil => simp [lastMark]
  | append_singleton ds d ih =>
    rw [lastMark_concat]
    by_cases mark : d.isSymbol cursorMark = true
    · simp [mark, IsMark]
    · simp [mark, ih, IsMark, or_imp, forall_and]

theorem isLastMark_of_lastMark {ds : List Datum} {i : Nat} (found : lastMark 0 none ds = some i) :
    IsLastMark ds i := by
  induction ds using List.reverseRecOn generalizing i with
  | nil => cases found
  | append_singleton ds d ih =>
    rw [lastMark_concat] at found
    split at found
    · next mark =>
      obtain rfl : ds.length = i := by simpa using found
      refine ⟨⟨d, by simp, mark⟩, fun j x behind inside => ?_⟩
      rw [List.getElem?_eq_none (by simp; omega)] at inside
      cases inside
    · next other =>
      obtain ⟨⟨x, here, mark⟩, none_behind⟩ := ih found
      obtain ⟨inside, -⟩ := List.getElem?_eq_some_iff.mp here
      refine ⟨⟨x, by rwa [List.getElem?_append_left inside], mark⟩, fun j y behind found' => ?_⟩
      by_cases earlier : j < ds.length
      · rw [List.getElem?_append_left earlier] at found'
        exact none_behind j y behind found'
      · rw [List.getElem?_append_right (Nat.le_of_not_lt earlier)] at found'
        rw [List.mem_singleton.mp (List.mem_of_getElem? found')]
        exact other

theorem eq_of_isLastMark {ds : List Datum} {i j : Nat} (first : IsLastMark ds i)
    (second : IsLastMark ds j) : i = j := by
  obtain ⟨x, here, mark⟩ := first.here
  obtain ⟨y, here', mark'⟩ := second.here
  rcases Nat.lt_trichotomy i j with before | same | behind
  · exact absurd mark' (first.none_behind j y before here')
  · exact same
  · exact absurd mark (second.none_behind i x behind here)

/-! ### The order of places -/

theorem AtMost.length_le {p q : List Nat} (le : AtMost p q) : p.length ≤ q.length := by
  rcases le with less | ⟨same, -⟩
  · exact Nat.le_of_lt less
  · exact Nat.le_of_eq same

theorem AtMost.antisymm {p q : List Nat} (le : AtMost p q) (ge : AtMost q p) : p = q := by
  rcases le with less | ⟨same, le⟩
  · exact absurd less (Nat.not_lt_of_le ge.length_le)
  · rcases ge with less | ⟨-, ge⟩
    · exact absurd less (by omega)
    · exact le_antisymm le ge

theorem AtMost.cons {p q : List Nat} (i : Nat) (le : AtMost p q) : AtMost (i :: p) (i :: q) := by
  rcases le with less | ⟨same, le⟩
  · exact .inl (Nat.succ_lt_succ less)
  · exact .inr ⟨congrArg Nat.succ same, List.cons_le_cons i le⟩

/-! ### The greatest place -/

/-- What is found among some places: nothing if there are none, and else the greatest of them, with
the last mark of its list. The depth of the outermost list is `depth`. -/
def Greatest (places : List Nat → List Datum → Prop) (depth : Nat) : Option Scope → Prop
  | none => ∀ path ds, ¬ places path ds
  | some s => ∃ path, (places path s.items ∧ IsLastMark s.items s.cursor ∧
      s.depth = depth + path.length) ∧ ∀ path' ds, places path' ds → AtMost path' path

section Greatest

variable {P Q : List Nat → List Datum → Prop} {depth : Nat} {a b : Option Scope}

theorem Greatest.congr (greatest : Greatest P depth a) (same : ∀ path ds, Q path ds ↔ P path ds) :
    Greatest Q depth a := by
  obtain rfl : Q = P := funext fun path => funext fun ds => propext (same path ds)
  exact greatest

/-- Of two scopes the deeper one is the greatest, or the latter if they are equally deep, as long as
its places come behind those of the other in the text. -/
theorem Greatest.deeper (first : Greatest P depth a) (second : Greatest Q depth b)
    (order : ∀ p q ds ds', P p ds → Q q ds' → p.length = q.length → p ≤ q) :
    Greatest (fun path ds => P path ds ∨ Q path ds) depth (deeper a b) := by
  cases b with
  | none =>
    have same : Scope.deeper a none = a := by cases a <;> rfl
    rw [same]
    exact first.congr fun path ds => or_iff_left (second path ds)
  | some t =>
    cases a with
    | none => exact second.congr fun path ds => or_iff_right (first path ds)
    | some s =>
      obtain ⟨p, ⟨here, mark, deep⟩, most⟩ := first
      obtain ⟨q, ⟨here', mark', deep'⟩, most'⟩ := second
      simp only [Scope.deeper]
      split
      · next le =>
        refine ⟨q, ⟨.inr here', mark', deep'⟩, ?_⟩
        rintro path ds (early | late)
        · have shallow := (most path ds early).length_le
          by_cases same : path.length = q.length
          · exact .inr ⟨same, order path q ds _ early here' same⟩
          · exact .inl (by omega)
        · exact most' path ds late
      · next gt =>
        refine ⟨p, ⟨.inl here, mark, deep⟩, ?_⟩
        rintro path ds (early | late)
        · exact most path ds early
        · have shallow := (most' path ds late).length_le
          exact .inl (by omega)

/-- The places in an element, as places in the list. -/
theorem Greatest.inElement (greatest : Greatest P (depth + 1) a) (i : Nat) :
    Greatest (fun path ds => ∃ p, path = i :: p ∧ P p ds) depth a := by
  cases a with
  | none =>
    rintro path ds ⟨p, -, place⟩
    exact greatest p ds place
  | some s =>
    obtain ⟨p, ⟨here, mark, deep⟩, most⟩ := greatest
    refine ⟨i :: p, ⟨⟨p, rfl, here⟩, mark, ?_⟩, ?_⟩
    · rw [deep, List.length_cons]
      omega
    · rintro path ds ⟨q, rfl, place⟩
      exact (most q ds place).cons i

end Greatest

/-! ### The search -/

/-- The places in a list of which the elements in front have been searched: its own, and those in
these elements. -/
def Searched (whole front : List Datum) (path : List Nat) (ds : List Datum) : Prop :=
  (path = [] ∧ ds = whole ∧ ∃ x ∈ whole, x.IsMark) ∨
    ∃ i x p, path = i :: p ∧ front[i]? = some x ∧ x.MarkedAt p ds

theorem greatest_own (whole : List Datum) (depth : Nat) :
    Greatest (Searched whole []) depth (own whole depth) := by
  cases found : lastMark 0 none whole with
  | none =>
    rw [own, found]
    rintro path ds (⟨-, -, x, mem, mark⟩ | ⟨i, x, p, -, inside, -⟩)
    · exact lastMark_eq_none_iff.mp found x mem mark
    · cases inside
  | some cursor =>
    have last := isLastMark_of_lastMark found
    obtain ⟨x, here, mark⟩ := last.here
    rw [own, found]
    refine ⟨[], ⟨.inl ⟨rfl, rfl, x, List.mem_of_getElem? here, mark⟩, last, rfl⟩, ?_⟩
    rintro path ds (⟨rfl, -⟩ | ⟨i, x, p, -, inside, -⟩)
    · exact .inr ⟨rfl, le_refl _⟩
    · cases inside

theorem searched_concat {whole front : List Datum} {d : Datum} {path : List Nat}
    {ds : List Datum} :
    Searched whole (front ++ [d]) path ds ↔
      Searched whole front path ds ∨ ∃ p, path = front.length :: p ∧ d.MarkedAt p ds := by
  unfold Searched
  constructor
  · rintro (own | ⟨i, x, p, rfl, inside, place⟩)
    · exact .inl (.inl own)
    · by_cases earlier : i < front.length
      · rw [List.getElem?_append_left earlier] at inside
        exact .inl (.inr ⟨i, x, p, rfl, inside, place⟩)
      · rw [List.getElem?_append_right (Nat.le_of_not_lt earlier)] at inside
        obtain ⟨last, -⟩ := List.getElem?_eq_some_iff.mp inside
        have here : i = front.length := by
          rw [List.length_singleton] at last
          omega
        subst here
        obtain rfl : d = x := by simpa using inside
        exact .inr ⟨p, rfl, place⟩
  · rintro ((own | ⟨i, x, p, rfl, inside, place⟩) | ⟨p, rfl, place⟩)
    · exact .inl own
    · obtain ⟨earlier, -⟩ := List.getElem?_eq_some_iff.mp inside
      exact .inr ⟨i, x, p, rfl, by rwa [List.getElem?_append_left earlier], place⟩
    · exact .inr ⟨front.length, d, p, rfl, by simp, place⟩

/-- The search goes on with the elements that are left. -/
theorem greatest_withinItems {whole : List Datum} {depth : Nat} {ds : List Datum}
    (each : ∀ x ∈ ds, Greatest x.MarkedAt (depth + 1) (within (depth + 1) x)) :
    ∀ {front : List Datum} {best : Option Scope}, Greatest (Searched whole front) depth best →
      Greatest (Searched whole (front ++ ds)) depth (withinItems (depth + 1) best ds) := by
  induction ds with
  | nil =>
    intro front best sofar
    rwa [List.append_nil]
  | cons d ds ih =>
    intro front best sofar
    obtain ⟨first, others⟩ := List.forall_mem_cons.mp each
    have next : Greatest (Searched whole (front ++ [d])) depth
        (deeper best (within (depth + 1) d)) := by
      refine (sofar.deeper (first.inElement front.length) ?_).congr fun _ _ => searched_concat
      -- Elements are searched from first to last, so what is found in one comes behind the rest.
      rintro p q ds ds' early ⟨q, rfl, -⟩ same
      rcases early with ⟨rfl, -⟩ | ⟨i, x, p, rfl, inside, -⟩
      · cases same
      · obtain ⟨earlier, -⟩ := List.getElem?_eq_some_iff.mp inside
        exact le_of_lt (List.Lex.rel earlier)
    rw [withinItems]
    simpa using ih others next

end Scope

namespace Datum

open Scope

theorem not_markedAt {d : Datum} (atom : ∀ ds, d ≠ .list ds) (path : List Nat) (ds : List Datum) :
    ¬ d.MarkedAt path ds := by
  rintro ⟨found, -⟩
  cases path with
  | nil => exact atom ds (Option.some.inj found)
  | cons i path =>
    have none : d.elements = [] := by
      cases d with
      | list ds => exact absurd rfl (atom ds)
      | _ => rfl
    rw [at?, none] at found
    cases found

theorem markedAt_list {whole : List Datum} {path : List Nat} {ds : List Datum} :
    MarkedAt (.list whole) path ds ↔ Searched whole whole path ds := by
  unfold MarkedAt Searched
  cases path with
  | nil =>
    simp only [at?, Option.some.injEq, list.injEq, true_and, reduceCtorEq, false_and,
      exists_false, or_false]
    constructor
    · rintro ⟨rfl, marked⟩
      exact ⟨rfl, marked⟩
    · rintro ⟨rfl, marked⟩
      exact ⟨rfl, marked⟩
  | cons i path =>
    simp only [at?, elements, Option.bind_eq_some_iff, reduceCtorEq, false_and, false_or,
      List.cons.injEq]
    constructor
    · rintro ⟨⟨x, inside, found⟩, marked⟩
      exact ⟨i, x, path, ⟨rfl, rfl⟩, inside, found, marked⟩
    · rintro ⟨i, x, path, ⟨rfl, rfl⟩, inside, found, marked⟩
      exact ⟨⟨x, inside, found⟩, marked⟩

theorem greatest_within (d : Datum) (depth : Nat) :
    Greatest d.MarkedAt depth (within depth d) := by
  induction d using inductionOn generalizing depth with
  | list ds ih =>
    have own := greatest_own ds depth
    have whole := greatest_withinItems (fun x mem => ih x mem (depth + 1)) own
    exact whole.congr fun _ _ => markedAt_list
  | _ => exact not_markedAt (by simp)

/-! ### What is inherited -/

section Inheritance

variable {P : Nat → Datum → Prop} {k : Nat} {d : Datum}

/-- What the elements of a list inherit from it holds at every place. -/
theorem holds_at? (inherited : ∀ k ds, P k (.list ds) → ∀ x ∈ ds, P (k + 1) x) (holds : P k d)
    {path : List Nat} {x : Datum} (found : d.at? path = some x) : P (k + path.length) x := by
  induction path generalizing k d with
  | nil =>
    obtain rfl := Option.some.inj found
    exact holds
  | cons i path ih =>
    rw [Datum.at?] at found
    obtain ⟨y, inside, there⟩ := Option.bind_eq_some_iff.mp found
    cases d with
    | list ds =>
      have deeper := ih (inherited k ds holds y (List.mem_of_getElem? inside)) there
      rw [List.length_cons]
      rwa [Nat.add_assoc, Nat.add_comm 1] at deeper
    | _ => cases inside

/-- So it holds of what is in the scope. -/
theorem holds_in_scope (inherited : ∀ k ds, P k (.list ds) → ∀ x ∈ ds, P (k + 1) x)
    (holds : P k d) {s : Scope} (found : d.scope = some s) :
    ∃ depth, k ≤ depth ∧ P depth (.list s.items) := by
  have greatest := d.greatest_within 0
  rw [show within 0 d = d.scope from rfl, found] at greatest
  obtain ⟨path, ⟨marked, -⟩, -⟩ := greatest
  exact ⟨_, Nat.le_add_right k path.length, holds_at? inherited holds marked.1⟩

end Inheritance

/-- **The search finds the innermost list that holds the mark.** It finds nothing exactly if no list
in the form, the form itself included, directly contains the mark. What it finds is a list that
directly contains the mark, of the greatest depth of all such lists, and the last in the text among
those of this depth, with the index of the last mark in it. -/
theorem scope_innermost (d : Datum) :
    (d.scope = none ↔ ∀ path ds, ¬ d.MarkedAt path ds) ∧
      ∀ s, d.scope = some s ↔ ∃ path, d.MarkedAt path s.items ∧ IsLastMark s.items s.cursor ∧
        s.depth = path.length ∧ ∀ path' ds, d.MarkedAt path' ds → AtMost path' path := by
  have greatest := d.greatest_within 0
  rw [show within 0 d = d.scope from rfl] at greatest
  cases found : d.scope with
  | none =>
    rw [found] at greatest
    refine ⟨iff_of_true rfl greatest, fun s => iff_of_false nofun ?_⟩
    rintro ⟨path, marked, -⟩
    exact greatest path _ marked
  | some s =>
    rw [found] at greatest
    obtain ⟨path, ⟨marked, last, deep⟩, most⟩ := greatest
    rw [Nat.zero_add] at deep
    refine ⟨iff_of_false nofun fun none => none path _ marked, fun t => ?_⟩
    constructor
    · rintro ⟨⟩
      exact ⟨path, marked, last, deep, most⟩
    · rintro ⟨path', marked', last', deep', most'⟩
      obtain rfl := (most _ _ marked').antisymm (most' _ _ marked)
      have items : t.items = s.items := by
        have same := marked'.1.symm.trans marked.1
        simpa using same
      rw [items] at last'
      have cursor := eq_of_isLastMark last' last
      cases s
      cases t
      simp_all

/-- Two lists are equally deep here, and the outer list has a mark as well: the latter of the two
lists is the scope, with the latter of its marks. -/
example :
    let mark := symbol "SWANK::%cursor-marker%"
    let first := list [symbol "f", mark]
    let second := list [symbol "g", mark, int 1, mark]
    (list [mark, first, second, mark]).scope = some ⟨[symbol "g", mark, int 1, mark], 3, 1⟩ := by
  decide +kernel

end Datum

end LispBridge
