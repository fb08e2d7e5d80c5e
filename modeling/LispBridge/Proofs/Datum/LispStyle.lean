import LispBridge.Proofs.Datum.Sturdy

/-!
Reading back what is printed in Lisp style.

The Lisp style is the wire style of another value: of the one that has symbols for `t` and `nil`
(`Datum.qualified`). So what holds of the wire style carries over, and the text of a sturdy value is
read back as the value with these symbols (`read_lisp`).
-/

namespace LispBridge.Datum

open Reader

mutual

/-- A value with the symbols `lisp:t` and `lisp:nil` for `t` and `nil`. -/
def qualified : Datum → Datum
  | .nil => .symbol Style.lisp.falsehood
  | .t => .symbol Style.lisp.truth
  | .list [] => .symbol Style.lisp.falsehood
  | .list (d :: ds) => .list (qualified d :: qualifiedItems ds)
  | .int n => .int n
  | .float x => .float x
  | .str s => .str s
  | .symbol name => .symbol name

/-- Values with these symbols. -/
def qualifiedItems : List Datum → List Datum
  | [] => []
  | d :: ds => qualified d :: qualifiedItems ds

end

theorem qualifiedItems_eq (ds : List Datum) : qualifiedItems ds = ds.map qualified := by
  induction ds with
  | nil => rfl
  | cons d ds ih => rw [qualifiedItems, ih, List.map_cons]

theorem qualified_list_cons (d : Datum) (ds : List Datum) :
    qualified (.list (d :: ds)) = .list ((d :: ds).map qualified) := by
  rw [qualified, qualifiedItems_eq, List.map_cons]

/-- The Lisp style is the wire style of the value with these symbols. -/
theorem chars_lisp (d : Datum) : d.chars .lisp = d.qualified.chars .wire := by
  induction d using inductionOn with
  | nil => simp [qualified]
  | t => simp [qualified]
  | int n => simp [qualified]
  | float x => simp [qualified]
  | str s => rw [qualified, chars_str, chars_str]
  | symbol name => simp [qualified]
  | list ds ih =>
    cases ds with
    | nil => simp [qualified, chars, print, printOnto]
    | cons d ds =>
      obtain ⟨first, others⟩ := List.forall_mem_cons.mp ih
      have items : itemChars .lisp ds = itemChars .wire (ds.map qualified) := by
        rw [itemChars, itemChars, List.flatMap_map]
        exact List.flatMap_congr fun x mem => by rw [others x mem]
      rw [qualified_list_cons, List.map_cons, chars_list_cons, chars_list_cons, first, items]

theorem Sturdy.qualified {k : Nat} {d : Datum} (sturdy : Sturdy k d) : Sturdy k d.qualified := by
  have falsehood (k : Nat) : Sturdy k (.symbol Style.lisp.falsehood) :=
    sturdy_plainName ⟨by decide, rfl⟩ k
  induction sturdy with
  | nil => exact falsehood _
  | t => exact sturdy_plainName ⟨by decide, rfl⟩ _
  | int n => exact .int n
  | float x => exact .float x
  | str content => exact .str content
  | symbol spells => exact .symbol spells
  | @list k ds few nonempty _ ih =>
    obtain ⟨d, ds, rfl⟩ := List.exists_cons_of_ne_nil nonempty
    rw [qualified_list_cons]
    refine .list few (List.cons_ne_nil _ _) ?_
    intro x mem
    obtain ⟨y, inside, rfl⟩ := List.mem_map.mp mem
    exact ih y inside

/-- What a value in Lisp style is read back as. -/
def inLisp (d : Datum) : Datum :=
  d.qualified.reread

theorem inLisp_list_cons (d : Datum) (ds : List Datum) :
    inLisp (.list (d :: ds)) = .list ((d :: ds).map inLisp) := by
  rw [inLisp, qualified_list_cons, reread_list, List.map_map]
  rfl

/-- A sturdy value is read back from its text in Lisp style. -/
theorem read_lisp {d : Datum} (sturdy : Sturdy 0 d) : read d.lisp = .ok d.inLisp := by
  have same : d.lisp = d.qualified.wire := String.toList_inj.mp (chars_lisp d)
  rw [same, inLisp]
  exact read_wire_of_readsBack sturdy.qualified.readable

end LispBridge.Datum
