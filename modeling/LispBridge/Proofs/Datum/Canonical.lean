import LispBridge.Proofs.Datum.Sturdy

/-!
Values in the form in which texts are read.

* `IsCanonical`: no list is empty, and every symbol is what its name is read as.
* `Stands`: a canonical value that may stand inside a number of constructs, with one lemma for each
  way in which the reader makes a value.
-/

namespace LispBridge.Datum

open Reader

/-- A value without empty lists, and without a symbol whose name would be read as `nil`, `t` or a
number. -/
structure IsCanonical (d : Datum) : Prop where
  filled : .list [] ∉ d.parts
  named : ∀ name, .symbol name ∈ d.parts → ofToken name.toList = .symbol name

/-- A canonical value that is nested no deeper than may be inside `k` constructs. -/
structure Stands (k : Nat) (d : Datum) : Prop where
  canonical : d.IsCanonical
  shallow : d.nesting ≤ maxDepth - k

section Stands

variable {k : Nat} {d : Datum} {ds : List Datum} {cs : List Char}

theorem stands_nil : Stands k .nil :=
  ⟨⟨by simp [parts], by simp [parts]⟩, Nat.zero_le _⟩

theorem stands_str (content : String) : Stands k (.str content) :=
  ⟨⟨by simp [parts], by simp [parts]⟩, Nat.zero_le _⟩

theorem stands_symbol {name : String} (named : ofToken name.toList = .symbol name) :
    Stands k (.symbol name) := by
  refine ⟨⟨by simp [parts], ?_⟩, Nat.zero_le _⟩
  intro other mem
  obtain rfl : other = name := by simpa [parts] using mem
  exact named

/-- Whatever a token means, it means the same by itself. -/
theorem stands_ofToken (cs : List Char) : Stands k (ofToken cs) := by
  rcases ofToken_cases cs with value | value | ⟨n, value⟩ | ⟨x, value⟩ | value
  · rw [value]
    exact stands_nil
  · rw [value]
    exact ⟨⟨by simp [parts], by simp [parts]⟩, Nat.zero_le _⟩
  · rw [value]
    exact ⟨⟨by simp [parts], by simp [parts]⟩, Nat.zero_le _⟩
  · rw [value]
    exact ⟨⟨by simp [parts], by simp [parts]⟩, Nat.zero_le _⟩
  · rw [value]
    exact stands_symbol (by rw [String.toList_ofList, value])

/-- A text that starts with `#` is a symbol. -/
theorem ofToken_hash (cs : List Char) :
    ofToken ('#' :: cs) = .symbol (String.ofList ('#' :: cs)) := by
  have folded : ('#' :: cs).map Char.toLower = '#' :: cs.map Char.toLower := rfl
  have notInt : readInt64? ('#' :: cs) = none := by
    simp [readInt64?, takeSign, isDigit]
  have notNumeral : isNumeral ('#' :: cs) = false := by
    simp [isNumeral, isDigit]
  simp [ofToken, folded, notInt, notNumeral]

theorem stands_hash (cs : List Char) : Stands k (.symbol (String.ofList ('#' :: cs))) :=
  stands_symbol (by rw [String.toList_ofList, ofToken_hash])

theorem stands_list (few : k < maxDepth) (nonempty : ds ≠ []) (each : ∀ d ∈ ds, Stands (k + 1) d) :
    Stands k (.list ds) where
  canonical := by
    constructor
    · intro empty
      rcases mem_parts_list_iff.mp empty with same | ⟨x, mem, part⟩
      · exact nonempty (list.inj same).symm
      · exact (each x mem).canonical.filled part
    · intro name part
      rcases mem_parts_list_iff.mp part with same | ⟨x, mem, part⟩
      · cases same
      · exact (each x mem).canonical.named name part
  shallow := by
    have most : nestingOf ds ≤ maxDepth - (k + 1) :=
      nestingOf_le_iff.mpr fun d mem => (each d mem).shallow
    rw [nesting]
    omega

theorem stands_ofItems (few : k < maxDepth) (each : ∀ d ∈ ds, Stands (k + 1) d) :
    Stands k (.ofItems ds) := by
  cases ds with
  | nil => exact stands_nil
  | cons d ds => exact stands_list few (List.cons_ne_nil d ds) each

/-- The form that a prefix stands for counts as a list. -/
theorem stands_prefixed {head : String} (few : k < maxDepth) (known : head ∈ prefixHeads)
    (fits : Stands (k + 1) d) : Stands k (.list [.symbol head, d]) := by
  refine stands_list few (List.cons_ne_nil _ _) (List.forall_mem_cons.mpr ⟨stands_symbol ?_, ?_⟩)
  · simp only [prefixHeads, List.mem_cons, List.not_mem_nil, or_false] at known
    rcases known with rfl | rfl | rfl | rfl | rfl
    all_goals rfl
  · exact List.forall_mem_singleton.mpr fits

end Stands

end LispBridge.Datum
