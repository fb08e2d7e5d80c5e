import LispBridge.Text.Search

/-!
What a search for a separator finds.

* `exists_of_firstIndex?`, `not_infix_of_firstIndex?`: the first occurrence, or that there is none.
* `beforeFirst_cases`, `beforeLast_cases`: the text in front of the first occurrence, or of the last
  one. Occurrences may overlap.
-/

namespace LispBridge.Text

variable {sep cs : List Char} {i n : Nat}

/-- The text at the index that is found, and why it is the first. -/
theorem exists_of_firstIndexFrom (found : firstIndexFrom sep i cs = some n) :
    ∃ front back, cs = front ++ sep ++ back ∧ n = i + front.length ∧
      ∀ front' back', cs = front' ++ sep ++ back' → front.length ≤ front'.length := by
  induction cs generalizing i with
  | nil =>
    rw [firstIndexFrom] at found
    split at found
    · next here =>
      obtain ⟨back, text⟩ := List.isPrefixOf_iff_prefix.mp here
      exact ⟨[], back, text.symm, (Option.some.inj found).symm, fun _ _ _ => Nat.zero_le _⟩
    · cases found
  | cons c cs ih =>
    rw [firstIndexFrom] at found
    split at found
    · next here =>
      obtain ⟨back, text⟩ := List.isPrefixOf_iff_prefix.mp here
      exact ⟨[], back, text.symm, (Option.some.inj found).symm, fun _ _ _ => Nat.zero_le _⟩
    · next notHere =>
      obtain ⟨front, back, rfl, index, first⟩ := ih found
      refine ⟨c :: front, back, rfl, by rw [index, List.length_cons]; omega, ?_⟩
      intro front' back' text
      cases front' with
      | nil => exact absurd (List.isPrefixOf_iff_prefix.mpr ⟨back', text.symm⟩) notHere
      | cons d front' =>
        exact Nat.succ_le_succ (first front' back' (List.cons.inj text).2)

theorem not_infix_nil (notHere : ¬ sep.isPrefixOf [] = true) : ¬ sep <:+: [] := by
  intro found
  exact notHere (by simp [List.infix_nil.mp found])

theorem not_infix_cons {c : Char} (notHere : ¬ sep.isPrefixOf (c :: cs) = true)
    (notLater : ¬ sep <:+: cs) : ¬ sep <:+: c :: cs := by
  intro found
  rcases List.infix_cons_iff.mp found with here | later
  · exact notHere (List.isPrefixOf_iff_prefix.mpr here)
  · exact notLater later

theorem not_infix_of_firstIndexFrom (none : firstIndexFrom sep i cs = none) : ¬ sep <:+: cs := by
  induction cs generalizing i with
  | nil =>
    rw [firstIndexFrom] at none
    split at none
    · cases none
    · next notHere => exact not_infix_nil notHere
  | cons c cs ih =>
    rw [firstIndexFrom] at none
    split at none
    · cases none
    · next notHere => exact not_infix_cons notHere (ih none)

/-- In front of the index that is found, the separator does not occur. -/
theorem exists_of_firstIndex? (nonempty : sep ≠ []) (found : firstIndex? sep cs = some n) :
    ∃ back, cs = cs.take n ++ sep ++ back ∧ ¬ sep <:+: cs.take n := by
  obtain ⟨front, back, text, index, first⟩ := exists_of_firstIndexFrom found
  have length : n = front.length := by rw [index, Nat.zero_add]
  have own : cs.take n = front := by rw [text, length, List.append_assoc, List.take_left]
  refine ⟨back, by rw [own]; exact text, ?_⟩
  rw [own]
  rintro ⟨front', between, split⟩
  have least := first front' (between ++ sep ++ back) (by simp [text, ← split])
  have positive := List.length_pos_iff.mpr nonempty
  rw [← split, List.length_append, List.length_append] at least
  omega

theorem not_infix_of_firstIndex? (none : firstIndex? sep cs = none) : ¬ sep <:+: cs :=
  not_infix_of_firstIndexFrom none

/-- A search for the last occurrence keeps what was found before if there is none. -/
theorem lastIndexFrom_cases (sep : List Char) (i : Nat) (best : Option Nat) (cs : List Char) :
    (¬ sep <:+: cs ∧ lastIndexFrom sep i best cs = best) ∨
      ∃ front back, cs = front ++ sep ++ back ∧
        lastIndexFrom sep i best cs = some (i + front.length) ∧
        ∀ front' back', cs = front' ++ sep ++ back' → front'.length ≤ front.length := by
  induction cs generalizing i best with
  | nil =>
    rw [lastIndexFrom]
    split
    · next here =>
      obtain ⟨back, text⟩ := List.isPrefixOf_iff_prefix.mp here
      refine .inr ⟨[], back, text.symm, rfl, fun front' back' split => ?_⟩
      have short := congrArg List.length split
      rw [List.length_nil, List.length_append, List.length_append] at short
      omega
    · next notHere => exact .inl ⟨not_infix_nil notHere, rfl⟩
  | cons c cs ih =>
    rw [lastIndexFrom]
    have later := ih (i + 1) (if sep.isPrefixOf (c :: cs) then some i else best)
    rcases later with ⟨notLater, kept⟩ | ⟨front, back, rfl, found, last⟩
    · rw [kept]
      split
      · next here =>
        obtain ⟨back, text⟩ := List.isPrefixOf_iff_prefix.mp here
        refine .inr ⟨[], back, text.symm, rfl, fun front' back' split => ?_⟩
        cases front' with
        | nil => exact Nat.le_refl 0
        | cons d front' => exact absurd ⟨front', back', (List.cons.inj split).2.symm⟩ notLater
      · next notHere => exact .inl ⟨not_infix_cons notHere notLater, rfl⟩
    · refine .inr ⟨c :: front, back, rfl, by rw [found, List.length_cons]; congr 1; omega, ?_⟩
      intro front' back' split
      cases front' with
      | nil => exact Nat.zero_le _
      | cons d front' => exact Nat.succ_le_succ (last front' back' (List.cons.inj split).2)

/-! ### In front of an occurrence -/

theorem beforeFirst_cases (sep cs : List Char) :
    (¬ sep <:+: cs ∧ beforeFirst sep cs = cs) ∨
      ∃ back, cs = beforeFirst sep cs ++ sep ++ back ∧
        ∀ front' back', cs = front' ++ sep ++ back' →
          (beforeFirst sep cs).length ≤ front'.length := by
  rw [beforeFirst]
  cases found : firstIndex? sep cs with
  | none => exact .inl ⟨not_infix_of_firstIndex? found, rfl⟩
  | some n =>
    obtain ⟨front, back, text, index, first⟩ := exists_of_firstIndexFrom found
    have own : cs.take n = front := by
      rw [text, index, Nat.zero_add, List.append_assoc, List.take_left]
    simp only [own]
    exact .inr ⟨back, text, first⟩

theorem beforeLast_cases (sep cs : List Char) :
    (¬ sep <:+: cs ∧ beforeLast sep cs = cs) ∨
      ∃ back, cs = beforeLast sep cs ++ sep ++ back ∧
        ∀ front' back', cs = front' ++ sep ++ back' →
          front'.length ≤ (beforeLast sep cs).length := by
  rw [beforeLast, lastIndex?]
  rcases lastIndexFrom_cases sep 0 none cs with ⟨never, found⟩ | ⟨front, back, text, found, last⟩
  · rw [found]
    exact .inl ⟨never, rfl⟩
  · have own : cs.take (0 + front.length) = front := by
      rw [text, Nat.zero_add, List.append_assoc, List.take_left]
    simp only [found, own]
    exact .inr ⟨back, text, last⟩

end LispBridge.Text
