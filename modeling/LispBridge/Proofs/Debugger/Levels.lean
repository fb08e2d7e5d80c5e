import LispBridge.Debugger

/-!
Debugger levels: what entering and leaving a level does to the stack.
-/

namespace LispBridge

namespace Debugger

variable {d d' : Debugger} {number index : Nat} {r : Resolution}

/-- Leaving a level splits the stack at it: the levels above go, those below go as well or stay. -/
theorem resolve_eq_some (resolved : d.resolve number index = some (r, d')) :
    ∃ rest above, d.levels = rest ++ r.level :: above ∧ number = rest.length + 1 ∧
      r.number = number ∧ r.action = r.level.restartAt? index ∧
      r.above = innermostFirst above (number + 1) ∧
      (r.action.any Restart.clearsStack = true ∧ r.below = innermostFirst rest 1 ∧
          d'.levels = [] ∨
        r.action.any Restart.clearsStack = false ∧ r.below = [] ∧ d'.levels = rest) := by
  unfold resolve at resolved
  split at resolved
  · simp at resolved
  rename_i positive
  split at resolved
  · simp at resolved
  rename_i level above dropped
  have split : d.levels = d.levels.take (number - 1) ++ level :: above := by
    rw [← dropped, List.take_append_drop]
  have inside : number - 1 < d.levels.length := by
    have lengths := congrArg List.length dropped
    simp only [List.length_drop, List.length_cons] at lengths
    omega
  have length : number = (d.levels.take (number - 1)).length + 1 := by
    rw [List.length_take]
    omega
  simp only [Option.some.injEq, Prod.mk.injEq] at resolved
  obtain ⟨rfl, rfl⟩ := resolved
  refine ⟨_, above, split, length, rfl, rfl, rfl, ?_⟩
  cases clears : (level.restartAt? index).any Restart.clearsStack with
  | true => exact .inl ⟨rfl, rfl, rfl⟩
  | false => exact .inr ⟨rfl, rfl, rfl⟩

/-- An active level is left with the levels above it, and with those below if the restart clears the
stack. -/
theorem resolve_of_level? {level : Level} (active : d.level? number = some level) (index : Nat) :
    d.resolve number index = some
      ({ number, level
         action := level.restartAt? index
         above := innermostFirst (d.levels.drop number) (number + 1)
         below := if (level.restartAt? index).any Restart.clearsStack then
           innermostFirst (d.levels.take (number - 1)) 1 else [] },
       ⟨if (level.restartAt? index).any Restart.clearsStack then [] else
         d.levels.take (number - 1)⟩) := by
  unfold level? at active
  split at active
  · cases active
  · next positive =>
    obtain ⟨inside, same⟩ := List.getElem?_eq_some_iff.mp active
    have above : d.levels.drop (number - 1) = level :: d.levels.drop number := by
      rw [List.drop_eq_getElem_cons inside, same,
        Nat.sub_add_cancel (Nat.pos_of_ne_zero positive)]
    rw [resolve, if_neg positive, above]

/-- A level that is not active cannot be left. -/
theorem resolve_of_level?_eq_none (absent : d.level? number = none) (index : Nat) :
    d.resolve number index = none := by
  unfold level? at absent
  split at absent
  · next zero => rw [resolve, if_pos zero]
  · next positive =>
    have beyond : d.levels.drop (number - 1) = [] :=
      List.drop_eq_nil_of_le (List.getElem?_eq_none_iff.mp absent)
    rw [resolve, if_neg positive, beyond]

/-- Entering a level adds it and keeps the others. -/
theorem level?_push (d : Debugger) (l : Level) (number : Nat) :
    (d.push l).level? number = if number = d.depth + 1 then some l else d.level? number := by
  cases number with
  | zero => simp [level?]
  | succ n =>
    by_cases last : n = d.levels.length
    · simp [level?, push, depth, last]
    · by_cases inside : n < d.levels.length
      · simp [level?, push, depth, last, List.getElem?_append_left inside]
      · have beyond : (d.levels ++ [l])[n]? = none :=
          List.getElem?_eq_none (by simp; omega)
        have unused : d.levels[n]? = none := List.getElem?_eq_none (by omega)
        simp [level?, push, depth, last, beyond, unused]

/-- The levels that stay when one is left were active before. -/
theorem level?_resolve (resolved : d.resolve number index = some (r, d')) {n : Nat} {l : Level}
    (active : d'.level? n = some l) : d.level? n = some l := by
  obtain ⟨rest, above, split, -, -, -, -, cleared⟩ := resolve_eq_some resolved
  unfold level? at active ⊢
  split at active
  · simp at active
  rename_i positive
  rcases cleared with ⟨-, -, levels⟩ | ⟨-, -, levels⟩
  · simp [levels] at active
  · rw [levels] at active
    obtain ⟨inside, -⟩ := List.getElem?_eq_some_iff.mp active
    rw [if_neg positive, split, List.getElem?_append_left inside, active]

end Debugger

end LispBridge
