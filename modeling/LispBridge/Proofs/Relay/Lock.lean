import LispBridge.Lock

/-!
The lock of a relay.

Whoever holds a lock keeps it while others come and go (`Lock.holder_join`, `Lock.holder_leave`),
and a participant has a part in it (`Lock.Involves`) from asking for it to giving it back.
-/

namespace LispBridge

namespace Lock

variable {l : Lock} {p q : Nat}

/-- Whoever holds the lock keeps it while others come and go. -/
theorem holder_join (held : l.holder = some q) : (l.join p).holder = some q := by
  simp [join, held]

theorem holder_leave (held : l.holder = some q) (other : p ≠ q) :
    (l.leave p).holder = some q := by
  simp [leave, held, other.symm]

/-- Who takes part in a lock: its holder, and those that wait. -/
def Involves (l : Lock) (p : Nat) : Prop :=
  l.holder = some p ∨ p ∈ l.waiting

theorem Involves.of_join (involved : (l.join p).Involves q) : l.Involves q ∨ q = p := by
  unfold join at involved
  split at involved
  · next free =>
    rcases involved with holder | waits
    · exact .inr (Option.some.inj holder).symm
    · exact .inl (.inr waits)
  · rcases involved with holder | waits
    · exact .inl (.inl holder)
    · exact (List.mem_append.mp waits).imp .inr List.mem_singleton.mp

theorem Involves.of_leave (involved : (l.leave p).Involves q) : l.Involves q := by
  unfold leave at involved
  split at involved
  · split at involved
    · rcases involved with holder | waits
      · cases holder
      · exact .inr waits
    · next first rest waiting =>
      rw [Involves, waiting]
      rcases involved with holder | waits
      · exact .inr (List.mem_cons.mpr (.inl (Option.some.inj holder).symm))
      · exact .inr (List.mem_cons_of_mem first waits)
  · exact involved.imp id fun waits => (List.mem_filter.mp waits).1

/-- Who takes no part in a lock has nothing to give back. -/
theorem leave_eq_self (outside : ¬ l.Involves p) : l.leave p = l := by
  have notHolder : l.holder ≠ some p := fun held => outside (.inl held)
  have others : l.waiting.filter (· ≠ p) = l.waiting :=
    List.filter_eq_self.mpr fun q mem => decide_eq_true fun same => outside (.inr (same ▸ mem))
  rw [leave, if_neg notHolder, others]

/-- A lock after one participant has asked for it, or given it back, or done neither. -/
def MovedBy (l : Lock) (p : Nat) (l' : Lock) : Prop :=
  l' = l ∨ l' = l.join p ∨ l' = l.leave p

theorem MovedBy.involves {l' : Lock} (moved : l.MovedBy p l') (involved : l'.Involves q) :
    l.Involves q ∨ q = p := by
  rcases moved with rfl | rfl | rfl
  · exact .inl involved
  · exact involved.of_join
  · exact .inl involved.of_leave

theorem MovedBy.holder {l' : Lock} (moved : l.MovedBy p l') (held : l.holder = some q)
    (other : p ≠ q) : l'.holder = some q := by
  rcases moved with rfl | rfl | rfl
  · exact held
  · exact holder_join held
  · exact holder_leave held other

/-- Who takes part in a lock, in the order in which they get it. -/
def members (l : Lock) : List Nat :=
  l.holder.toList ++ l.waiting

theorem mem_members_iff : p ∈ l.members ↔ l.Involves p := by
  simp [members, Involves]

theorem members_join_perm : (l.join p).members.Perm (p :: l.members) := by
  unfold join
  cases held : l.holder with
  | none => simp [members, held]
  | some q => simpa [members, held] using List.perm_append_singleton p (q :: l.waiting)

theorem nodup_members_join (nodup : l.members.Nodup) (outside : ¬ l.Involves p) :
    (l.join p).members.Nodup := by
  rw [members_join_perm.nodup_iff, List.nodup_cons, mem_members_iff]
  exact ⟨outside, nodup⟩

/-- Nobody has a part in the lock after giving it back. -/
theorem members_leave (nodup : l.members.Nodup) :
    (l.leave p).members = l.members.filter (· ≠ p) := by
  have others {ps : List Nat} (outside : p ∉ ps) : ps.filter (· ≠ p) = ps :=
    List.filter_eq_self.mpr fun q mem => decide_eq_true fun same => outside (same ▸ mem)
  unfold leave
  by_cases holds : l.holder = some p
  · have apart : p ∉ l.waiting := by
      simp [members, holds] at nodup
      exact nodup.1
    cases waiting : l.waiting with
    | nil => simp [members, holds, waiting]
    | cons next rest =>
      have same := others (waiting ▸ apart)
      simp only [members, holds, waiting, if_true, Option.toList_some, List.singleton_append]
      rw [List.filter_cons_of_neg (by simp), same]
  · cases held : l.holder with
    | none => simp [members, held]
    | some q =>
      have other : q ≠ p := fun same => holds (same ▸ held)
      simp [members, held, other]

theorem nodup_members_leave (nodup : l.members.Nodup) : (l.leave p).members.Nodup := by
  rw [members_leave nodup]
  exact nodup.filter _

theorem not_involves_leave (nodup : l.members.Nodup) : ¬ (l.leave p).Involves p := by
  rw [← mem_members_iff, members_leave nodup]
  simp

/-- Nobody waits for a lock that is free. -/
def IsFair (l : Lock) : Prop :=
  l.holder = none → l.waiting = []

theorem isFair_join : (l.join p).IsFair := by
  unfold join
  split
  · exact fun free => by cases free
  · next holder held => exact fun free => absurd (held.symm.trans free) (by simp)

theorem IsFair.leave (fair : l.IsFair) : (l.leave p).IsFair := by
  unfold Lock.leave
  split
  · split
    · next none => exact fun _ => none
    · exact fun free => by cases free
  · exact fun free => by simp [fair free]

theorem IsFair.move {l' : Lock} (fair : l.IsFair) (moved : l.MovedBy p l') : l'.IsFair := by
  rcases moved with rfl | rfl | rfl
  · exact fair
  · exact isFair_join
  · exact fair.leave

end Lock

end LispBridge
