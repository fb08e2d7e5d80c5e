import LispBridge.Proofs.Debugger.Levels
import Mathlib.Data.List.Induction
import Mathlib.Data.List.Nodup
import Mathlib.Logic.ExistsUnique

/-!
What becomes of debugger levels over any number of operations.

* `Course`: the stack after some operations, with the operation that entered each of its levels and
  what each operation handed out.
* `handed_eq`: a resolution hands out the part of the stack that it takes off.
* `perm_entries`: no level is lost, and none is handed out twice.
* `levels_partitioned`: both, with what a single resolution says of the stack it was made on.
-/

namespace LispBridge

/-- The levels that a resolution hands out, with their numbers, innermost first. -/
def Resolution.handed (r : Resolution) : List (Nat × Level) :=
  r.above ++ (r.number, r.level) :: r.below

namespace Debugger

/-! ### Operations -/

/-- What can be done to a stack of levels. -/
inductive Operation where
  | push (l : Level)
  | resolve (number index : Nat)
deriving DecidableEq, Repr

/-- What an operation yields, and the stack that it leaves. -/
def apply (d : Debugger) : Operation → Option Resolution × Debugger
  | .push l => (none, d.push l)
  | .resolve number index =>
    match d.resolve number index with
    | some (r, d') => (some r, d')
    | none => (none, d)

/-- A level that was entered, with the index of the operation that entered it. So levels with the
same content are told apart. -/
abbrev Entry : Type :=
  Nat × Level

/-- What operations have come to. -/
structure Course where
  debugger : Debugger := {}
  /-- The operations that entered the active levels, outermost first. -/
  entrants : List Nat := []
  /-- What each operation handed out. -/
  handed : List (List Entry) := []
deriving DecidableEq, Repr

namespace Course

/-- The active levels. -/
def active (c : Course) : List Entry :=
  c.entrants.zip c.debugger.levels

/-- What an operation handed out. -/
def handedBy (c : Course) (index : Nat) : List Entry :=
  c.handed[index]?.getD []

/-- The entry of an active level. -/
def enteredAs? (entrants : List Nat) : Nat × Level → Option Entry
  | (number, l) => entrants[number - 1]?.map (·, l)

def step (c : Course) (op : Operation) : Course :=
  let (resolution, debugger) := c.debugger.apply op
  { debugger
    entrants :=
      match op with
      | .push _ => c.entrants ++ [c.handed.length]
      | .resolve .. => c.entrants.take debugger.depth
    handed := c.handed ++
      [(resolution.toList.flatMap Resolution.handed).filterMap (enteredAs? c.entrants)] }

/-- The course of some operations on an empty stack. -/
def ofOperations (ops : List Operation) : Course :=
  ops.foldl step {}

end Course

/-- The levels that operations enter. -/
def entries (ops : List Operation) : List Entry :=
  ops.zipIdx.filterMap fun
    | (.push l, index) => some (index, l)
    | (.resolve .., _) => none

/-! ### One resolution -/

section Resolve

variable {d d' : Debugger} {number index : Nat} {r : Resolution}

theorem innermostFirst_append (levels levels' : List Level) (first : Nat) :
    innermostFirst (levels ++ levels') first =
      innermostFirst levels' (first + levels.length) ++ innermostFirst levels first := by
  simp [innermostFirst, List.mapIdx_append, Nat.add_comm, Nat.add_left_comm]

theorem innermostFirst_cons (l : Level) (levels : List Level) (first : Nat) :
    innermostFirst (l :: levels) first = innermostFirst levels (first + 1) ++ [(first, l)] :=
  innermostFirst_append [l] levels first

theorem numbers_innermostFirst (levels : List Level) (first : Nat) :
    (innermostFirst levels first).map (·.1) = (List.range' first levels.length).reverse := by
  induction levels generalizing first with
  | nil => rfl
  | cons l levels ih => simp [innermostFirst_cons, ih, List.range'_succ]

theorem mem_innermostFirst {levels : List Level} {first n : Nat} {l : Level} :
    (n, l) ∈ innermostFirst levels first ↔ ∃ i, first + i = n ∧ levels[i]? = some l := by
  simp only [innermostFirst, List.mem_reverse, List.mem_mapIdx, Prod.mk.injEq]
  constructor
  · rintro ⟨i, inside, number, same⟩
    exact ⟨i, number, List.getElem?_eq_some_iff.mpr ⟨inside, same⟩⟩
  · rintro ⟨i, number, found⟩
    obtain ⟨inside, same⟩ := List.getElem?_eq_some_iff.mp found
    exact ⟨i, inside, number, same⟩

/-- A resolution takes the upper part of the stack off and hands it out. -/
theorem handed_eq (resolved : d.resolve number index = some (r, d')) :
    d'.levels = d.levels.take d'.depth ∧
      r.handed = innermostFirst (d.levels.drop d'.depth) (d'.depth + 1) := by
  obtain ⟨rest, above, split, length, same, -, upper, left⟩ := resolve_eq_some resolved
  have handed : r.handed = innermostFirst (r.level :: above) number ++ r.below := by
    rw [innermostFirst_cons, Resolution.handed, upper, same, List.append_assoc]
    rfl
  rcases left with ⟨-, lower, empty⟩ | ⟨-, lower, kept⟩
  · rw [handed, lower, depth, empty, split, length, Nat.add_comm rest.length,
      ← innermostFirst_append]
    exact ⟨rfl, rfl⟩
  · rw [handed, lower, depth, kept, split, length, List.take_left, List.drop_left,
      List.append_nil]
    exact ⟨rfl, rfl⟩

theorem depth_le_of_resolve (resolved : d.resolve number index = some (r, d')) :
    d'.depth ≤ d.depth := by
  have lengths := congrArg List.length (handed_eq resolved).1
  rw [List.length_take] at lengths
  unfold depth at lengths ⊢
  omega

theorem resolve_eq_none_iff :
    d.resolve number index = none ↔ number = 0 ∨ d.depth < number := by
  have inactive : d.level? number = none ↔ number = 0 ∨ d.depth < number := by
    unfold level? depth
    split
    · next zero => simp [zero]
    · next positive =>
      rw [List.getElem?_eq_none_iff]
      omega
  rw [← inactive]
  constructor
  · intro refused
    cases active : d.level? number with
    | none => rfl
    | some l =>
      rw [resolve_of_level? active] at refused
      cases refused
  · exact fun absent => resolve_of_level?_eq_none absent index

end Resolve

end Debugger

/-- What a resolution says of the stack on which it was made, and of the stack that it left. -/
structure Resolution.Splits (r : Resolution) (d d' : Debugger) : Prop where
  level : d.level? r.number = some r.level
  numbers_above : r.above.map (·.1) = (List.range' (r.number + 1) (d.depth - r.number)).reverse
  numbers_below : r.below = [] ∧ d'.levels = d.levels.take (r.number - 1) ∨
    r.below.map (·.1) = (List.range' 1 (r.number - 1)).reverse ∧ d'.levels = []
  occupied : ∀ p ∈ r.handed, d.level? p.1 = some p.2
  decreasing : (r.handed.map (·.1)).Pairwise (· > ·)

namespace Debugger

theorem splits_of_resolve {d d' : Debugger} {number index : Nat} {r : Resolution}
    (resolved : d.resolve number index = some (r, d')) : r.number = number ∧ r.Splits d d' := by
  obtain ⟨kept, handed⟩ := handed_eq resolved
  obtain ⟨rest, above, split, length, same, -, upper, left⟩ := resolve_eq_some resolved
  have occupied : ∀ p ∈ r.handed, d.level? p.1 = some p.2 := by
    rintro ⟨n, l⟩ mem
    rw [handed, mem_innermostFirst] at mem
    obtain ⟨i, rfl, found⟩ := mem
    rw [List.getElem?_drop] at found
    rw [level?, if_neg (by omega), ← found]
    congr 1
    omega
  refine ⟨same, occupied (r.number, r.level) (by simp [Resolution.handed]), ?_, ?_, occupied, ?_⟩
  · have others : above.length = d.depth - number := by
      rw [depth, split, List.length_append, List.length_cons]
      omega
    rw [upper, same, numbers_innermostFirst, others]
  · rcases left with ⟨-, lower, empty⟩ | ⟨-, lower, rest_eq⟩
    · refine .inr ⟨?_, empty⟩
      rw [lower, same, numbers_innermostFirst, length, Nat.add_sub_cancel]
    · refine .inl ⟨lower, ?_⟩
      rw [rest_eq, split, same, length, Nat.add_sub_cancel, List.take_left]
  · rw [handed, numbers_innermostFirst, List.pairwise_reverse]
    exact List.pairwise_lt_range'

/-- The first restart of a level clears the stack, whether or not the level is fatal. -/
theorem clearsStack_first (l : Level) : (l.restartAt? 0).any Restart.clearsStack = true := by
  unfold Level.restartAt? Level.restarts Restart.offered
  cases l.fatal <;> rfl

theorem apply_innermost (d : Debugger) : (d.apply (.resolve d.depth 0)).2.levels = [] := by
  unfold apply
  dsimp only
  split
  · next r d' resolved =>
    obtain ⟨-, -, -, -, -, action, -, ⟨-, -, empty⟩ | ⟨stays, -, -⟩⟩ := resolve_eq_some resolved
    · exact empty
    · rw [action, clearsStack_first] at stays
      cases stays
  · next refused =>
    rcases resolve_eq_none_iff.mp refused with zero | beyond
    · exact List.length_eq_zero_iff.mp zero
    · exact absurd beyond (Nat.lt_irrefl _)

/-! ### Courses -/

theorem mem_entries {ops : List Operation} {k : Nat} {l : Level} :
    (k, l) ∈ entries ops ↔ ops[k]? = some (.push l) := by
  simp only [entries, List.mem_filterMap, Prod.exists, List.mem_zipIdx_iff_getElem?]
  constructor
  · rintro ⟨op, i, found, entered⟩
    cases op with
    | push l' =>
      cases entered
      exact found
    | resolve number index => cases entered
  · intro found
    exact ⟨.push l, k, found, rfl⟩

theorem entries_concat (ops : List Operation) (op : Operation) :
    entries (ops ++ [op]) = entries ops ++
      match op with
      | .push l => [(ops.length, l)]
      | .resolve .. => [] := by
  cases op <;> simp [entries, List.zipIdx_append]

theorem nodup_entries (ops : List Operation) : (entries ops).Nodup := by
  induction ops using List.reverseRecOn with
  | nil => exact List.nodup_nil
  | append_singleton ops op ih =>
    rw [entries_concat]
    cases op with
    | push l =>
      refine List.nodup_append.mpr ⟨ih, List.nodup_singleton _, ?_⟩
      rintro ⟨k, l'⟩ mem _ last rfl
      have inside := (List.getElem?_eq_some_iff.mp (mem_entries.mp mem)).1
      cases List.mem_singleton.mp last
      exact Nat.lt_irrefl _ inside
    | resolve number index => rwa [List.append_nil]

namespace Course

theorem ofOperations_concat (ops : List Operation) (op : Operation) :
    ofOperations (ops ++ [op]) = (ofOperations ops).step op :=
  List.foldl_concat ..

/-- The entries of levels on the stack, by their numbers. -/
theorem filterMap_enteredAs? (levels : List Level) :
    ∀ (before : List Nat) {after : List Nat}, after.length = levels.length →
      (innermostFirst levels (before.length + 1)).filterMap (enteredAs? (before ++ after)) =
        (after.zip levels).reverse := by
  induction levels with
  | nil => intro before after _; simp [innermostFirst]
  | cons l levels ih =>
    intro before after same
    cases after with
    | nil => cases same
    | cons k after =>
      have next := ih (before ++ [k]) (Nat.succ.inj same)
      rw [List.append_assoc, List.length_append] at next
      rw [innermostFirst_cons, List.filterMap_append]
      simpa [enteredAs?] using next

/-- The operations of a course are counted, and every active level has an entry. -/
structure Sound (c : Course) (ops : List Operation) : Prop where
  handed : c.handed.length = ops.length
  entrants : c.entrants.length = c.debugger.depth
  perm : (c.active ++ c.handed.flatten).Perm (entries ops)

theorem Sound.push {c : Course} {ops : List Operation} (sound : c.Sound ops) (l : Level) :
    (c.step (.push l)).Sound (ops ++ [.push l]) where
  handed := by simp [step, apply, sound.handed]
  entrants := by
    have entrants := sound.entrants
    unfold depth at entrants
    simp [step, apply, Debugger.push, depth, entrants]
  perm := by
    have entrants := sound.entrants
    unfold depth at entrants
    have active : (c.step (.push l)).active = c.active ++ [(ops.length, l)] := by
      simp [step, apply, Debugger.push, Course.active, sound.handed, List.zip_append entrants]
    have handed : (c.step (.push l)).handed.flatten = c.handed.flatten := by
      simp [step, apply]
    rw [active, handed, entries_concat, List.append_assoc]
    exact (List.perm_append_comm.append_left _).trans
      (by rw [← List.append_assoc]; exact sound.perm.append_right _)

/-- A resolution hands out the entries of the levels that it takes off the stack, innermost first,
and leaves the others. -/
theorem Sound.entries_of_resolve {c : Course} {ops : List Operation} (sound : c.Sound ops)
    {number index : Nat} {r : Resolution} {d' : Debugger}
    (resolved : c.debugger.resolve number index = some (r, d')) :
    (c.step (.resolve number index)).active = c.active.take d'.depth ∧
      (c.step (.resolve number index)).handed =
        c.handed ++ [(c.active.drop d'.depth).reverse] := by
  have entrants := sound.entrants
  obtain ⟨kept, handed⟩ := handed_eq resolved
  constructor
  · have entrants' : (c.step (.resolve number index)).entrants = c.entrants.take d'.depth := by
      simp [step, apply, resolved]
    have left : (c.step (.resolve number index)).debugger = d' := by
      simp [step, apply, resolved]
    rw [active, active, entrants', left, kept, List.zip_eq_zipWith, List.zip_eq_zipWith,
      List.take_zipWith]
  · have front : (c.entrants.take d'.depth).length = d'.depth := by
      rw [List.length_take, entrants]
      exact Nat.min_eq_left (depth_le_of_resolve resolved)
    have back : (c.entrants.drop d'.depth).length = (c.debugger.levels.drop d'.depth).length := by
      rw [List.length_drop, List.length_drop, entrants, depth]
    have out : r.handed.filterMap (enteredAs? c.entrants) = (c.active.drop d'.depth).reverse := by
      have entered := filterMap_enteredAs? (c.debugger.levels.drop d'.depth)
        (c.entrants.take d'.depth) back
      rw [List.take_append_drop, front] at entered
      rw [handed, entered, active, List.zip_eq_zipWith, List.zip_eq_zipWith, List.drop_zipWith]
    simp [step, apply, resolved, out]

/-- What a resolution takes off the stack it hands out, with the entries that it had there. -/
theorem Sound.resolve {c : Course} {ops : List Operation} (sound : c.Sound ops)
    (number index : Nat) :
    (c.step (.resolve number index)).Sound (ops ++ [.resolve number index]) := by
  have entrants := sound.entrants
  cases resolved : c.debugger.resolve number index with
  | none =>
    refine ⟨by simp [step, sound.handed], ?_, ?_⟩
    · simp [step, apply, resolved, entrants]
    · simpa [step, apply, resolved, active, entries_concat, ← entrants] using sound.perm
  | some outcome =>
    obtain ⟨r, d'⟩ := outcome
    have inside := depth_le_of_resolve resolved
    obtain ⟨stays, given⟩ := sound.entries_of_resolve resolved
    refine ⟨by simp [step, sound.handed], ?_, ?_⟩
    · simp [step, apply, resolved, entrants, inside]
    · rw [stays, given, entries_concat, List.append_nil, List.flatten_concat]
      have parts : (c.active.take d'.depth ++ (c.active.drop d'.depth).reverse).Perm c.active :=
        ((List.reverse_perm _).append_left _).trans (by rw [List.take_append_drop])
      exact (List.perm_append_comm.append_left _).trans
        (by rw [← List.append_assoc]; exact (parts.append_right _).trans sound.perm)

theorem sound_ofOperations (ops : List Operation) : (ofOperations ops).Sound ops := by
  induction ops using List.reverseRecOn with
  | nil => exact ⟨rfl, rfl, .nil⟩
  | append_singleton ops op ih =>
    rw [ofOperations_concat]
    cases op with
    | push l => exact ih.push l
    | resolve number index => exact ih.resolve number index

end Course

/-! ### Whole courses -/

/-- No level is lost, and none is on the stack or handed out twice. -/
theorem perm_entries (ops : List Operation) :
    ((Course.ofOperations ops).active ++ (Course.ofOperations ops).handed.flatten).Perm
      (entries ops) :=
  (Course.sound_ofOperations ops).perm

/-- The active levels are those of the stack. -/
theorem levels_active (ops : List Operation) :
    (Course.ofOperations ops).active.map (·.2) = (Course.ofOperations ops).debugger.levels := by
  rw [Course.active, List.map_snd_zip]
  exact Nat.le_of_eq (Course.sound_ofOperations ops).entrants.symm

namespace Course

theorem mem_handed {c : Course} {e : Entry} :
    e ∈ c.handed.flatten ↔ ∃ j, e ∈ c.handedBy j := by
  rw [List.mem_flatten]
  constructor
  · rintro ⟨es, mem, inside⟩
    obtain ⟨j, found⟩ := List.mem_iff_getElem?.mp mem
    exact ⟨j, by simpa [handedBy, found] using inside⟩
  · rintro ⟨j, inside⟩
    cases found : c.handed[j]? with
    | none => simp [handedBy, found] at inside
    | some es => exact ⟨es, List.mem_of_getElem? found, by simpa [handedBy, found] using inside⟩

/-- What is handed out once is handed out by one operation. -/
theorem eq_of_mem_handedBy {c : Course} (once : c.handed.flatten.Nodup) {e : Entry} {i j : Nat}
    (first : e ∈ c.handedBy i) (second : e ∈ c.handedBy j) : i = j := by
  have apart := List.pairwise_iff_getElem.mp (List.nodup_flatten.mp once).2
  have disjoint {i j : Nat} (before : i < j) (first : e ∈ c.handedBy i) : e ∉ c.handedBy j := by
    intro second
    by_cases inside : j < c.handed.length
    · have lower : i < c.handed.length := Nat.lt_trans before inside
      rw [handedBy, List.getElem?_eq_getElem lower] at first
      rw [handedBy, List.getElem?_eq_getElem inside] at second
      exact apart i j lower inside before first second
    · rw [handedBy, List.getElem?_eq_none (Nat.le_of_not_lt inside)] at second
      cases second
  rcases Nat.lt_trichotomy i j with before | same | after
  · exact absurd second (disjoint before first)
  · exact same
  · exact absurd first (disjoint after second)

end Course

/-- **Levels are neither lost nor handed out twice.** Whatever was done to a stack, each level that
was entered is on it, or was handed out by exactly one resolution. A resolution hands out the level
at its number, those above it, and those below it if it leaves the stack empty, each with the number
it had; without an active level of that number it changes nothing. The first restart of the
innermost level always leaves the stack empty. -/
theorem levels_partitioned (ops : List Operation) :
    let c := Course.ofOperations ops
    let d := c.debugger
    (c.active.map (·.2) = d.levels ∧ (c.active ++ c.handed.flatten).Perm (entries ops) ∧
      ∀ k l, ops[k]? = some (.push l) →
        (k, l) ∈ c.active ∧ (∀ j, (k, l) ∉ c.handedBy j) ∨
          (k, l) ∉ c.active ∧ ∃! j, (k, l) ∈ c.handedBy j) ∧
      (∀ number index,
        if 0 < number ∧ number ≤ d.depth then
          ∃ r d', d.apply (.resolve number index) = (some r, d') ∧ r.number = number ∧
            r.Splits d d' ∧ (r.below ≠ [] → d'.levels = [])
        else d.apply (.resolve number index) = (none, d)) ∧
      (d.apply (.resolve d.depth 0)).2.levels = [] := by
  intro c d
  have once : (c.active ++ c.handed.flatten).Nodup :=
    (perm_entries ops).nodup_iff.mpr (nodup_entries ops)
  obtain ⟨-, once', apart⟩ := List.nodup_append.mp once
  refine ⟨⟨levels_active ops, perm_entries ops, ?_⟩, ?_, apply_innermost d⟩
  · intro k l entered
    have mem := (perm_entries ops).mem_iff.mpr (mem_entries.mpr entered)
    rcases List.mem_append.mp mem with stands | handed
    · refine .inl ⟨stands, fun j given => ?_⟩
      exact apart _ stands _ (Course.mem_handed.mpr ⟨j, given⟩) rfl
    · obtain ⟨j, given⟩ := Course.mem_handed.mp handed
      refine .inr ⟨fun stands => apart _ stands _ handed rfl, j, given, ?_⟩
      exact fun i given' => Course.eq_of_mem_handedBy once' given' given
  · intro number index
    split
    · next active =>
      cases resolved : d.resolve number index with
      | none =>
        rcases resolve_eq_none_iff.mp resolved with zero | beyond
        · omega
        · omega
      | some outcome =>
        obtain ⟨r, d'⟩ := outcome
        obtain ⟨same, splits⟩ := splits_of_resolve resolved
        refine ⟨r, d', by simp [apply, resolved], same, splits, fun below => ?_⟩
        rcases splits.numbers_below with ⟨none, -⟩ | ⟨-, empty⟩
        · exact absurd none below
        · exact empty
    · next inactive =>
      have refused : d.resolve number index = none := resolve_eq_none_iff.mpr (by omega)
      simp [apply, refused]

/-- Two levels with the same content are left by one restart of the second, which only takes the
levels above it along, and by a restart of another level, which clears the stack. -/
theorem levels_partitioned_of_equal_levels :
    let quiet : Level := ⟨1, "no", [], false⟩
    let fatal : Level := ⟨2, "died", ["f"], true⟩
    let ops := [.push quiet, .push fatal, .push quiet, .resolve 2 1, .push fatal, .resolve 3 0,
      .resolve 2 0]
    let c := Course.ofOperations ops
    (ops[0]? = some (.push quiet) ∧ ops[2]? = some (.push quiet)) ∧
      (c.handedBy 3 = [(2, quiet), (1, fatal)] ∧ c.handedBy 6 = [(4, fatal), (0, quiet)]) ∧
      (∃! j, (0, quiet) ∈ c.handedBy j) ∧ ∃! j, (2, quiet) ∈ c.handedBy j := by
  intro quiet fatal ops c
  have partitioned := (levels_partitioned ops).1.2.2
  have gone : c.active = [] := by decide
  refine ⟨⟨rfl, rfl⟩, ⟨by decide, by decide⟩, ?_, ?_⟩
  · rcases partitioned 0 quiet rfl with ⟨stands, -⟩ | ⟨-, once⟩
    · rw [gone] at stands
      cases stands
    · exact once
  · rcases partitioned 2 quiet rfl with ⟨stands, -⟩ | ⟨-, once⟩
    · rw [gone] at stands
      cases stands
    · exact once

end Debugger

end LispBridge
