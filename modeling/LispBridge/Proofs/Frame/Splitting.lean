import LispBridge.Proofs.Frame.Pieces
import LispBridge.Proofs.Text.Utf8
import LispBridge.Text.Splitting
import Mathlib.Data.List.Chain

/-!
Where a text is split.

A piece ends because the next character would not fit into it (`IsFilled`). This is so of pieces
that are filled one character at a time, and it is where a loop that cuts the text at bytes finds
its cuts.

* `isFilled_splitText`: the pieces that `splitText` fills.
* `splitsInto_of_isFilled`: the loop ends with filled pieces, and with no others
  (`Text.SplitsInto.unique`).
* `Text.SplitsInto.charLength_le`: it only ends if every character fits into a piece.
* `splits_exactly`: what the pieces of a text are.
-/

namespace LispBridge

open Text

/-! ### Filled pieces -/

/-- The first character of a piece would not have fitted into the piece before it. -/
def Overflows (max : Nat) (piece next : String) : Prop :=
  ∃ c cs, next.toList = c :: cs ∧ max < piece.utf8ByteSize + Utf8.charLength c

/-- Pieces of which none could end later. -/
structure IsFilled (max : Nat) (pieces : List String) : Prop where
  nonempty : ∀ piece ∈ pieces, piece ≠ ""
  fits : ∀ piece ∈ pieces, piece.utf8ByteSize ≤ max
  full : pieces.IsChain (Overflows max)

namespace Pieces

variable {max : Nat} {p : Pieces}

/-- The pieces cut off so far could not end later, nor could they if the piece being filled was the
last one. It is only empty before the first character. -/
structure Filled (max : Nat) (p : Pieces) : Prop where
  nonempty : ∀ piece ∈ p.done, piece ≠ ""
  begun : p.piece = "" → p.done = []
  full : (p.piece :: p.done).IsChain fun next piece => Overflows max piece next

theorem filled_new (max : Nat) : Filled max {} where
  nonempty := by simp
  begun := fun _ => rfl
  full := .singleton _

theorem Filled.push (filled : Filled max p) (c : Char) : Filled max (p.push max c) := by
  rw [Pieces.push]
  split
  · refine ⟨filled.nonempty, fun empty => absurd empty String.push_ne_empty, ?_⟩
    -- The piece being filled still begins with the character that did not fit before.
    cases before : p.done with
    | nil => exact .singleton _
    | cons d ds =>
      have full := filled.full
      rw [before, List.isChain_cons_cons] at full
      obtain ⟨⟨first, r, begins, tight⟩, others⟩ := full
      refine .cons_cons ⟨first, r ++ [c], ?_, tight⟩ others
      rw [String.toList_push, begins, List.cons_append]
  · next full =>
    rw [not_or, Nat.not_le] at full
    obtain ⟨tight, begun⟩ := full
    have nonempty : p.piece ≠ "" := fun empty => begun (String.isEmpty_iff.mpr empty)
    exact
      { nonempty := List.forall_mem_cons.mpr ⟨nonempty, filled.nonempty⟩
        begun := fun empty => absurd empty (by simp)
        full := .cons_cons ⟨c, [], String.toList_singleton c, tight⟩ filled.full }

theorem Filled.foldl (filled : Filled max p) (cs : List Char) :
    Filled max (cs.foldl (Pieces.push max) p) := by
  induction cs generalizing p with
  | nil => exact filled
  | cons c cs ih => exact ih (filled.push c)

end Pieces

variable {max : Nat}

theorem isFilled_splitText (four : 4 ≤ max) (text : String) :
    IsFilled max (splitText max text) := by
  have filled := (Pieces.filled_new max).foldl text.toList
  have fits (piece : String) (mem : piece ∈ splitText max text) : piece.utf8ByteSize ≤ max :=
    size_of_mem_splitText four mem
  rw [splitText, String.foldl_eq_foldl_toList] at fits ⊢
  generalize text.toList.foldl (Pieces.push max) {} = p at filled fits
  split at fits
  · next empty =>
    rw [if_pos empty, filled.begun (String.isEmpty_iff.mp empty)]
    exact ⟨by simp, by simp, .nil⟩
  · next begun =>
    have nonempty : p.piece ≠ "" := fun empty => begun (String.isEmpty_iff.mpr empty)
    rw [if_neg begun]
    refine ⟨fun piece mem => ?_, fits, List.isChain_reverse.mpr filled.full⟩
    rcases List.mem_cons.mp (List.mem_reverse.mp mem) with rfl | earlier
    · exact nonempty
    · exact filled.nonempty piece earlier

/-! ### The loop -/

namespace Text

/-- The search for a cut steps back as long as a byte is inside a character. -/
theorem lastCut_eq {cs : List Char} {m n : Nat} (cut : (Utf8.dropBytes? m cs).isSome = true)
    (within : m ≤ n) (inside : ∀ k, m < k → k ≤ n → Utf8.dropBytes? k cs = none) :
    lastCut cs n = m := by
  induction n with
  | zero => exact (Nat.le_zero.mp within).symm
  | succ n ih =>
    rw [lastCut]
    rcases Nat.eq_or_lt_of_le within with here | before
    · rw [← here, if_pos cut]
    · rw [inside (n + 1) before (Nat.le_refl _), if_neg (by simp)]
      exact ih (Nat.le_of_lt_succ before) fun k above most =>
        inside k above (Nat.le_succ_of_le most)

theorem lastCut_le (cs : List Char) (n : Nat) : lastCut cs n ≤ n := by
  induction n with
  | zero => exact Nat.le_refl 0
  | succ n ih =>
    rw [lastCut]
    split
    · exact Nat.le_refl _
    · exact Nat.le_succ_of_le ih

theorem lastCut_of_overflow {front back : List Char} {c : Char} {max : Nat}
    (fits : Utf8.byteLength front ≤ max)
    (tight : max < Utf8.byteLength front + Utf8.charLength c) :
    lastCut (front ++ c :: back) max = Utf8.byteLength front :=
  lastCut_eq (by rw [Utf8.dropBytes?_append]; rfl) fits fun _ above most =>
    Utf8.dropBytes?_inside above (Nat.lt_of_le_of_lt most tight)

/-- A round of the loop cuts off what is in front of the character that does not fit. -/
theorem SplitsInto.round {front back : List Char} {c : Char} {pieces : List String}
    (fits : Utf8.byteLength front ≤ max) (tight : max < Utf8.byteLength front + Utf8.charLength c)
    (rounds : SplitsInto max (c :: back) pieces) :
    SplitsInto max (front ++ c :: back) (String.ofList front :: pieces) := by
  have here : lastCut (front ++ c :: back) max = Utf8.byteLength front :=
    lastCut_of_overflow fits tight
  refine .cut ?_ (by rw [here, Utf8.takeBytes?_append]) (by rw [here, Utf8.dropBytes?_append]) rounds
  rw [Utf8.byteLength_append, Utf8.byteLength_cons]
  omega

/-- There is nothing to choose. -/
theorem SplitsInto.unique {cs : List Char} {ps qs : List String} (ended : SplitsInto max cs ps)
    (other : SplitsInto max cs qs) : ps = qs := by
  induction ended generalizing qs with
  | nothing =>
    cases other with
    | nothing => rfl
    | last nonempty => exact absurd rfl nonempty
    | cut long => exact absurd long (Nat.not_lt_zero max)
  | last nonempty fits =>
    cases other with
    | nothing => exact absurd rfl nonempty
    | last => rfl
    | cut long => exact absurd fits (Nat.not_le_of_lt long)
  | cut long before behind _ ih =>
    cases other with
    | nothing => exact absurd long (Nat.not_lt_zero max)
    | last _ fits => exact absurd fits (Nat.not_le_of_lt long)
    | cut _ before' behind' rounds =>
      cases before.symm.trans before'
      cases behind.symm.trans behind'
      rw [ih rounds]

/-- A character that takes more than `max` bytes is never passed, so the loop does not end. -/
theorem SplitsInto.charLength_le {cs : List Char} {pieces : List String}
    (ended : SplitsInto max cs pieces) : ∀ c ∈ cs, Utf8.charLength c ≤ max := by
  induction ended with
  | nothing => simp
  | last _ fits => exact fun c mem => Nat.le_trans (Utf8.charLength_le_byteLength mem) fits
  | @cut cs _ _ _ _ _ behind _ ih =>
    obtain ⟨front, rfl, length⟩ := Utf8.exists_of_dropBytes? behind
    intro c mem
    rcases List.mem_append.mp mem with inFront | inBack
    · exact Nat.le_trans (Utf8.charLength_le_byteLength inFront) (length ▸ lastCut_le _ max)
    · exact ih c inBack

end Text

theorem IsFilled.tail {piece : String} {pieces : List String}
    (filled : IsFilled max (piece :: pieces)) : IsFilled max pieces where
  nonempty p mem := filled.nonempty p (List.mem_cons_of_mem _ mem)
  fits p mem := filled.fits p (List.mem_cons_of_mem _ mem)
  full := filled.full.tail

/-- Each piece that is followed by another one takes a round of the loop, because the other one
begins with the character that does not fit. -/
theorem splitsInto_of_isFilled {pieces : List String} (filled : IsFilled max pieces) :
    SplitsInto max (pieces.flatMap String.toList) pieces := by
  induction pieces with
  | nil => exact .nothing
  | cons piece pieces ih =>
    have fits := filled.fits piece List.mem_cons_self
    rw [← Utf8.byteLength_toList] at fits
    cases pieces with
    | nil =>
      have nonempty : piece.toList ≠ [] := by
        simpa using filled.nonempty piece List.mem_cons_self
      simpa using SplitsInto.last nonempty fits
    | cons next others =>
      obtain ⟨c, r, begins, tight⟩ := (List.isChain_cons_cons.mp filled.full).1
      rw [← Utf8.byteLength_toList] at tight
      have behind : (next :: others).flatMap String.toList =
          c :: (r ++ others.flatMap String.toList) := by
        rw [List.flatMap_cons, begins, List.cons_append]
      have rounds := ih filled.tail
      rw [behind] at rounds
      have whole := rounds.round fits tight
      rwa [← behind, String.ofList_toList] at whole

/-! ### The pieces of a text -/

theorem IsFilled.lt_of_mem_dropLast {pieces : List String} (filled : IsFilled max pieces)
    {piece : String} (mem : piece ∈ pieces.dropLast) : max < piece.utf8ByteSize + 4 := by
  induction pieces with
  | nil => cases mem
  | cons first pieces ih =>
    cases pieces with
    | nil => cases mem
    | cons next others =>
      rcases List.mem_cons.mp mem with rfl | later
      · obtain ⟨c, -, -, tight⟩ := (List.isChain_cons_cons.mp filled.full).1
        have most : Utf8.charLength c ≤ 4 := c.utf8Size_le_four
        omega
      · exact ih filled.tail later

/-- **A text is split exactly.** The loop ends, and its pieces are those of `splitText`. None of
them is empty or longer than `max` bytes, joined they are the text, each begins and ends between two
characters, and each but the last is at most three bytes short of `max`. -/
theorem splits_exactly (four : 4 ≤ max) (text : String) :
    (∀ pieces, SplitsInto max text.toList pieces ↔ pieces = splitText max text) ∧
      (∀ piece ∈ splitText max text, piece ≠ "" ∧ piece.utf8ByteSize ≤ max) ∧
      String.join (splitText max text) = text ∧
      (∀ front back, splitText max text = front ++ back →
        String.Pos.Raw.IsValid text ⟨(String.join front).utf8ByteSize⟩) ∧
      (∀ piece ∈ (splitText max text).dropLast, max - 4 < piece.utf8ByteSize) ∧
      (splitText max text = [] ↔ text = "") := by
  have filled := isFilled_splitText four text
  have joined := join_splitText four text
  have ends : SplitsInto max text.toList (splitText max text) := by
    have ends := splitsInto_of_isFilled filled
    rwa [← String.toList_join, joined] at ends
  refine ⟨fun pieces => ⟨fun ended => ended.unique ends, fun same => same ▸ ends⟩,
    fun piece mem => ⟨filled.nonempty piece mem, filled.fits piece mem⟩, joined, ?_, ?_, ?_⟩
  · intro front back split
    have whole : text = String.join front ++ String.join back := by
      rw [← String.join_append, ← split, joined]
    exact String.Pos.Raw.isValid_iff_exists_append.mpr ⟨_, _, whole, rfl⟩
  · intro piece mem
    have long := filled.lt_of_mem_dropLast mem
    omega
  · constructor
    · intro none
      rw [← joined, none, String.join_nil]
    · rintro rfl
      exact ends.unique .nothing

/-- A character of four bytes stands across the first cut at five bytes. -/
theorem splits_exactly_across_cut :
    4 ≤ 5 ∧ SplitsInto 5 "aé😀b".toList ["aé", "😀b"] ∧
      (∀ piece ∈ ["aé", "😀b"], piece ≠ "" ∧ piece.utf8ByteSize ≤ 5) ∧
      String.Pos.Raw.IsValid "aé😀b" ⟨3⟩ := by
  have pieces : splitText 5 "aé😀b" = ["aé", "😀b"] := by
    rw [splitText, String.foldl_eq_foldl_toList]
    decide +kernel
  obtain ⟨loop, bounds, -, places, -, -⟩ := splits_exactly (by decide : 4 ≤ 5) "aé😀b"
  rw [pieces] at loop bounds places
  exact ⟨by decide, (loop _).mpr rfl, bounds, places ["aé"] ["😀b"] rfl⟩

end LispBridge
