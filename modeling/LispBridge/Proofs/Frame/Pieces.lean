import LispBridge.Frame.Writer

/-!
A text in pieces.

* `Pieces.Cut`: what the pieces cut off so far and the piece being filled have to do with the text
  that has been read.
* `join_splitText`, `size_of_mem_splitText`, `splitText_ne_nil`: the pieces of a whole text.
-/

namespace LispBridge

/-- The pieces of a text that has been read: joined they are the text, and none is longer than
`max` bytes. -/
structure Pieces.Cut (max : Nat) (p : Pieces) (text : String) : Prop where
  joined : String.join p.done.reverse ++ p.piece = text
  done_fits : ∀ piece ∈ p.done, piece.utf8ByteSize ≤ max
  piece_fits : p.piece.utf8ByteSize ≤ max

namespace Pieces

variable {max : Nat} {p : Pieces} {text : String}

theorem cut_nil (max : Nat) : Cut max {} "" where
  joined := rfl
  done_fits := by simp
  piece_fits := Nat.zero_le _

/-- A character either fits into the piece being filled or begins the next one. -/
theorem Cut.push (cut : Cut max p text) (some : 4 ≤ max) (c : Char) :
    Cut max (p.push max c) (text.push c) := by
  have small : c.utf8Size ≤ max := Nat.le_trans c.utf8Size_le_four some
  have joined := cut.joined
  rw [Pieces.push]
  split
  · next room =>
    refine ⟨?_, cut.done_fits, ?_⟩
    · rw [← joined, String.push_eq_append, String.push_eq_append, String.append_assoc]
    · rw [String.utf8ByteSize_push]
      rcases room with fits | empty
      · exact fits
      · rw [String.isEmpty_iff.mp empty]
        simpa using small
  · refine ⟨?_, ?_, by simpa using small⟩
    · rw [← joined, List.reverse_cons, String.join_append, String.push_eq_append]
      simp
    · exact List.forall_mem_cons.mpr ⟨cut.piece_fits, cut.done_fits⟩

theorem Cut.foldl (cut : Cut max p text) (some : 4 ≤ max) (cs : List Char) :
    Cut max (cs.foldl (Pieces.push max) p) (text ++ String.ofList cs) := by
  induction cs generalizing p text with
  | nil => simpa using cut
  | cons c cs ih =>
    rw [List.foldl_cons, String.ofList_cons, ← String.append_assoc, String.append_singleton]
    exact ih (cut.push some c)

end Pieces

variable {max : Nat}

theorem cut_of_text (some : 4 ≤ max) (text : String) :
    Pieces.Cut max (text.foldl (Pieces.push max) {}) text := by
  have cut := (Pieces.cut_nil max).foldl some text.toList
  rwa [String.ofList_toList, String.empty_append, ← String.foldl_eq_foldl_toList] at cut

theorem join_splitText (some : 4 ≤ max) (text : String) :
    String.join (splitText max text) = text := by
  have cut := cut_of_text some text
  rw [splitText]
  generalize text.foldl (Pieces.push max) {} = p at cut
  have joined := cut.joined
  split
  · next empty =>
    rwa [String.isEmpty_iff.mp empty, String.append_empty] at joined
  · rw [List.reverse_cons, String.join_append, String.join_cons, String.join_nil,
      String.append_empty, joined]

theorem size_of_mem_splitText (some : 4 ≤ max) {text piece : String}
    (mem : piece ∈ splitText max text) : piece.utf8ByteSize ≤ max := by
  have cut := cut_of_text some text
  rw [splitText] at mem
  generalize text.foldl (Pieces.push max) {} = p at cut mem
  split at mem
  · exact cut.done_fits piece (List.mem_reverse.mp mem)
  · rcases List.mem_cons.mp (List.mem_reverse.mp mem) with rfl | mem
    · exact cut.piece_fits
    · exact cut.done_fits piece mem

theorem splitText_ne_nil (some : 4 ≤ max) {text : String} (nonempty : text ≠ "") :
    splitText max text ≠ [] := by
  intro none
  have joined := join_splitText some text
  rw [none, String.join_nil] at joined
  exact nonempty joined.symm

end LispBridge
