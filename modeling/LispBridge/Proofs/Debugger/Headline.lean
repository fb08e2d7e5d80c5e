import LispBridge.Proofs.Text.Occurrences
import LispBridge.Session.Restart

/-!
What is reported of a condition once its level is left.

The text of a condition is cut twice: at the first delimiter, and before the last clause of what is
left that says where the condition was raised. A clause behind the delimiter does not count.

* `isBeforeLast_headline`: where a text is cut.
* `headline_cut_at_occurrences`: nothing else is a headline, and it is what the request of a level
  is told.
-/

namespace LispBridge

open Text

theorem isBeforeLast_headline (message delimiter : String) :
    ∃ head, IsBeforeFirst delimiter message head ∧
      IsBeforeLast " in " head (headline message delimiter) := by
  have clause : " in " ≠ "" := by decide
  rw [headline]
  by_cases empty : delimiter = ""
  · have last := isBeforeLast_beforeLast clause message.toList
    rw [String.ofList_toList] at last
    rw [if_pos (String.isEmpty_iff.mpr empty)]
    exact ⟨message, .whole (.inl empty), last⟩
  · have first := isBeforeFirst_beforeFirst empty message.toList
    rw [String.ofList_toList] at first
    rw [if_neg (mt String.isEmpty_iff.mp empty)]
    exact ⟨_, first, isBeforeLast_beforeLast clause _⟩

theorem headline_eq_iff {message delimiter text : String} :
    headline message delimiter = text ↔
      ∃ head, IsBeforeFirst delimiter message head ∧ IsBeforeLast " in " head text := by
  obtain ⟨head, first, last⟩ := isBeforeLast_headline message delimiter
  constructor
  · rintro rfl
    exact ⟨head, first, last⟩
  · rintro ⟨head', first', last'⟩
    obtain rfl := first.unique first'
    exact last.unique last'

theorem exists_eq_headline_append (message delimiter : String) :
    ∃ back, message = headline message delimiter ++ back := by
  obtain ⟨head, first, last⟩ := isBeforeLast_headline message delimiter
  obtain ⟨clause, rfl⟩ := last.exists_append
  obtain ⟨behind, whole⟩ := first.exists_append
  exact ⟨clause ++ behind, by rw [← String.append_assoc, ← whole]⟩

theorem not_occursAt_headline {delimiter : String} (nonempty : delimiter ≠ "") (message : String)
    (n : Nat) : ¬ OccursAt delimiter (headline message delimiter) n := by
  intro occurs
  obtain ⟨head, first, last⟩ := isBeforeLast_headline message delimiter
  obtain ⟨clause, whole⟩ := last.exists_append
  have within := (occurs.of_front nonempty clause).1
  rw [← whole] at within
  exact first.not_occursAt nonempty n within

/-- **A condition's text is cut at the right occurrences.** Its headline is what precedes the last
` in ` within what precedes the first delimiter, wherever these occur in the bytes of the text. The
request of a level that was left is told the headline of the level's message, which is a part of the
message from its start, and contains no delimiter. -/
theorem headline_cut_at_occurrences :
    (∀ message delimiter text, headline message delimiter = text ↔
      ∃ head, IsBeforeFirst delimiter message head ∧ IsBeforeLast " in " head text) ∧
    ∀ (settings : Settings) (l : Level), ∃ text,
      Program.unwoundResult settings l = .result (.abort (some text)) l.id ∧
      (∃ back, l.message = text ++ back) ∧
      (settings.delimiter ≠ "" → ∀ n, ¬ OccursAt settings.delimiter text n) := by
  refine ⟨fun _ _ _ => headline_eq_iff, fun settings l => ⟨_, rfl, ?_, ?_⟩⟩
  · exact exists_eq_headline_append l.message settings.delimiter
  · intro nonempty
    exact not_occursAt_headline nonempty l.message

/-- Two occurrences of ` in ` share a space, and a third one is behind the delimiter. -/
theorem headline_cut_at_overlap :
    let settings : Settings := { delimiter := ";;" }
    let level : Level := ⟨7, "x in in y;; in z", [], false⟩
    (∃ head, IsBeforeFirst ";;" level.message head ∧ IsBeforeLast " in " head "x in") ∧
      Program.unwoundResult settings level = .result (.abort (some "x in")) 7 ∧
      settings.delimiter ≠ "" ∧ ∀ n, ¬ OccursAt settings.delimiter "x in" n := by
  intro settings level
  have told : headline "x in in y;; in z" ";;" = "x in" := by decide +kernel
  obtain ⟨cuts, reports⟩ := headline_cut_at_occurrences
  obtain ⟨text, result, -, unmarked⟩ := reports settings level
  have own : Program.unwoundResult settings level = .result (.abort (some "x in")) 7 :=
    congrArg (fun text => Response.result (.abort (some text)) 7) told
  obtain ⟨rfl, -⟩ : "x in" = text ∧ 7 = level.id := by simpa using own.symm.trans result
  have nonempty : settings.delimiter ≠ "" := by decide
  exact ⟨(cuts _ _ _).mp told, own, nonempty, unmarked nonempty⟩

end LispBridge
