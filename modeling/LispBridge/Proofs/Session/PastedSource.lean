import LispBridge.Proofs.Datum.Pasting
import LispBridge.Proofs.Program.Calls

/-!
Source text that requests pass on to the interpreter.

A compilation checks that its text can be read and evaluates it inside `lisp:progn`; a macro
expansion quotes its text unread. `pasted_source_reads_iff` tells when the command holds the same
forms as the text by itself.
-/

namespace LispBridge

namespace Action

theorem callsFor_compileString {r : Request} {source : String} {forms : List Datum}
    (given : r.strArg 0 = .ok source) (accepted : Datum.readAll source = .ok forms) :
    (compileString r).CallsFor [.eval (prognCommand source)] := by
  have parsed : ((Datum.readAll source).mapError fun fault => Failure.malformed fault.message) =
      .ok forms := by
    rw [accepted]
    rfl
  rw [compileString, ofExcept_ok_bind given, ofExcept_ok_bind parsed]
  refine callsFor_perform_bind fun _ => ?_
  refine callsFor_perform_bind fun _ => ?_
  refine callsFor_then (callsFor_evaluateMarked _) fun ended => ?_
  cases ended with
  | aborted message => exact callsFor_pure _
  | finished =>
    refine callsFor_lift_bind (Program.callsFor_emitAll _) fun _ => ?_
    exact callsFor_perform_bind fun _ => callsFor_pure _

theorem callsFor_expand {r : Request} {form : String} (given : r.strArg 0 = .ok form) :
    (expand r).CallsFor [.command (QueryText.macroexpand form) .internal] := by
  rw [expand, ofExcept_ok_bind given]
  exact callsFor_map (callsFor_askInternal _) _

end Action

open LispBridge.Action Datum

/-- **Pasted source stays one form**, but for two effects. A text that is compiled or expanded
reaches the interpreter as the forms that it holds by itself exactly if it does not end inside a
comment or behind a `#\` without its character, and the lists around it leave room for what it
opens. -/
theorem pasted_source_reads_iff {r : Request} {text : String} (given : r.strArg 0 = .ok text) :
    (∀ forms, readAll text = .ok forms →
      (compileString r).CallsFor [.eval (prognCommand text)] ∧
        (read (prognCommand text) = .ok (.list (.symbol "lisp:progn" :: forms)) ↔
          ¬ EndsOpen text ∧ NestsWithin (maxDepth - 1) text)) ∧
      ∀ d, read text = .ok d →
        (expand r).CallsFor [.command (QueryText.macroexpand text) .internal] ∧
          (read (QueryText.macroexpand text) =
              .ok (.list [.symbol "slime::slime-macroexpand", .list [.symbol "lisp:quote", d]]) ↔
            ¬ EndsOpen text ∧ NestsWithin (maxDepth - 2) text) := by
  constructor
  · intro forms accepted
    exact ⟨callsFor_compileString given accepted, read_prognCommand_iff accepted⟩
  · intro d accepted
    exact ⟨callsFor_expand given, read_macroexpand_iff accepted⟩

/-- A form reaches the interpreter as it is, but not with a comment behind it, which hides the last
parenthesis of the command, and not with `#\` at its end, which becomes another character. -/
theorem pasted_source_reads_of_samples :
    let request (text : String) : Request :=
      { tag := "swank:compile-string-for-emacs", args := [.str text], package := none
        thread := .t, id := 1 }
    let form := Datum.list [.symbol "foo"]
    (readAll "(foo)" = .ok [form] ∧ ¬ EndsOpen "(foo)" ∧ NestsWithin 511 "(foo)" ∧
      (compileString (request "(foo)")).CallsFor [.eval "(lisp:progn (foo))"] ∧
      read "(lisp:progn (foo))" = .ok (.list [.symbol "lisp:progn", form])) ∧
    (readAll "(foo) ; c" = .ok [form] ∧ EndsOpen "(foo) ; c" ∧
      (compileString (request "(foo) ; c")).CallsFor [.eval "(lisp:progn (foo) ; c)"] ∧
      read "(lisp:progn (foo) ; c)" ≠ .ok (.list [.symbol "lisp:progn", form])) ∧
    (read "#\\" = .ok (.symbol "#\\") ∧ EndsOpen "#\\" ∧
      (expand (request "#\\")).CallsFor
        [.command "(slime::slime-macroexpand (lisp:quote #\\))" .internal] ∧
      read "(slime::slime-macroexpand (lisp:quote #\\))" ≠
        .ok (.list [.symbol "slime::slime-macroexpand",
          .list [.symbol "lisp:quote", .symbol "#\\"]])) := by
  intro request form
  have plain := (pasted_source_reads_iff (r := request "(foo)") rfl).1 [form] (by rfl)
  have commented := (pasted_source_reads_iff (r := request "(foo) ; c") rfl).1 [form] (by rfl)
  have character := (pasted_source_reads_iff (r := request "#\\") rfl).2 (.symbol "#\\") (by rfl)
  have comment : EndsOpen "(foo) ; c" := ⟨_, rfl, rfl⟩
  have awaits : EndsOpen "#\\" := ⟨_, rfl, rfl⟩
  have whole : read "(lisp:progn (foo))" = .ok (.list [.symbol "lisp:progn", form]) := by rfl
  obtain ⟨complete, nests⟩ := plain.2.mp whole
  refine ⟨⟨by rfl, complete, nests, plain.1, whole⟩, ⟨by rfl, comment, commented.1, ?_⟩,
    ⟨by rfl, awaits, character.1, ?_⟩⟩
  · exact fun back => (commented.2.mp back).1 comment
  · exact fun back => (character.2.mp back).1 awaits

end LispBridge
