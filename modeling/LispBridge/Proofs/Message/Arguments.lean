import LispBridge.Message.Argument
import LispBridge.Proofs.Datum.Innermost
import LispBridge.Proofs.Datum.Reprinting

/-!
What the arguments of a request can be.

A payload is a list around a list around the arguments, so the arguments are sturdy with two
constructs open around them (`sturdy_of_payload`). Sturdiness is inherited by everything in a value,
so the lists that a cursor is in are sturdy as well (`Sturdy.scope`).
-/

namespace LispBridge

namespace Datum

variable {k : Nat} {d : Datum}

theorem Sturdy.elements {ds : List Datum} (sturdy : Sturdy k (.list ds)) :
    ∀ x ∈ ds, Sturdy (k + 1) x := by
  cases sturdy with
  | list _ _ elements => exact elements

/-- The elements of the scope that the search finds are sturdy. -/
theorem Sturdy.scope (sturdy : Sturdy k d) {s : Scope} (found : d.scope = some s) :
    ∀ x ∈ s.items, Sturdy (k + 1) x := by
  obtain ⟨depth, deeper, within⟩ :=
    holds_in_scope (P := Sturdy) (fun _ _ => Sturdy.elements) sturdy found
  intro x mem
  exact (within.elements x mem).mono (Nat.succ_le_succ deeper)

theorem Sturdy.unquote (sturdy : Sturdy k d) : Sturdy k d.unquote := by
  unfold Datum.unquote
  split
  · split
    · exact (sturdy.elements _ (by simp)).mono (Nat.le_succ k)
    · exact sturdy
  · exact sturdy

end Datum

open Datum

theorem eq_list_of_asList? {d x : Datum} {ds : List Datum} (listed : d.asList? = some (x :: ds)) :
    d = .list (x :: ds) := by
  cases d with
  | list items =>
    obtain rfl := Option.some.inj listed
    rfl
  | nil => cases listed
  | _ => cases listed

theorem Request.form_of_ofElements {elements : List Datum} {r : Request}
    (read : Request.ofElements elements = .ok r) : ∃ tag, .list (tag :: r.args) ∈ elements := by
  unfold Request.ofElements at read
  split at read
  · split at read
    · cases read
    split at read
    · cases read
    · cases read
    · next listed =>
      split at read
      · cases read
      · rw [← Except.ok.inj read, eq_list_of_asList? listed]
        exact ⟨_, List.mem_cons_self⟩
  · cases read

/-- A payload that is read as a request is a list with its kind in front, and the arguments are in a
list in it. -/
theorem ofPayload_eq_request {payload : String} {r : Request}
    (received : Inbound.ofPayload payload = .ok (.request r)) :
    ∃ elements tag, Datum.read payload = .ok (.list (.symbol ":emacs-rex" :: elements)) ∧
      .list (tag :: r.args) ∈ elements := by
  unfold Inbound.ofPayload at received
  split at received
  · next d accepted =>
    unfold Inbound.ofDatum at received
    split at received
    · cases received
    · cases received
    · next kind elements listed =>
      obtain rfl := eq_list_of_asList? listed
      unfold Inbound.ofKind at received
      split at received
      · next isRequest =>
        subst isRequest
        cases read : Request.ofElements elements with
        | error fault =>
          rw [read] at received
          cases received
        | ok r' =>
          rw [read] at received
          obtain rfl := Inbound.request.inj (Except.ok.inj received)
          obtain ⟨tag, form⟩ := Request.form_of_ofElements read
          exact ⟨elements, tag, accepted, form⟩
      split at received
      · split at received <;> cases received
      split at received
      · split at received <;> cases received
      · cases received
    · cases received
  · cases received

/-- The arguments of a request stand in two lists. -/
theorem sturdy_of_payload {payload : String} {r : Request}
    (received : Inbound.ofPayload payload = .ok (.request r)) : ∀ d ∈ r.args, Sturdy 2 d := by
  obtain ⟨elements, tag, accepted, form⟩ := ofPayload_eq_request received
  rcases sturdy_of_read accepted with sturdy | character | dangling
  · intro d mem
    have inner := sturdy.elements _ (List.mem_cons_of_mem _ form)
    exact inner.elements d (List.mem_cons_of_mem _ mem)
  · cases character
  · have known : ":emacs-rex" ∈ Reader.prefixHeads := by
      cases dangling with
      | character known => exact known
      | wrapped known _ => exact known
    exact absurd known (by decide)

end LispBridge
