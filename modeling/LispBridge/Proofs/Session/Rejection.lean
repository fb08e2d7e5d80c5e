import LispBridge.Proofs.Message.Salvage
import LispBridge.Session.System

/-!
Payloads that are no messages.

A rejected payload is answered if its id can be recovered, and is ignored otherwise. It stops the
reader in one case only, which `rejection_stops_reading_iff` tells.
-/

namespace LispBridge

open Salvage

variable {payload : String} {fault : MessageFault}

theorem Salvage.ofDatum_ne_splitCharacter (d : Datum) : ofDatum d ≠ .splitCharacter := by
  unfold ofDatum
  split
  · split
    · split <;> simp
    · simp
  · simp

/-- Only a text that the reader rejects is searched for its last token. -/
theorem salvage_eq_splitCharacter_iff :
    salvage payload = .splitCharacter ↔
      (∃ why, Datum.read payload = .error why) ∧ ofText payload = .splitCharacter := by
  unfold salvage
  cases Datum.read payload with
  | ok d => simp [ofDatum_ne_splitCharacter]
  | error why => simp

namespace System

variable {sys : System}

/-- What a rejected payload does is decided by what recovering its id comes to. -/
theorem deliver_of_rejected (sys : System) (rejected : Inbound.ofPayload payload = .error fault) :
    sys.deliver payload =
      match salvage payload with
      | .found id =>
        { sys with session := sys.session.send (.result (.error fault.failure.message) id) }
      | .nothing => sys
      | .splitCharacter => { sys with isReading := false } := by
  unfold deliver
  cases found : salvage payload <;> simp [Delivery.ofPayload, rejected, found]

/-- **Rejecting a payload** goes on with the next one, and answers at most the payload itself, unless
the payload cannot be read and its last token would begin inside a character. -/
theorem rejection_stops_reading_iff (rejected : Inbound.ofPayload payload = .error fault)
    (reading : sys.isReading = true) :
    ((sys.deliver payload).isReading = false ↔
      (∃ why, Datum.read payload = .error why) ∧ ∃ body front separator token,
        HasBody payload body ∧ EndsIn body front separator token ∧
          ¬ String.Pos.Raw.IsValid (String.ofList body)
            ⟨(String.ofList front).utf8ByteSize + 1⟩) ∧
      (∀ body front separator token, EndsIn body front separator token →
        (¬ String.Pos.Raw.IsValid (String.ofList body) ⟨(String.ofList front).utf8ByteSize + 1⟩ ↔
          Text.isBlank separator = true ∧ 1 < separator.utf8Size)) ∧
      (∀ body, HasBody payload body → String.Pos.Raw.IsValid (Text.trim payload) ⟨11⟩) ∧
      ((sys.deliver payload).isReading = true → sys.deliver payload = sys ∨ ∃ id,
        sys.deliver payload =
          { sys with session := sys.session.send (.result (.error fault.failure.message) id) }) := by
  have delivered := deliver_of_rejected sys rejected
  refine ⟨?_, ?_, ?_, ?_⟩
  · rw [← ofText_eq_splitCharacter_iff, ← salvage_eq_splitCharacter_iff, delivered]
    cases salvage payload <;> simp [reading]
  · intro body front separator token ends
    exact ends.not_isValid_iff
  · intro body has
    exact has.isValid_head
  · rw [delivered]
    intro goes
    cases found : salvage payload with
    | found id => exact .inr ⟨id, rfl⟩
    | nothing => exact .inl rfl
    | splitCharacter =>
      rw [found] at goes
      cases goes

/-- An unfinished list in which an ideographic space, of three bytes, stands in front of the last
token stops the reader; with an ordinary space it is answered. -/
theorem rejection_stops_reading_at_wide_space :
    let wide := "(:emacs-rex (\u30001)"
    let plain := "(:emacs-rex ( 1)"
    let fault := MessageFault.unreadable .unterminatedList
    (Inbound.ofPayload wide = .error fault ∧ ((new {}).deliver wide).isReading = false) ∧
      Inbound.ofPayload plain = .error fault ∧ ((new {}).deliver plain).isReading = true ∧
        ((new {}).deliver plain).session.outbox = [.result (.error fault.failure.message) 1] := by
  intro wide plain fault
  have rejected : Inbound.ofPayload wide = .error fault := by decide +kernel
  have unread : Datum.read wide = .error .unterminatedList := by decide +kernel
  have has : HasBody wide "(:emacs-rex (\u30001".toList :=
    ⟨by decide +kernel, "(:emacs-rex (\u30001".toList, by decide +kernel, by decide +kernel⟩
  have ends : EndsIn "(:emacs-rex (\u30001".toList "(:emacs-rex (".toList '\u3000' ['1'] :=
    ⟨rfl, by decide, List.forall_mem_singleton.mpr (by decide)⟩
  have reading : (new {}).isReading = true := rfl
  obtain ⟨stops, inside, -⟩ := rejection_stops_reading_iff rejected reading
  have cut := (inside _ _ _ _ ends).mpr ⟨by decide, by decide⟩
  refine ⟨⟨rejected, stops.mpr ⟨⟨_, unread⟩, _, _, _, _, has, ends, cut⟩⟩, ?_⟩
  decide +kernel

end System

end LispBridge
