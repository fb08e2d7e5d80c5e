import LispBridge.Frame.Basic

/-!
Taking frames from a buffer.

* `Decoded`: everything that one attempt to take a frame can come to. What is not needed for the
  attempt is never looked at (`decode_append`).
* `decodeAll_append`: bytes behind a buffer are decoded as if what the buffer alone comes to had
  been taken first.
* `feed_eq_decodeAll`: a stream in chunks comes to the same as the stream in one piece.
-/

namespace LispBridge.Frame

/-! ### One frame -/

/-- What taking a frame from the front of a buffer comes to. -/
inductive Decoded : List UInt8 → Option (Except FrameFault String) × List UInt8 → Prop
  /-- The header is not complete. -/
  | noHeader {buffer : List UInt8} (short : buffer.length < headerLength) :
      Decoded buffer (none, buffer)
  | badHeader {header rest : List UInt8} (six : header.length = headerLength)
      (bad : announced? header = none) :
      Decoded (header ++ rest) (some (.error (.badHeader header)), header ++ rest)
  /-- The payload is not complete. -/
  | noPayload {header rest : List UInt8} {length : Nat} (six : header.length = headerLength)
      (announces : announced? header = some length) (short : rest.length < length) :
      Decoded (header ++ rest) (none, header ++ rest)
  | frame {header payload rest : List UInt8} (six : header.length = headerLength)
      (announces : announced? header = some payload.length) :
      Decoded (header ++ (payload ++ rest)) (some (payloadOf payload), rest)

theorem Decoded.decode_eq {buffer : List UInt8}
    {result : Option (Except FrameFault String) × List UInt8} (decoded : Decoded buffer result) :
    decode buffer = result := by
  cases decoded with
  | noHeader short => simp [decode, short]
  | badHeader six bad => simp [decode, ← six, bad]
  | noPayload six announces short =>
    have cut := Nat.not_le_of_lt short
    simp [decode, ← six, announces, cut]
  | frame six announces => simp [decode, ← six, announces]

theorem decoded (buffer : List UInt8) : Decoded buffer (decode buffer) := by
  suffices some_outcome : ∃ result, Decoded buffer result by
    obtain ⟨result, outcome⟩ := some_outcome
    rwa [outcome.decode_eq]
  by_cases short : buffer.length < headerLength
  · exact ⟨_, .noHeader short⟩
  · have six : (buffer.take headerLength).length = headerLength := by
      rw [List.length_take]
      omega
    rw [← List.take_append_drop headerLength buffer]
    generalize buffer.take headerLength = header at six
    generalize buffer.drop headerLength = rest
    cases announces : announced? header with
    | none => exact ⟨_, .badHeader six announces⟩
    | some length =>
      by_cases cut : rest.length < length
      · exact ⟨_, .noPayload six announces cut⟩
      · have whole : (rest.take length).length = length := by
          rw [List.length_take]
          omega
        rw [← List.take_append_drop length rest]
        exact ⟨_, .frame six (by rw [announces, whole])⟩

/-- An incomplete frame stays in the buffer. -/
theorem decode_none {buffer left : List UInt8} (waiting : decode buffer = (none, left)) :
    left = buffer := by
  have outcome := waiting ▸ decoded buffer
  cases outcome with
  | noHeader => rfl
  | noPayload => rfl

/-- A frame is never empty. -/
theorem length_decode_ok {buffer rest : List UInt8} {payload : String}
    (taken : decode buffer = (some (.ok payload), rest)) : rest.length < buffer.length := by
  have outcome := decoded buffer
  generalize decode buffer = result at taken outcome
  cases outcome with
  | noHeader => cases taken
  | badHeader => cases taken
  | noPayload => cases taken
  | frame six =>
    rw [← (Prod.mk.inj taken).2]
    simp only [List.length_append, six, headerLength]
    omega

/-- Bytes behind a buffer do not change what has been taken from it. -/
theorem decode_append {buffer rest : List UInt8} {result : Except FrameFault String}
    (taken : decode buffer = (some result, rest)) (more : List UInt8) :
    decode (buffer ++ more) = (some result, rest ++ more) := by
  have outcome := decoded buffer
  generalize decode buffer = pair at taken outcome
  cases outcome with
  | noHeader => cases taken
  | badHeader six bad =>
    cases taken
    rw [List.append_assoc]
    exact (Decoded.badHeader six bad).decode_eq
  | noPayload => cases taken
  | frame six announces =>
    cases taken
    rw [List.append_assoc, List.append_assoc]
    exact (Decoded.frame six announces).decode_eq

/-- At the end of a stream, bytes of an incomplete frame are a fault. -/
theorem decodeEnd_of_waiting {left : List UInt8} (waiting : decode left = (none, left)) :
    decodeEnd left =
      (if left = [] then none else some (.error (.unfinished left.length)), left) := by
  simp only [decodeEnd, waiting, List.isEmpty_iff]

/-! ### All frames of a buffer -/

/-- As many steps as there are bytes are enough. -/
theorem decodeUpTo_eq_decodeAll {n : Nat} {buffer : List UInt8} (enough : buffer.length ≤ n) :
    decodeUpTo n buffer = decodeAll buffer := by
  suffices steps : ∀ n m (buffer : List UInt8), buffer.length ≤ n → buffer.length ≤ m →
      decodeUpTo n buffer = decodeUpTo m buffer from
    steps n buffer.length buffer enough (Nat.le_refl _)
  intro n
  induction n with
  | zero =>
    intro m buffer empty _
    obtain rfl := List.eq_nil_of_length_eq_zero (Nat.le_zero.mp empty)
    cases m with
    | zero => rfl
    | succ m => rfl
  | succ n ih =>
    intro m buffer enough enough'
    cases m with
    | zero =>
      obtain rfl := List.eq_nil_of_length_eq_zero (Nat.le_zero.mp enough')
      rfl
    | succ m =>
      simp only [decodeUpTo]
      split
      · rfl
      · rfl
      · next payload rest taken =>
        have shorter := length_decode_ok taken
        rw [ih m rest (by omega) (by omega)]

theorem decodeAll_of_waiting {buffer : List UInt8} (waiting : decode buffer = (none, buffer)) :
    decodeAll buffer = ([], buffer) := by
  rw [← decodeUpTo_eq_decodeAll (Nat.le_succ _), decodeUpTo, waiting]

theorem decodeAll_of_fault {buffer left : List UInt8} {fault : FrameFault}
    (taken : decode buffer = (some (.error fault), left)) :
    decodeAll buffer = ([.error fault], left) := by
  rw [← decodeUpTo_eq_decodeAll (Nat.le_succ _), decodeUpTo, taken]

theorem decodeAll_of_payload {buffer rest : List UInt8} {payload : String}
    (taken : decode buffer = (some (.ok payload), rest)) :
    decodeAll buffer = (.ok payload :: (decodeAll rest).1, (decodeAll rest).2) := by
  rw [← decodeUpTo_eq_decodeAll (Nat.le_succ _), decodeUpTo, taken]
  simp only [decodeUpTo_eq_decodeAll (Nat.le_of_lt (length_decode_ok taken))]

/-- Induction along the frames of a buffer. -/
theorem frames_induction {motive : List UInt8 → Prop}
    (waiting : ∀ buffer, decode buffer = (none, buffer) → motive buffer)
    (fault : ∀ buffer f left, decode buffer = (some (.error f), left) → motive buffer)
    (payload : ∀ buffer p rest, decode buffer = (some (.ok p), rest) → motive rest → motive buffer)
    (buffer : List UInt8) : motive buffer := by
  induction h : buffer.length using Nat.strongRecOn generalizing buffer with
  | ind n ih =>
    rcases taken : decode buffer with ⟨_ | f | p, rest⟩
    · obtain rfl := decode_none taken
      exact waiting _ taken
    · exact fault _ _ _ taken
    · have shorter := length_decode_ok taken
      exact payload _ _ _ taken (ih rest.length (by omega) rest rfl)

/-- Whether every result is a payload. -/
def faultless (results : List (Except FrameFault String)) : Bool :=
  results.all (·.isOk)

theorem faultless_map_ok (payloads : List String) : faultless (payloads.map .ok) = true := by
  rw [faultless, List.all_map, List.all_eq_true]
  intro payload _
  rfl

/-- Without a fault, frames are taken until none is complete. -/
theorem decode_left (buffer : List UInt8) (ok : faultless (decodeAll buffer).1) :
    decode (decodeAll buffer).2 = (none, (decodeAll buffer).2) := by
  induction buffer using frames_induction with
  | waiting buffer waiting => rwa [decodeAll_of_waiting waiting]
  | fault buffer f left taken =>
    rw [decodeAll_of_fault taken] at ok
    cases ok
  | payload buffer p rest taken ih =>
    rw [decodeAll_of_payload taken] at ok ⊢
    exact ih ok

/-- Bytes behind a buffer join what is left of it, unless it came to a fault. -/
theorem decodeAll_append (buffer more : List UInt8) :
    decodeAll (buffer ++ more) =
      if faultless (decodeAll buffer).1 then
        ((decodeAll buffer).1 ++ (decodeAll ((decodeAll buffer).2 ++ more)).1,
          (decodeAll ((decodeAll buffer).2 ++ more)).2)
      else ((decodeAll buffer).1, (decodeAll buffer).2 ++ more) := by
  induction buffer using frames_induction with
  | waiting buffer waiting =>
    rw [decodeAll_of_waiting waiting]
    rfl
  | fault buffer f left taken =>
    rw [decodeAll_of_fault taken, decodeAll_of_fault (decode_append taken more)]
    rfl
  | payload buffer p rest taken ih =>
    rw [decodeAll_of_payload taken, decodeAll_of_payload (decode_append taken more), ih]
    have tail : faultless (.ok p :: (decodeAll rest).1) = faultless (decodeAll rest).1 := rfl
    simp only [tail]
    split
    · rfl
    · rfl

/-! ### Chunks -/

/-- A stream without a fault comes to the same in chunks as in one piece, wherever it is cut. -/
theorem feed_eq_decodeAll {buffer : List UInt8} (waiting : decode buffer = (none, buffer))
    (chunks : List (List UInt8)) (ok : faultless (decodeAll (buffer ++ chunks.flatten)).1) :
    feed buffer chunks = decodeAll (buffer ++ chunks.flatten) := by
  induction chunks generalizing buffer with
  | nil => rw [feed, List.flatten_nil, List.append_nil, decodeAll_of_waiting waiting]
  | cons chunk chunks ih =>
    rw [List.flatten_cons, ← List.append_assoc, decodeAll_append] at ok ⊢
    by_cases here : faultless (decodeAll (buffer ++ chunk)).1 = true
    · rw [if_pos here] at ok ⊢
      have later : faultless (decodeAll ((decodeAll (buffer ++ chunk)).2 ++ chunks.flatten)).1 := by
        rw [faultless, List.all_append, Bool.and_eq_true] at ok
        exact ok.2
      have fed := ih (decode_left _ here) later
      have go_on : (decodeAll (buffer ++ chunk)).1.all (·.isOk) = true := here
      simp only [feed, go_on, if_true, fed]
    · rw [if_neg here] at ok
      exact absurd ok here

end LispBridge.Frame
