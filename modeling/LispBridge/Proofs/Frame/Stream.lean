import LispBridge.Proofs.Frame.Decode
import LispBridge.Proofs.Frame.Header

/-!
Payloads survive being framed: the frames of a list of payloads, one behind the other, are decoded
as that list, wherever the stream is cut.

* `decode_bytesOf_append`, `decode_of_strictPrefix`: a frame is taken once it is complete, and not
  before.
* `Received`: how much of a stream has been received, as a number of complete frames and a part of
  the next one.
* `decodes_in_chunks`: what a stream in chunks comes to, at its end and at any cut before it.
-/

namespace LispBridge.Frame

variable {payload : String} {payloads : List String} {received : List UInt8}

/-! ### One frame -/

/-- The bytes of the frame of a payload. -/
def bytesOf (payload : String) : List UInt8 :=
  (encode [] payload).2

/-- The frames of payloads, one behind the other. -/
def stream (payloads : List String) : List UInt8 :=
  payloads.flatMap bytesOf

theorem encode_of_fits (fits : payload.utf8ByteSize ≤ maxPayload) (buffer : List UInt8) :
    encode buffer payload =
      (.ok (), buffer ++ (Utf8.encode (headerOf payload.utf8ByteSize) ++ Utf8.encode payload)) := by
  simp only [encode, ofPayload, if_pos fits, text, Utf8.encode_append]

/-- A payload that no header can announce leaves the buffer as it is. -/
theorem encode_of_tooLong (long : maxPayload < payload.utf8ByteSize) (buffer : List UInt8) :
    encode buffer payload = (.error (.tooLong payload.utf8ByteSize), buffer) := by
  simp only [encode, ofPayload, if_neg (Nat.not_le_of_lt long)]

theorem bytesOf_of_fits (fits : payload.utf8ByteSize ≤ maxPayload) :
    bytesOf payload =
      Utf8.encode (headerOf payload.utf8ByteSize) ++ Utf8.encode payload := by
  rw [bytesOf, encode_of_fits fits, List.nil_append]

theorem payloadOf_encode (payload : String) : payloadOf (Utf8.encode payload) = .ok payload := by
  rw [payloadOf, Utf8.decode_encode]
  simp only [String.ofList_toList]

/-- A complete frame is taken whole, and nothing behind it. -/
theorem decode_bytesOf_append (fits : payload.utf8ByteSize ≤ maxPayload) (rest : List UInt8) :
    decode (bytesOf payload ++ rest) = (some (.ok payload), rest) := by
  have announces : announced? (Utf8.encode (headerOf payload.utf8ByteSize)) =
      some (Utf8.encode payload).length := by
    rw [Utf8.length_encode, announced?_encode_headerOf fits]
  rw [bytesOf_of_fits fits, List.append_assoc,
    (Decoded.frame (length_encode_headerOf fits) announces).decode_eq, payloadOf_encode]

/-- A frame is not taken before its last byte is there. -/
theorem decode_of_strictPrefix (fits : payload.utf8ByteSize ≤ maxPayload) {left : List UInt8}
    (front : left <+: bytesOf payload) (cut : left ≠ bytesOf payload) :
    decode left = (none, left) := by
  have six := length_encode_headerOf fits
  have shorter : left.length < (bytesOf payload).length :=
    Nat.lt_of_le_of_ne front.length_le fun same => cut (front.eq_of_length same)
  rw [bytesOf_of_fits fits] at front shorter
  by_cases short : left.length < headerLength
  · exact (Decoded.noHeader short).decode_eq
  · obtain ⟨rest, rfl⟩ : Utf8.encode (headerOf payload.utf8ByteSize) <+: left :=
      List.prefix_of_prefix_length_le (List.prefix_append _ _) front (by omega)
    apply Decoded.decode_eq
    apply Decoded.noPayload six (announced?_encode_headerOf fits)
    rw [List.length_append, List.length_append, Utf8.length_encode payload] at shorter
    omega

/-! ### Parts of a stream -/

theorem stream_append (ps qs : List String) : stream (ps ++ qs) = stream ps ++ stream qs :=
  List.flatMap_append

theorem stream_cons (p : String) (ps : List String) : stream (p :: ps) = bytesOf p ++ stream ps :=
  List.flatMap_cons

/-- A stream begins with the frames of its first payloads. -/
theorem stream_take_of_le (payloads : List String) {k n : Nat} (le : k ≤ n) :
    stream (payloads.take k) <+: stream (payloads.take n) := by
  obtain ⟨more, split⟩ := List.take_prefix_take_left (l := payloads) le
  exact ⟨stream more, by rw [← stream_append, split]⟩

/-- What has been received of a stream: its first `n` frames, and of the next one so much that it
is not complete. Behind the last frame there is nothing. -/
structure Received (payloads : List String) (received : List UInt8) (n : Nat)
    (left : List UInt8) : Prop where
  bound : n ≤ payloads.length
  split : received = stream (payloads.take n) ++ left
  part : ∀ p, payloads[n]? = some p → left <+: bytesOf p ∧ left ≠ bytesOf p
  finished : payloads[n]? = none → left = []

/-- Whatever has been received of a stream is some complete frames and a part of the next. -/
theorem exists_received (front : received <+: stream payloads) :
    ∃ n left, Received payloads received n left := by
  induction payloads generalizing received with
  | nil =>
    obtain rfl := List.prefix_nil.mp front
    exact ⟨0, [], Nat.le_refl 0, rfl, nofun, fun _ => rfl⟩
  | cons p ps ih =>
    rw [stream_cons] at front
    by_cases complete : bytesOf p <+: received
    · obtain ⟨rest, rfl⟩ := complete
      obtain ⟨n, left, bound, split, part, finished⟩ := ih ((List.prefix_append_right_inj _).mp front)
      refine ⟨n + 1, left, Nat.succ_le_succ bound, ?_, part, finished⟩
      rw [split, List.take_succ_cons, stream_cons, List.append_assoc]
    · refine ⟨0, received, Nat.zero_le _, rfl, ?_, nofun⟩
      intro q first
      obtain rfl : p = q := Option.some.inj first
      refine ⟨?_, ?_⟩
      · rcases List.prefix_or_prefix_of_prefix front (List.prefix_append _ _) with inside | beyond
        · exact inside
        · exact absurd beyond complete
      · intro same
        exact complete (same ▸ List.prefix_refl _)

namespace Received

variable {left : List UInt8} {n : Nat}

/-- The frames that are complete in what has been received are the first `n`. -/
theorem le_iff (r : Received payloads received n left) {k : Nat} (bound : k ≤ payloads.length) :
    k ≤ n ↔ stream (payloads.take k) <+: received := by
  constructor
  · intro le
    rw [r.split]
    exact (stream_take_of_le payloads le).trans (List.prefix_append _ _)
  · intro complete
    by_contra beyond
    have inside : n < payloads.length := by omega
    have next : payloads[n]? = some payloads[n] := List.getElem?_eq_getElem inside
    obtain ⟨front, cut⟩ := r.part _ next
    have frame : bytesOf payloads[n] <+: left := by
      have whole := (stream_take_of_le payloads (by omega : n + 1 ≤ k)).trans complete
      rw [List.take_succ_eq_append_getElem inside, stream_append, r.split,
        List.prefix_append_right_inj] at whole
      simpa [stream] using whole
    exact cut (front.eq_of_length_le frame.length_le)

/-- Nothing of a next frame has been received just if what has been received ends with a frame. -/
theorem left_eq_nil_iff (r : Received payloads received n left) :
    left = [] ↔ ∃ k, stream (payloads.take k) = received := by
  constructor
  · intro none_left
    exact ⟨n, by rw [r.split, none_left, List.append_nil]⟩
  · rintro ⟨k, ends⟩
    have capped : payloads.take (min k payloads.length) = payloads.take k := by simp
    have whole : stream (payloads.take (min k payloads.length)) = received := by
      rw [capped, ends]
    have le : min k payloads.length ≤ n :=
      (r.le_iff (Nat.min_le_right _ _)).mpr (whole ▸ List.prefix_refl _)
    have short := (stream_take_of_le payloads le).length_le
    rw [whole, r.split, List.length_append] at short
    exact List.eq_nil_of_length_eq_zero (by omega)

theorem decode_left (r : Received payloads received n left)
    (fits : ∀ p ∈ payloads, p.utf8ByteSize ≤ maxPayload) : decode left = (none, left) := by
  cases next : payloads[n]? with
  | none =>
    rw [r.finished next]
    rfl
  | some p =>
    obtain ⟨front, cut⟩ := r.part p next
    exact decode_of_strictPrefix (fits p (List.mem_of_getElem? next)) front cut

/-- The complete frames are taken, and what has been received of the next one is left. -/
theorem decodeAll_eq (r : Received payloads received n left)
    (fits : ∀ p ∈ payloads, p.utf8ByteSize ≤ maxPayload) :
    decodeAll received = ((payloads.take n).map .ok, left) := by
  rw [r.split]
  have some_fit : ∀ p ∈ payloads.take n, p.utf8ByteSize ≤ maxPayload :=
    fun p mem => fits p (List.mem_of_mem_take mem)
  generalize payloads.take n = ps at some_fit
  induction ps with
  | nil => exact decodeAll_of_waiting (r.decode_left fits)
  | cons p ps ih =>
    have taken := decode_bytesOf_append (some_fit p List.mem_cons_self) (stream ps ++ left)
    have others := ih fun q mem => some_fit q (List.mem_cons_of_mem p mem)
    rw [stream_cons, List.append_assoc, decodeAll_of_payload taken, others]
    rfl

/-- It makes no difference in which chunks it has been received. -/
theorem feed_eq (r : Received payloads received n left)
    (fits : ∀ p ∈ payloads, p.utf8ByteSize ≤ maxPayload) {chunks : List (List UInt8)}
    (joined : chunks.flatten = received) :
    feed [] chunks = ((payloads.take n).map .ok, left) := by
  have all := r.decodeAll_eq fits
  have ok : faultless (decodeAll ([] ++ chunks.flatten)).1 := by
    rw [List.nil_append, joined, all]
    exact faultless_map_ok _
  rw [feed_eq_decodeAll rfl chunks ok, List.nil_append, joined, all]

end Received

/-! ### Whole streams -/

/-- What decoding a stream of frames in chunks comes to. -/
theorem decodes_in_chunks (payloads : List String)
    (fits : ∀ p ∈ payloads, p.utf8ByteSize ≤ maxPayload) :
    (∀ p ∈ payloads, ∀ buffer, encode buffer p = (.ok (), buffer ++ bytesOf p)) ∧
    (∀ chunks, chunks.flatten = stream payloads →
      feed [] chunks = (payloads.map .ok, []) ∧ decodeEnd [] = (none, [])) ∧
    (∀ chunks, chunks.flatten <+: stream payloads → chunks.flatten ≠ stream payloads →
      ∃ n ≤ payloads.length, ∃ left, feed [] chunks = ((payloads.take n).map .ok, left) ∧
        (∀ k ≤ payloads.length, k ≤ n ↔ stream (payloads.take k) <+: chunks.flatten) ∧
        (decodeEnd left = (none, left) ↔ ∃ k, stream (payloads.take k) = chunks.flatten) ∧
        ((∃ fault text, decodeEnd left = (some (.error fault), left) ∧
            fault.failure = .framing text) ↔
          ∀ k, stream (payloads.take k) ≠ chunks.flatten)) ∧
    ∀ buffer p, maxPayload < p.utf8ByteSize →
      encode buffer p = (.error (.tooLong p.utf8ByteSize), buffer) := by
  refine ⟨?_, ?_, ?_, ?_⟩
  · intro p mem buffer
    rw [encode_of_fits (fits p mem), bytesOf_of_fits (fits p mem)]
  · intro chunks whole
    refine ⟨?_, rfl⟩
    have r : Received payloads (stream payloads) payloads.length [] :=
      ⟨Nat.le_refl _, by simp, by simp, fun _ => rfl⟩
    rw [r.feed_eq fits whole, List.take_length]
  · intro chunks front _
    obtain ⟨n, left, r⟩ := exists_received front
    have ended := decodeEnd_of_waiting (r.decode_left fits)
    refine ⟨n, r.bound, left, r.feed_eq fits rfl, fun k => r.le_iff, ?_, ?_⟩
    · rw [← r.left_eq_nil_iff, ended]
      by_cases nothing : left = []
      · simp [nothing]
      · simp [nothing]
    · rw [← not_exists, ← r.left_eq_nil_iff, ended]
      by_cases nothing : left = []
      · simp [nothing]
      · simp [nothing, FrameFault.failure]
  · intro buffer p long
    exact encode_of_tooLong long buffer

/-- A chunk may be empty, and end inside a header or inside a character. -/
theorem decodes_in_chunks_of_lambda :
    (∀ p ∈ ["λ", ""], p.utf8ByteSize ≤ maxPayload) ∧
      feed [] [[0x30, 0x30, 0x30], [], [0x30, 0x30, 0x32, 0xce], [0xbb, 0x30, 0x30],
        [0x30, 0x30, 0x30, 0x30]] = ([.ok "λ", .ok ""], []) := by
  have fits : ∀ p ∈ ["λ", ""], p.utf8ByteSize ≤ maxPayload := by decide
  have joined : [[0x30, 0x30, 0x30], [], [0x30, 0x30, 0x32, 0xce], [0xbb, 0x30, 0x30],
      [0x30, 0x30, 0x30, 0x30]].flatten = stream ["λ", ""] := by
    simp only [stream, List.flatMap_cons, List.flatMap_nil, bytesOf_of_fits (fits "λ" (by decide)),
      bytesOf_of_fits (fits "" (by decide)), Utf8.encode_eq]
    decide +kernel
  exact ⟨fits, ((decodes_in_chunks _ fits).2.1 _ joined).1⟩

end LispBridge.Frame
