import Mathlib.Data.List.Forall2
import LispBridge.Proofs.Datum.Spelling
import LispBridge.Proofs.Frame.Pieces
import LispBridge.Proofs.Frame.Stream

/-!
The writer loses nothing and keeps the order.

* `Carries`: which payloads stand for a message.
* `exists_carries`: the frames of a message are those of such payloads.
* `accepted_writeFrames`: what a sink accepts of some frames, by how much room it has.
* `delivers_in_order`: what a reader makes of everything that was written, and what a sink with
  little room accepts of it.
-/

namespace LispBridge

open Datum

/-! ### Sizes of payloads -/

theorem utf8ByteSize_eq (s : String) : s.utf8ByteSize = (s.toList.map Char.utf8Size).sum := by
  rw [← String.ofList_toList (s := s), String.toList_ofList]
  induction s.toList with
  | nil => rfl
  | cons c cs ih =>
    rw [String.ofList_cons, String.utf8ByteSize_append, ih, String.utf8ByteSize_singleton,
      List.map_cons, List.sum_cons]

/-- Escapes at most double a text. -/
theorem size_escape_le (cs : List Char) :
    ((cs.flatMap escapeChar).map Char.utf8Size).sum ≤ 2 * (cs.map Char.utf8Size).sum := by
  induction cs with
  | nil => exact Nat.le_refl 0
  | cons c cs ih =>
    have one : ((escapeChar c).map Char.utf8Size).sum ≤ 2 * c.utf8Size := by
      rw [escapeChar]
      split
      · next special =>
        rcases special with rfl | rfl
        · decide
        · decide
      · simp
        omega
    simp only [List.flatMap_cons, List.map_append, List.sum_append, List.map_cons, List.sum_cons]
    omega

theorem size_output_le (text : String) (isResult : Bool) :
    (Response.event (.writeString text isResult)).payload.utf8ByteSize ≤
      31 + 2 * text.utf8ByteSize := by
  have doubled := size_escape_le text.toList
  have chars : (Response.event (.writeString text isResult)).payload.toList =
      "(:write-string \"".toList ++ text.toList.flatMap escapeChar ++
        (if isResult then "\" :repl-result)".toList else "\")".toList) := by
    show Datum.chars .wire _ = _
    simp only [Response.datum, Event.datum, chars_list_cons, keyword, chars_symbol, itemChars_cons,
      chars_str]
    cases isResult with
    | true => simp [itemChars_cons]
    | false => simp
  rw [utf8ByteSize_eq, chars, utf8ByteSize_eq text]
  simp only [List.map_append, List.sum_append]
  have front : (("(:write-string \"".toList).map Char.utf8Size).sum = 16 := by decide
  have back : ((if isResult then "\" :repl-result)".toList else "\")".toList).map
      Char.utf8Size).sum ≤ 15 := by
    cases isResult with
    | true => decide
    | false => decide
  omega

/-- The payload that replaces a result which is too large. -/
def tooLargePayload (id : RequestId) : String :=
  "(:return (:abort \"response too large\") " ++ String.ofList (renderInt id.toInt) ++ ")"

theorem payload_tooLarge (id : RequestId) :
    (Response.result (.abort (some "response too large")) id).payload = tooLargePayload id := by
  have plain : "response too large".toList.flatMap escapeChar = "response too large".toList := by
    decide
  have chars : (Response.result (.abort (some "response too large")) id).payload.toList =
      Datum.chars .wire (Response.result (.abort (some "response too large")) id).datum := rfl
  apply String.toList_inj.mp
  rw [chars]
  unfold tooLargePayload
  simp only [Response.datum, Verdict.datum, ofText?, chars_list_cons, keyword, chars_symbol,
    itemChars_cons, itemChars_nil, chars_str, chars_int, plain, String.toList_append,
    String.toList_ofList]
  simp

theorem length_renderInt_le (n : Int64) : (renderInt n.toInt).length ≤ 20 := by
  have bound : n.toInt.natAbs < 10 ^ 19 := by
    have := n.minValue_le_toInt
    have := n.toInt_le
    have : Int64.minValue.toInt = -(2 ^ 63) := rfl
    have : Int64.maxValue.toInt = 2 ^ 63 - 1 := rfl
    omega
  have few : (digits n.toInt.natAbs).length ≤ 19 :=
    (Nat.length_toDigits_le_iff (by omega) (by omega)).mpr bound
  rw [renderInt]
  split
  · rw [List.length_cons]
    omega
  · omega

theorem size_tooLarge_le (id : RequestId) :
    (tooLargePayload id).utf8ByteSize ≤ Frame.maxPayload := by
  have few := length_renderInt_le id
  have small : ((renderInt id.toInt).map Char.utf8Size).sum ≤ (renderInt id.toInt).length * 4 := by
    refine List.sum_le_card_nsmul _ 4 ?_ |>.trans ?_
    · intro n mem
      obtain ⟨c, _, rfl⟩ := List.mem_map.mp mem
      exact c.utf8Size_le_four
    · simp
  have front : "(:return (:abort \"response too large\") ".utf8ByteSize = 39 := by decide
  have back : ")".utf8ByteSize = 1 := by decide
  unfold tooLargePayload
  rw [String.utf8ByteSize_append, String.utf8ByteSize_append, front, back,
    utf8ByteSize_eq (String.ofList _), String.toList_ofList, Frame.maxPayload]
  omega

/-! ### Frames of messages -/

/-- The payloads that stand for a message: the output that it brings in one or more parts, the
message itself, or what is sent in place of a message that no frame can hold. -/
inductive Carries : Response → List String → Prop
  | output {text : String} {isResult : Bool} {parts : List String} (some : parts ≠ [])
      (joined : String.join parts = text) :
      Carries (.event (.writeString text isResult))
        (parts.map fun part => (Response.event (.writeString part isResult)).payload)
  | result {verdict : Verdict} {id : RequestId}
      (fits : (Response.result verdict id).payload.utf8ByteSize ≤ Frame.maxPayload) :
      Carries (.result verdict id) [(Response.result verdict id).payload]
  | resultTooLarge {verdict : Verdict} {id : RequestId}
      (large : Frame.maxPayload < (Response.result verdict id).payload.utf8ByteSize) :
      Carries (.result verdict id) [tooLargePayload id]
  | event {e : Event} (other : ∀ text isResult, e ≠ .writeString text isResult)
      (fits : (Response.event e).payload.utf8ByteSize ≤ Frame.maxPayload) :
      Carries (.event e) [(Response.event e).payload]
  | eventTooLarge {e : Event} (other : ∀ text isResult, e ≠ .writeString text isResult)
      (large : Frame.maxPayload < (Response.event e).payload.utf8ByteSize) :
      Carries (.event e) []

/-- The frame of a payload that fits in one. -/
def Frame.around (payload : String) : Frame :=
  ⟨Frame.headerOf payload.utf8ByteSize, payload⟩

theorem frame?_of_fits {r : Response} (fits : r.payload.utf8ByteSize ≤ Frame.maxPayload) :
    r.frame? = some (Frame.around r.payload) := by
  simp only [Response.frame?, Frame.ofPayload, fits, if_true]
  rfl

theorem frame?_of_large {r : Response} (large : Frame.maxPayload < r.payload.utf8ByteSize) :
    r.frame? = none := by
  simp only [Response.frame?, Frame.ofPayload, Nat.not_le_of_lt large, if_false]
  rfl

theorem fits_output {text : String} (short : text.utf8ByteSize ≤ maxOutput) (isResult : Bool) :
    (Response.event (.writeString text isResult)).payload.utf8ByteSize ≤ Frame.maxPayload := by
  have size := size_output_le text isResult
  simp only [maxOutput, Frame.maxPayload] at short ⊢
  omega

/-- What `frames` puts into frames. -/
structure Framed (r : Response) (payloads : List String) : Prop where
  carries : Carries r payloads
  fit : ∀ payload ∈ payloads, payload.utf8ByteSize ≤ Frame.maxPayload
  frames_eq : r.frames = payloads.map Frame.around

theorem framed_output (text : String) (isResult : Bool) :
    ∃ payloads, Framed (.event (.writeString text isResult)) payloads := by
  by_cases short : text.utf8ByteSize ≤ maxOutput
  · have fits := fits_output short isResult
    refine ⟨_, .output (List.cons_ne_nil text []) (by simp), ?_, ?_⟩
    · intro payload mem
      rwa [List.mem_singleton.mp mem]
    · simp only [Response.frames, short, if_true, frame?_of_fits fits]
      rfl
  · have four : 4 ≤ maxOutput := by decide
    have nonempty : text ≠ "" := by
      rintro rfl
      exact short (Nat.zero_le _)
    have each (piece : String) (mem : piece ∈ splitText maxOutput text) :=
      fits_output (size_of_mem_splitText four mem) isResult
    refine ⟨_, .output (splitText_ne_nil four nonempty) (join_splitText four text), ?_, ?_⟩
    · intro payload mem
      obtain ⟨piece, mem, rfl⟩ := List.mem_map.mp mem
      exact each piece ‹_›
    · have frames := List.filterMap_congr fun piece mem => frame?_of_fits (each piece mem)
      simp only [Response.frames, short, if_false, frames, List.map_map]
      exact congrFun List.filterMap_eq_map _

theorem frames_of_event {e : Event} (other : ∀ text isResult, e ≠ .writeString text isResult) :
    (Response.event e).frames = (Response.event e).frame?.toList := by
  cases e with
  | writeString text isResult => exact absurd rfl (other text isResult)
  | _ => rfl

/-- Every message is put into frames of payloads that stand for it. -/
theorem exists_framed (r : Response) : ∃ payloads, Framed r payloads := by
  have alone {payload : String} (fits : payload.utf8ByteSize ≤ Frame.maxPayload) :
      ∀ p ∈ [payload], p.utf8ByteSize ≤ Frame.maxPayload := by
    intro p mem
    rwa [List.mem_singleton.mp mem]
  cases r with
  | result verdict id =>
    by_cases fits : (Response.result verdict id).payload.utf8ByteSize ≤ Frame.maxPayload
    · refine ⟨_, .result fits, alone fits, ?_⟩
      simp only [Response.frames, frame?_of_fits fits]
      rfl
    · have large := Nat.lt_of_not_le fits
      have fits := size_tooLarge_le id
      refine ⟨_, .resultTooLarge large, alone fits, ?_⟩
      rw [← payload_tooLarge] at fits ⊢
      simp only [Response.frames, frame?_of_large large, frame?_of_fits fits]
      rfl
  | event e =>
    by_cases output : ∃ text isResult, e = .writeString text isResult
    · obtain ⟨text, isResult, rfl⟩ := output
      exact framed_output text isResult
    · have other : ∀ text isResult, e ≠ .writeString text isResult :=
        fun text isResult same => output ⟨text, isResult, same⟩
      by_cases fits : (Response.event e).payload.utf8ByteSize ≤ Frame.maxPayload
      · refine ⟨_, .event other fits, alone fits, ?_⟩
        rw [frames_of_event other, frame?_of_fits fits]
        rfl
      · have large := Nat.lt_of_not_le fits
        refine ⟨[], .eventTooLarge other large, nofun, ?_⟩
        rw [frames_of_event other, frame?_of_large large]
        rfl

/-- The payloads of all frames of some messages, in groups. -/
theorem exists_groups (rs : List Response) :
    ∃ groups, List.Forall₂ Carries rs groups ∧
      (∀ payload ∈ groups.flatten, payload.utf8ByteSize ≤ Frame.maxPayload) ∧
      rs.flatMap Response.frames = groups.flatten.map Frame.around := by
  induction rs with
  | nil => exact ⟨[], .nil, nofun, rfl⟩
  | cons r rs ih =>
    obtain ⟨payloads, framed⟩ := exists_framed r
    obtain ⟨groups, carried, fit, frames⟩ := ih
    refine ⟨payloads :: groups, .cons framed.carries carried, ?_, ?_⟩
    · intro payload mem
      rcases List.mem_append.mp mem with mem | mem
      · exact framed.fit payload mem
      · exact fit payload mem
    · rw [List.flatMap_cons, List.flatten_cons, List.map_append, framed.frames_eq, frames]

/-! ### Sinks -/

/-- The bytes of frames, one behind the other. -/
def Frame.bytes (fs : List Frame) : List UInt8 :=
  fs.flatMap fun f => Utf8.encode f.text

theorem Frame.bytes_cons (f : Frame) (fs : List Frame) :
    bytes (f :: fs) = Utf8.encode f.text ++ bytes fs :=
  rfl

theorem Frame.length_encode_text (f : Frame) : (Utf8.encode f.text).length = f.size := by
  rw [Utf8.length_encode, Frame.text, String.utf8ByteSize_append, Frame.size]

theorem Frame.bytes_around {payloads : List String}
    (fit : ∀ payload ∈ payloads, payload.utf8ByteSize ≤ maxPayload) :
    bytes (payloads.map around) = stream payloads := by
  induction payloads with
  | nil => rfl
  | cons payload payloads ih =>
    obtain ⟨first, others⟩ := List.forall_mem_cons.mp fit
    rw [List.map_cons, bytes_cons, ih others, stream_cons, bytesOf_of_fits first,
      ← Utf8.encode_append]
    rfl

namespace Writer

variable {sink : Sink} {fs : List Frame}

theorem accepted_of_whole (whole : sink.broken = none) :
    sink.accepted = Frame.bytes sink.frames := by
  simp [Sink.accepted, whole, Frame.bytes]

/-- A sink without a limit accepts everything. -/
theorem writeFrames_unlimited (unlimited : sink.room = none) (fs : List Frame) :
    writeFrames sink fs = ({ sink with frames := sink.frames ++ fs }, .ok ()) := by
  induction fs generalizing sink with
  | nil => simp [writeFrames]
  | cons f fs ih =>
    have written : writeFrame sink f = ({ sink with frames := sink.frames ++ [f] }, .ok ()) := by
      rw [writeFrame, unlimited]
    have rest := @ih { sink with frames := sink.frames ++ [f] } unlimited
    rw [writeFrames, written]
    dsimp only
    rw [rest, List.append_assoc, List.singleton_append]

/-- A sink with a limit accepts as many bytes as it has room for, and reports an error if there
are more. -/
theorem accepted_writeFrames {room : Nat} (limited : sink.room = some room)
    (whole : sink.broken = none) (fs : List Frame) :
    (writeFrames sink fs).1.accepted = sink.accepted ++ (Frame.bytes fs).take room ∧
      (writeFrames sink fs).2 =
        if (Frame.bytes fs).length ≤ room then .ok ()
        else .error (.io s!"write failed: {sink.writeError}") := by
  induction fs generalizing sink room with
  | nil => simp [writeFrames, Frame.bytes]
  | cons f fs ih =>
    have size := f.length_encode_text
    rw [Frame.bytes_cons, List.take_append, List.length_append, size]
    by_cases fits : f.size ≤ room
    · let next : Sink := { sink with room := some (room - f.size), frames := sink.frames ++ [f] }
      have written : writeFrame sink f = (next, .ok ()) := by
        rw [writeFrame, limited]
        exact if_pos fits
      have front : next.accepted = sink.accepted ++ Utf8.encode f.text := by
        rw [accepted_of_whole whole, @accepted_of_whole next whole]
        simp [Frame.bytes, next]
      have all : (Utf8.encode f.text).take room = Utf8.encode f.text :=
        List.take_of_length_le (by omega)
      obtain ⟨accepted, result⟩ := @ih next (room - f.size) rfl whole
      rw [writeFrames, written]
      dsimp only
      rw [accepted, result, front, List.append_assoc, all]
      refine ⟨rfl, ?_⟩
      congr 1
      exact propext (by omega)
    · have written : writeFrame sink f =
          ({ sink with room := some 0, broken := some f, spill := room },
            .error (.io s!"write failed: {sink.writeError}")) := by
        rw [writeFrame, limited]
        exact if_neg fits
      have nothing : room - f.size = 0 := by omega
      rw [writeFrames, written, nothing, List.take_zero, List.append_nil, if_neg (by omega),
        accepted_of_whole whole]
      refine ⟨?_, rfl⟩
      simp [Sink.accepted, Frame.bytes]

theorem flushError_writeFrames (sink : Sink) (fs : List Frame) :
    (writeFrames sink fs).1.flushError = sink.flushError := by
  induction fs generalizing sink with
  | nil => rfl
  | cons f fs ih =>
    have kept : (writeFrame sink f).1.flushError = sink.flushError := by
      rw [writeFrame]
      split
      · rfl
      · split
        · rfl
        · rfl
    rw [writeFrames]
    split
    · next next written =>
      rw [written] at kept
      rw [ih, kept]
    · exact kept

theorem writeFrames_append (sink : Sink) (fs gs : List Frame) :
    writeFrames sink (fs ++ gs) =
      match writeFrames sink fs with
      | (sink, .ok ()) => writeFrames sink gs
      | failed => failed := by
  induction fs generalizing sink with
  | nil => rfl
  | cons f fs ih =>
    rw [List.cons_append, writeFrames, writeFrames]
    cases writeFrame sink f with
    | mk next result =>
      cases result with
      | error fault => rfl
      | ok done => exact ih next

/-- If no flush fails, messages are written like the frames that they are put into. -/
theorem run_eq_writeFrames {sink : Sink} (flushes : sink.flushError = none) (rs : List Response) :
    run sink rs = writeFrames sink (rs.flatMap Response.frames) := by
  induction rs generalizing sink with
  | nil => rfl
  | cons r rs ih =>
    have kept := flushError_writeFrames sink r.frames
    rw [List.flatMap_cons, writeFrames_append, run, writeResponse]
    cases written : writeFrames sink r.frames with
    | mk next result =>
      rw [written, flushes] at kept
      cases result with
      | error fault => rfl
      | ok done =>
        dsimp only at kept ⊢
        rw [kept]
        exact ih kept

end Writer

namespace Frame

/-- A stream that has been received whole. -/
theorem received_all (payloads : List String) :
    Received payloads (stream payloads) payloads.length [] :=
  ⟨Nat.le_refl _, by simp, by simp, fun _ => rfl⟩

/-- The writer sends every message as payloads that stand for it, in the order of the messages: a
sink that accepts everything is left with bytes that are decoded as those payloads, in whatever
chunks they arrive. A sink with room for some bytes accepts that many of the same bytes, and the
writer reports an error if there are more. -/
theorem delivers_in_order (rs : List Response) :
    ∃ groups, List.Forall₂ Carries rs groups ∧
      (Writer.run {} rs).2 = .ok () ∧
      (∀ chunks, chunks.flatten = (Writer.run {} rs).1.accepted →
        feed [] chunks = (groups.flatten.map .ok, [])) ∧
      ∀ room text,
        let sink : Sink := { room := some room, writeError := text }
        (Writer.run sink rs).1.accepted = (Writer.run {} rs).1.accepted.take room ∧
          ((∃ detail, (Writer.run sink rs).2 = .error (.io detail)) ↔
            room < (Writer.run {} rs).1.accepted.length) ∧
          ((Writer.run sink rs).2 = .ok () ↔ (Writer.run {} rs).1.accepted.length ≤ room) := by
  obtain ⟨groups, carried, fit, frames⟩ := exists_groups rs
  have whole : Writer.run {} rs =
      ({ frames := groups.flatten.map around }, .ok ()) := by
    rw [Writer.run_eq_writeFrames rfl, Writer.writeFrames_unlimited rfl, frames]
    rfl
  have accepted : (Writer.run {} rs).1.accepted = stream groups.flatten := by
    rw [whole, Writer.accepted_of_whole rfl, bytes_around fit]
  refine ⟨groups, carried, by rw [whole], ?_, ?_⟩
  · intro chunks joined
    rw [accepted] at joined
    rw [(received_all groups.flatten).feed_eq fit joined, List.take_length]
  · intro room text sink
    obtain ⟨part, result⟩ := @Writer.accepted_writeFrames sink room rfl rfl
      (rs.flatMap Response.frames)
    rw [frames, bytes_around fit] at part result
    rw [accepted, Writer.run_eq_writeFrames rfl, frames]
    refine ⟨part, ?_, ?_⟩
    · rw [result, ← Nat.not_le]
      split
      · next enough => simp [enough]
      · next short => simp [short]
    · rw [result]
      split
      · next enough => simp [enough]
      · next short => simp [short]

/-- An event and a result arrive one behind the other. -/
theorem delivers_in_order_of_result :
    feed [] [(Writer.run {} [.event .readString, .result (.abort none) 7]).1.accepted] =
      ([.ok "(:read-string 0 1)", .ok "(:return (:abort nil) 7)"], []) := by
  obtain ⟨groups, carried, _, fed, _⟩ :=
    delivers_in_order [.event .readString, .result (.abort none) 7]
  rw [fed _ (by simp)]
  cases carried with
  | cons first others =>
    cases others with
    | cons second none =>
      cases none
      cases first with
      | event =>
        cases second with
        | result => rfl
        | resultTooLarge large => exact absurd large (by decide)
      | eventTooLarge _ large => exact absurd large (by decide)

end Frame

end LispBridge
