import LispBridge.Failure
import LispBridge.Text.Quoted
import LispBridge.Text.Utf8

/-!
Frames: a payload in front of which six hexadecimal digits give the number of its bytes.

* `Frame.ofPayload`: the frame of a payload that six digits can measure.
* `Frame.encode`: puts the frame of a payload at the end of a buffer.
* `Frame.decode`: takes one frame from the front of a buffer that may still grow.
* `Frame.feed`: takes the frames from a stream that arrives in chunks.
* `Frame.take`: takes one frame from a stream that has ended.
-/

namespace LispBridge

/-- A payload with its header. -/
structure Frame where
  header : String
  payload : String
deriving DecidableEq, Repr

/-- Why bytes cannot be framed or unframed. -/
inductive FrameFault where
  /-- The header is not six hexadecimal digits. -/
  | badHeader (raw : List UInt8)
  | notUtf8 (fault : Utf8.Fault)
  /-- The stream ended with part of a frame in the buffer. -/
  | unfinished (bytes : Nat)
  /-- The stream ended inside a header. -/
  | headerCut
  /-- The stream ended inside a payload of this many bytes. -/
  | payloadCut (bytes : Nat)
  /-- No header can announce a payload of this many bytes. -/
  | tooLong (bytes : Nat)
deriving DecidableEq, Repr

namespace Frame

/-- The number of digits in a header. -/
def headerLength : Nat := 6

/-- The largest payload that a header can announce. -/
def maxPayload : Nat := 0xffffff

end Frame

def FrameFault.message : FrameFault → String
  | badHeader raw =>
    s!"invalid length header {Text.quoted (String.ofList (Utf8.decodeLossy raw))}"
  | notUtf8 fault => s!"payload is not utf-8: {fault.message}"
  | unfinished bytes => s!"stream closed with {bytes} bytes of incomplete frame"
  | headerCut => "failed to read header: early eof"
  | payloadCut bytes => s!"failed to read {bytes} byte payload: early eof"
  | tooLong bytes => s!"payload of {bytes} bytes exceeds {Frame.maxPayload}"

/-- A fault of framing is a failure of the connection. -/
def FrameFault.failure (f : FrameFault) : Failure :=
  .framing f.message

namespace Frame

/-! ### Headers -/

/-- The header of a payload: its length in six lower-case hexadecimal digits. -/
def headerOf (length : Nat) : String :=
  let ds := Nat.toDigits 16 length
  String.ofList (List.replicate (headerLength - ds.length) '0' ++ ds)

/-- The value of a hexadecimal digit in either case. -/
def hexValue? (b : UInt8) : Option Nat :=
  let n := b.toNat
  if 0x30 ≤ n ∧ n ≤ 0x39 then some (n - 0x30)
  else if 0x41 ≤ n ∧ n ≤ 0x46 then some (n - 0x41 + 10)
  else if 0x61 ≤ n ∧ n ≤ 0x66 then some (n - 0x61 + 10)
  else none

/-- The length that hexadecimal digits announce. -/
def announced? (header : List UInt8) : Option Nat :=
  header.foldl (fun n b => n.bind fun n => (hexValue? b).map (n * 16 + ·)) (some 0)

/-! ### Frames and bytes -/

def ofPayload (payload : String) : Except FrameFault Frame :=
  let length := payload.utf8ByteSize
  if length ≤ maxPayload then .ok ⟨headerOf length, payload⟩ else .error (.tooLong length)

def text (f : Frame) : String :=
  f.header ++ f.payload

/-- The number of bytes of a frame. -/
def size (f : Frame) : Nat :=
  f.header.utf8ByteSize + f.payload.utf8ByteSize

/-- Puts the frame of a payload at the end of a buffer, which stays as it is if the payload has
none. -/
def encode (buffer : List UInt8) (payload : String) : Except FrameFault Unit × List UInt8 :=
  match ofPayload payload with
  | .ok f => (.ok (), buffer ++ Utf8.encode f.text)
  | .error fault => (.error fault, buffer)

def payloadOf (bytes : List UInt8) : Except FrameFault String :=
  match Utf8.decode bytes with
  | .ok cs => .ok (String.ofList cs)
  | .error fault => .error (.notUtf8 fault)

/-- Whether there are at least so many bytes. Those behind them are not counted. -/
def hasBytes : Nat → List UInt8 → Bool
  | 0, _ => true
  | _ + 1, [] => false
  | n + 1, _ :: bytes => hasBytes n bytes

/-- Bytes are enough if there are no fewer of them. -/
@[simp] theorem hasBytes_eq (n : Nat) (bytes : List UInt8) :
    hasBytes n bytes = decide (n ≤ bytes.length) := by
  induction n generalizing bytes with
  | zero => simp [hasBytes]
  | succ n ih => cases bytes <;> simp [hasBytes, ih]

/-- Takes one frame from the front of a buffer: nothing while it is incomplete. A bad header stays
in the buffer; a payload that is not UTF-8 is taken from it. -/
def decode (buffer : List UInt8) : Option (Except FrameFault String) × List UInt8 :=
  if !hasBytes headerLength buffer then (none, buffer)
  else
    let header := buffer.take headerLength
    match announced? header with
    | none => (some (.error (.badHeader header)), buffer)
    | some length =>
      if !hasBytes (headerLength + length) buffer then (none, buffer)
      else
        let rest := buffer.drop headerLength
        (some (payloadOf (rest.take length)), rest.drop length)

/-- Takes the last frames of a stream that has ended: with nothing left it is over. -/
def decodeEnd (buffer : List UInt8) : Option (Except FrameFault String) × List UInt8 :=
  match decode buffer with
  | (none, buffer) =>
    (if buffer.isEmpty then none else some (.error (.unfinished buffer.length)), buffer)
  | result => result

/-- Takes frames from a buffer until it is incomplete or at fault. The count bounds the frames. -/
def decodeUpTo : Nat → List UInt8 → List (Except FrameFault String) × List UInt8
  | 0, buffer => ([], buffer)
  | n + 1, buffer =>
    match decode buffer with
    | (none, buffer) => ([], buffer)
    | (some (.error fault), buffer) => ([.error fault], buffer)
    | (some (.ok payload), buffer) =>
      let (results, buffer) := decodeUpTo n buffer
      (.ok payload :: results, buffer)

/-- Takes frames from a buffer until it is incomplete or at fault: a frame has at least a header,
so there are no more frames than bytes. -/
def decodeAll (buffer : List UInt8) : List (Except FrameFault String) × List UInt8 :=
  decodeUpTo buffer.length buffer

/-- Adds chunks to a buffer one by one and takes the frames that are complete after each of them,
until one is at fault. -/
def feed (buffer : List UInt8) :
    List (List UInt8) → List (Except FrameFault String) × List UInt8
  | [] => ([], buffer)
  | chunk :: chunks =>
    let (results, buffer) := decodeAll (buffer ++ chunk)
    if results.all (·.isOk) then
      let (more, buffer) := feed buffer chunks
      (results ++ more, buffer)
    else (results, buffer)

/-- Takes one frame from a stream whose bytes are all there. -/
def take (bytes : List UInt8) : Except FrameFault String × List UInt8 :=
  if !hasBytes headerLength bytes then (.error .headerCut, [])
  else
    let header := bytes.take headerLength
    let rest := bytes.drop headerLength
    match announced? header with
    | none => (.error (.badHeader header), rest)
    | some length =>
      if !hasBytes length rest then (.error (.payloadCut length), [])
      else (payloadOf (rest.take length), rest.drop length)

/-- Takes frames from a stream until one fails. The count bounds the frames. -/
def takeUpTo : Nat → List UInt8 → List String × Option FrameFault × List UInt8
  | 0, bytes => ([], none, bytes)
  | n + 1, bytes =>
    match take bytes with
    | (.error fault, bytes) => ([], some fault, bytes)
    | (.ok payload, bytes) =>
      let (payloads, fault, bytes) := takeUpTo n bytes
      (payload :: payloads, fault, bytes)

/-- Takes frames from a stream until one fails, as at the end of the stream one must. -/
def takeAll (bytes : List UInt8) : List String × Option FrameFault × List UInt8 :=
  takeUpTo (bytes.length + 1) bytes

end Frame

end LispBridge
