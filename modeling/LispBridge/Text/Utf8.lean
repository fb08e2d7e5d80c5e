/-!
UTF-8: decoding bytes one at a time, with the place and length of the first fault.

* `Utf8.decode`: the characters, or the first fault.
* `Utf8.decodeLossy`: every fault replaced by one U+FFFD.
* `Utf8.byteLength`: how many bytes characters take.
* `Utf8.dropBytes?`, `Utf8.takeBytes?`: characters cut at a byte that is between two of them.
-/

namespace LispBridge.Utf8

/-! ### One character -/

/-- A character of which only the first bytes have been read: the bits they hold, and the range
that each byte still missing may come from. -/
structure Partial where
  bits : Nat
  missing : List (Nat × Nat)
deriving DecidableEq, Repr

/-- The range of an ordinary continuation byte. -/
def continuation : Nat × Nat := (0x80, 0xbf)

/-- What a first byte announces. The second byte is restricted where it would otherwise spell a
character too long, a surrogate, or a number above U+10FFFF. -/
def lead (b : Nat) : Option Partial :=
  if b < 0x80 then some ⟨b, []⟩
  else if b < 0xc2 then none
  else if b < 0xe0 then some ⟨b - 0xc0, [continuation]⟩
  else if b = 0xe0 then some ⟨0, [(0xa0, 0xbf), continuation]⟩
  else if b = 0xed then some ⟨0xd, [(0x80, 0x9f), continuation]⟩
  else if b < 0xf0 then some ⟨b - 0xe0, [continuation, continuation]⟩
  else if b = 0xf0 then some ⟨0, [(0x90, 0xbf), continuation, continuation]⟩
  else if b < 0xf4 then some ⟨b - 0xf0, [continuation, continuation, continuation]⟩
  else if b = 0xf4 then some ⟨4, [(0x80, 0x8f), continuation, continuation]⟩
  else none

/-- The bytes that a character takes. -/
def charLength (c : Char) : Nat :=
  c.utf8Size

/-- The bytes that characters take. -/
def byteLength (cs : List Char) : Nat :=
  cs.foldl (fun n c => n + charLength c) 0

/-! ### Cutting at a byte -/

/-- The characters behind the first `n` bytes, if these bytes are whole characters. -/
def dropBytes? : Nat → List Char → Option (List Char)
  | 0, cs => some cs
  | _ + 1, [] => none
  | n + 1, c :: cs =>
    if charLength c ≤ n + 1 then dropBytes? (n + 1 - charLength c) cs else none

/-- The characters in the first `n` bytes, if these bytes are whole characters. -/
def takeBytes? : Nat → List Char → Option (List Char)
  | 0, _ => some []
  | _ + 1, [] => none
  | n + 1, c :: cs =>
    if charLength c ≤ n + 1 then (takeBytes? (n + 1 - charLength c) cs).map (c :: ·) else none

/-! ### Faults -/

/-- Why bytes are not UTF-8. `index` is the length of the part before the fault. -/
inductive Fault where
  /-- `length` bytes at `index` that no continuation can make a character. -/
  | invalid (length index : Nat)
  /-- The input ends inside a character. -/
  | incomplete (index : Nat)
deriving DecidableEq, Repr

def Fault.message : Fault → String
  | .invalid length index => s!"invalid utf-8 sequence of {length} bytes from index {index}"
  | .incomplete index => s!"incomplete utf-8 byte sequence from index {index}"

/-! ### Decoding -/

/-- What has been decoded: whole characters, last first, the bytes they took, and the character
that has been begun with the number of its bytes read so far. -/
structure State where
  chars : List Char := []
  index : Nat := 0
  begun : Option (Partial × Nat) := none
deriving DecidableEq, Repr

/-- Takes the bits so far for a character once no byte is missing. -/
def State.continueWith (s : State) (p : Partial) (read : Nat) : State :=
  match p.missing with
  | [] => { chars := Char.ofNat p.bits :: s.chars, index := s.index + read }
  | _ :: _ => { s with begun := some (p, read) }

/-- Reads the first byte of a character. -/
def State.start (s : State) (b : Nat) : Except Nat State :=
  match lead b with
  | some p => .ok (({ s with begun := none }).continueWith p 1)
  | none => .error 1

/-- Reads one byte. A fault is reported by the number of bytes it spans. -/
def State.push (s : State) (b : Nat) : Except Nat State :=
  match s.begun with
  | none => s.start b
  | some (p, read) =>
    match p.missing with
    | [] => s.start b
    | (lo, hi) :: missing =>
      if lo ≤ b ∧ b ≤ hi then
        .ok (s.continueWith ⟨p.bits * 64 + (b - 0x80), missing⟩ (read + 1))
      else .error read

/-- Reads bytes until the first fault. -/
def State.run (s : State) : List UInt8 → Except Fault State
  | [] => .ok s
  | b :: bs =>
    match s.push b.toNat with
    | .ok s => s.run bs
    | .error length => .error (.invalid length s.index)

/-- The characters that bytes spell, or the first fault. -/
def decode (bytes : List UInt8) : Except Fault (List Char) :=
  match State.run {} bytes with
  | .error fault => .error fault
  | .ok s => if s.begun.isSome then .error (.incomplete s.index) else .ok s.chars.reverse

/-- Notes a fault as U+FFFD and forgets the character that had been begun. -/
def State.replace (s : State) : State :=
  { s with chars := '\ufffd' :: s.chars, begun := none }

/-- Reads one byte; a byte that breaks off a character may be the first of another. -/
def State.pushLossy (s : State) (b : Nat) : State :=
  match s.push b with
  | .ok s => s
  | .error _ =>
    if s.begun.isNone then s.replace
    else
      match s.replace.push b with
      | .ok s => s
      | .error _ => s.replace.replace

/-- The characters that bytes spell, each fault replaced by U+FFFD. -/
def decodeLossy (bytes : List UInt8) : List Char :=
  let s := bytes.foldl (fun s b => s.pushLossy b.toNat) ({} : State)
  (if s.begun.isSome then s.replace else s).chars.reverse

/-- The bytes of a text. -/
def encode (s : String) : List UInt8 :=
  s.toUTF8.toList

end LispBridge.Utf8
