import LispBridge.Text.Utf8

/-!
Splitting a text by a loop that cuts it at bytes.

As long as more than `max` bytes are left, the text is cut behind `max` of them, or behind fewer if
the cut would be inside a character. `splitText` makes the same pieces one character at a time. The
loop is not assumed to end, nor its cuts to succeed: if the search for a cut goes back to the start
of what is left, an empty piece is cut off, and the loop goes on with the same text for ever.

* `lastCut`: where a text is cut.
* `SplitsInto`: the loop ends, with these pieces.
-/

namespace LispBridge.Text

/-- The last byte, up to the `n`th, at which a text can be cut. The search steps back one byte at a
time. -/
def lastCut (cs : List Char) : Nat → Nat
  | 0 => 0
  | n + 1 => if (Utf8.dropBytes? (n + 1) cs).isSome then n + 1 else lastCut cs n

/-- The loop over a text ends, and these are its pieces. -/
inductive SplitsInto (max : Nat) : List Char → List String → Prop
  /-- Nothing is left for a last piece. -/
  | nothing : SplitsInto max [] []
  | last {cs : List Char} (nonempty : cs ≠ []) (fits : Utf8.byteLength cs ≤ max) :
      SplitsInto max cs [String.ofList cs]
  /-- One round of the loop. -/
  | cut {cs front back : List Char} {pieces : List String} (long : max < Utf8.byteLength cs)
      (before : Utf8.takeBytes? (lastCut cs max) cs = some front)
      (behind : Utf8.dropBytes? (lastCut cs max) cs = some back)
      (rounds : SplitsInto max back pieces) : SplitsInto max cs (String.ofList front :: pieces)

end LispBridge.Text
