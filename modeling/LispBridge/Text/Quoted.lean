import LispBridge.Text.Invisible

/-!
Quoted display of a text inside an error message: between double quotes, with quotes and
backslashes escaped, and with everything that cannot be seen on its own given by its code point.
-/

namespace LispBridge.Text

/-- Whether a character is given by its code point. -/
def needsCode (c : Char) : Bool :=
  if c.toNat < 0x80 then c.toNat < 0x20 || c.toNat = 0x7f else isInvisible c

/-- How one character is displayed between quotes. -/
def quoteChar (c : Char) : List Char :=
  match c with
  | '"' => ['\\', '"']
  | '\\' => ['\\', '\\']
  | '\n' => ['\\', 'n']
  | '\r' => ['\\', 'r']
  | '\t' => ['\\', 't']
  | '\x00' => ['\\', '0']
  | c => if needsCode c then "\\u".toList ++ '\x7b' :: Nat.toDigits 16 c.toNat ++ ['\x7d'] else [c]

/-- A text as it is displayed inside an error message. -/
def quoted (s : String) : String :=
  String.ofList ('"' :: s.toList.flatMap quoteChar ++ ['"'])

end LispBridge.Text
