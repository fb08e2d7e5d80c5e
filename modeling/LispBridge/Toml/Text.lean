import LispBridge.Toml.Scan

/-!
Blank space, comments, strings and keys of TOML.

* `Toml.string`: a string in any of the four notations.
* `Toml.key`: a key, dotted or not.
-/

namespace LispBridge.Toml

open Scan

/-! ### Blank space and comments -/

/-- Whether a character is blank space inside a line. -/
def isSpace (c : Char) : Bool :=
  c = ' ' || c = '\t'

/-- Whether a character may stand in a line: no control character but the tab. -/
def isPrintable (c : Char) : Bool :=
  c = '\t' || (0x20 ≤ c.toNat && c.toNat ≠ 0x7f)

/-- Blank space inside a line. -/
def spaces : Scan Unit := do
  let _ ← takeWhile isSpace

/-- The end of a line. -/
def newline : Scan Unit :=
  literal ['\n'] <|> literal ['\r', '\n']

/-- A comment up to the end of its line. -/
def comment : Scan Unit := do
  char '#'
  let _ ← takeWhile isPrintable

/-- Blank space, comments and ends of lines. -/
def gaps : Scan Unit := do
  let gap : Scan Unit := newline <|> (do comment; newline) <|> (do let _ ← satisfy isSpace)
  let _ ← many gap

/-- What may stand behind an entry or a header. -/
def lineEnd : Scan Unit := do
  spaces
  let _ ← optional comment
  newline <|> atEnd

/-! ### Strings -/

/-- The value of a hexadecimal digit. -/
def hexValue? (c : Char) : Option Nat :=
  if '0' ≤ c ∧ c ≤ '9' then some (c.toNat - '0'.toNat)
  else if 'a' ≤ c ∧ c ≤ 'f' then some (c.toNat - 'a'.toNat + 10)
  else if 'A' ≤ c ∧ c ≤ 'F' then some (c.toNat - 'A'.toNat + 10)
  else none

/-- A number in exactly so many hexadecimal digits. -/
def hexNumber : Nat → Nat → Scan Nat
  | 0, n => pure n
  | digits + 1, n => do
    let c ← satisfy fun c => (hexValue? c).isSome
    hexNumber digits (n * 16 + (hexValue? c).getD 0)

/-- The character with a code point; surrogates have none. -/
def codePoint (digits : Nat) : Scan Char := do
  let n ← hexNumber digits 0
  if n.isValidChar then return Char.ofNat n else failure

/-- An escape, with its backslash. -/
def escape : Scan Char := do
  char '\\'
  match ← satisfy fun _ => true with
  | 'b' => return '\x08'
  | 't' => return '\t'
  | 'n' => return '\n'
  | 'f' => return '\x0c'
  | 'r' => return '\r'
  | '"' => return '"'
  | '\\' => return '\\'
  | 'u' => codePoint 4
  | 'U' => codePoint 8
  | _ => failure

/-- A character that stands for itself in a string with escapes. -/
def plain : Scan Char :=
  satisfy fun c => isPrintable c && c ≠ '"' && c ≠ '\\'

/-- A character of a string without escapes. -/
def raw : Scan Char :=
  satisfy fun c => isPrintable c && c ≠ '\''

/-- A string on one line, between two of a quote. -/
def quotedBy (quote : Char) (content : Scan Char) : Scan String := do
  char quote
  let cs ← many content
  char quote
  return String.ofList cs

/-- A string on one line with escapes. -/
def basicString : Scan String :=
  quotedBy '"' (plain <|> escape)

/-- A string on one line without escapes. -/
def literalString : Scan String :=
  quotedBy '\'' raw

/-- The end of a line inside a string. However it is written, it stands for one character. -/
def lineBreak : Scan (List Char) := do
  newline
  return ['\n']

/-- A backslash at the end of a line: what is blank up to the next text is left out. -/
def continuation : Scan (List Char) := do
  char '\\'
  spaces
  newline
  let _ ← many (newline <|> (do let _ ← satisfy isSpace))
  return []

/-- One or two quotes inside a string over several lines. -/
def innerQuotes (quote : Char) : Scan (List Char) := do
  let qs ← takeWhile1 (· = quote)
  if qs.length ≤ 2 then return qs else failure

/-- The three quotes at the end of a string; up to two more in front of them belong to it. -/
def closingQuotes (quote : Char) : Scan (List Char) := do
  let qs ← takeWhile1 (· = quote)
  if 3 ≤ qs.length ∧ qs.length ≤ 5 then return qs.drop 3 else failure

/-- A string over several lines, between three of a quote twice. A line that ends right behind
the first three is left out. -/
def multilineBy (quote : Char) (content : Scan (List Char)) : Scan String := do
  literal [quote, quote, quote]
  let _ ← optional newline
  let body ← many (content <|> innerQuotes quote)
  let rest ← closingQuotes quote
  return String.ofList (body.flatten ++ rest)

/-- A string over several lines with escapes. -/
def multilineBasicString : Scan String :=
  multilineBy '"' (List.singleton <$> plain <|> continuation <|> List.singleton <$> escape
    <|> lineBreak)

/-- A string over several lines without escapes. -/
def multilineLiteralString : Scan String :=
  multilineBy '\'' (List.singleton <$> raw <|> lineBreak)

def string : Scan String :=
  multilineBasicString <|> basicString <|> multilineLiteralString <|> literalString

/-! ### Keys -/

/-- Whether a character may stand in a key without quotes. -/
def isBare (c : Char) : Bool :=
  c.isAlphanum || c = '-' || c = '_'

/-- A key without dots. -/
def simpleKey : Scan String :=
  basicString <|> literalString <|> String.ofList <$> takeWhile1 isBare

/-- How deep keys and values may be nested. -/
def maxDepth : Nat := 79

def key : Scan (List String) := do
  let part : Scan String := do
    spaces
    let k ← simpleKey
    spaces
    return k
  let parts ← sepBy1 part (char '.')
  if parts.length ≤ maxDepth then return parts else failure

end LispBridge.Toml
