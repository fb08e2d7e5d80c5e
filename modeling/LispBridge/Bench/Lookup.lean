import LispBridge.Server

/-!
Looking up hosts on a test bench: addresses and the machine's own name are known, and no name
server answers.

* `Lookup.isAddress`: the numeric addresses, with four or fewer numbers or with colons.
* `Lookup.fault?`: why a host is not found.
-/

namespace LispBridge.Lookup

/-! ### Addresses -/

/-- The number that digits denote in a base up to sixteen; no digits denote none. -/
def number? (base : Nat) (cs : List Char) : Option Nat :=
  if cs = [] then none
  else
    cs.foldl (fun n c => n.bind fun n =>
      let d := if isDigit c then c.toNat - 48 else c.toLower.toNat - 87
      if (isDigit c || ('a' ≤ c.toLower && c.toLower ≤ 'f')) && d < base then some (n * base + d)
      else none) (some 0)

/-- A number in base ten, in base eight behind a zero, or in base sixteen behind `0x`. -/
def looseNumber? (cs : List Char) : Option Nat :=
  match cs with
  | '0' :: 'x' :: r | '0' :: 'X' :: r => number? 16 r
  | '0' :: r => number? 8 ('0' :: r)
  | r => number? 10 r

/-- Up to four numbers with points between them: each is a byte, but the last takes the bytes that
are left. -/
def isLooseOctets (host : String) : Bool :=
  match ((host.splitOn ".").map fun p => looseNumber? p.toList).reverse with
  | [] => false
  | last :: bytes =>
    bytes.length < 4 && bytes.all (fun b => b.any (· < 256)) &&
      last.any (· < Nat.pow 256 (4 - bytes.length))

/-- Four bytes in base ten with points between them. -/
def isOctets (host : String) : Bool :=
  let parts := (host.splitOn ".").map String.toList
  parts.length = 4 && parts.all fun cs =>
    (number? 10 cs).any (· < 256) && (cs.length = 1 || cs.head? ≠ some '0')

/-- How many of eight groups a part of an address with colons fills. Octets at its end fill two. -/
def groups? (part : String) (isEnd : Bool) : Option Nat :=
  if part = "" then some 0
  else
    let parts := part.splitOn ":"
    let isGroup (p : String) : Bool := p.length ≤ 4 && (number? 16 p.toList).isSome
    if parts.all isGroup then some parts.length
    else if isEnd && parts.dropLast.all isGroup && isOctets (parts.getLast?.getD "") then
      some (parts.length + 1)
    else none

/-- Eight groups with colons between them; two colons stand for any that are missing. -/
def isGroups (host : String) : Bool :=
  match host.splitOn "::" with
  | [all] => groups? all true = some 8
  | [front, back] =>
    match groups? front false, groups? back true with
    | some m, some n => m + n < 8
    | _, _ => false
  | _ => false

/-- Whether a host is an address. One with colons may stand in brackets. -/
def isAddress (host : String) : Bool :=
  isLooseOctets host || isGroups host ||
    (host.startsWith "[" && host.endsWith "]" && isGroups ((host.drop 1).dropEnd 1).toString)

/-! ### Names -/

/-- Whether a name server can be asked for a name: it has letters, digits, hyphens and
underscores, in labels of one to sixty-three with points between and perhaps behind them, and does
not begin with a hyphen. -/
def isName (host : String) : Bool :=
  let labels := host.splitOn "."
  let labels := if host.endsWith "." then labels.dropLast else labels
  let fits := labels.foldl (fun size label => size + label.length + 1) 0 ≤ 254
  host = "." || (!host.startsWith "-" && fits && labels.all fun label =>
    label ≠ "" && label.length ≤ 63 &&
      label.toList.all fun c => c.isAlphanum || c = '-' || c = '_')

/-- Why a host is not found, if it is not. -/
def fault? (host : String) : Option String :=
  let failed (reason : String) := some s!"failed to lookup address information: {reason}"
  if host.toList.contains '\x00' then some "file name contained an unexpected NUL byte"
  else if isAddress host || host.toLower = "localhost" then none
  else if isName host then failed "Temporary failure in name resolution"
  else failed "Name or service not known"

/-- A network on which every host that is found can be listened at. -/
def network (publish : String → UInt16 → Except FileFault Unit) (free : UInt16) : Network where
  bind address :=
    match fault? (":".intercalate (address.splitOn ":").dropLast) with
    | some reason => .error reason
    | none => .ok free
  publish

end LispBridge.Lookup
