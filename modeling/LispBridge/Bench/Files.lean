import LispBridge.Config.Basic

/-!
A tree of files on a test bench: what a path leads to, and why it cannot be read, written or
entered.

* `FileTree.find`: the node that a path leads to.
* `FileTree.read`, `FileTree.write`, `FileTree.enter`: the three uses of a path.
-/

namespace LispBridge

namespace FileFault

/-- A path goes on after something that is no directory. -/
def notDirectory : FileFault :=
  ⟨"Not a directory", some 20⟩

/-- A path or one of its names has too many bytes. -/
def nameTooLong : FileFault :=
  ⟨"File name too long", some 36⟩

/-- A device has no room for what is written. -/
def noRoom : FileFault :=
  ⟨"No space left on device", some 28⟩

/-- A file gives nothing or takes nothing. -/
def refused : FileFault :=
  ⟨"Input/output error", some 5⟩

/-- There is a file, but no device that it stands for. -/
def noDevice : FileFault :=
  ⟨"No such device or address", some 6⟩

/-- Something may not be done with a file. -/
def denied : FileFault :=
  ⟨"Permission denied", some 13⟩

/-- A path has a character that ends it for the system. -/
def nulInName : FileFault :=
  ⟨"file name contained an unexpected NUL byte", none⟩

end FileFault


/-- What there is at a place. -/
inductive FileNode where
  /-- A directory, and why nothing can be made in it, if that is so. -/
  | directory (closed : Option FileFault := none)
  /-- A file: what is read from it, and whether it takes what is written. -/
  | file (content : Except FileFault (List UInt8)) (room : Except FileFault Unit := .ok ())
  /-- A program; as a file it is no text. -/
  | program
  /-- Another name for a place. -/
  | link (target : List String)

/-- Whether paths go on from a node. -/
def FileNode.isDirectory : FileNode → Bool
  | directory _ => true
  | file .. | program | link _ => false

/-- A tree of files. The root need not be listed. -/
structure FileTree where
  nodes : List (List String × FileNode)
  /-- Where relative paths begin. -/
  home : List String := []

namespace FileTree

/-- The most bytes of a name. -/
def longestName : Nat := 255

/-- The most bytes of a path. -/
def longestPath : Nat := 4095

def node? (t : FileTree) (place : List String) : Option FileNode :=
  if place = [] then some (.directory none) else (t.nodes.find? (·.1 = place)).map Prod.snd

def isDirectory (t : FileTree) (place : List String) : Bool :=
  (t.node? place).any FileNode.isDirectory

/-- Why nothing can be made at a place, if that is known. -/
def closure? (t : FileTree) (place : List String) : Option FileFault :=
  match t.node? place with
  | some (.directory closed) => closed
  | _ => none

/-- Goes by one name from a place. Only a directory can be left, if only for itself. A directory in
which nothing can be made has no name that is too long. -/
def go (t : FileTree) (here : List String) (name : String) : Except FileFault (List String) :=
  if !t.isDirectory here then .error .notDirectory
  else if name = "" ∨ name = "." then .ok here
  else if name = ".." then .ok here.dropLast
  else
    match t.node? (here ++ [name]) with
    | some (.link target) => .ok target
    | some _ => .ok (here ++ [name])
    | none =>
      if name.utf8ByteSize > longestName ∧ t.closure? here = none then .error .nameTooLong
      else .error .missing

/-- The names in a path, and the place where it begins. The system takes no path that is empty or
too long, or that has a NUL in it. -/
def names (t : FileTree) (path : String) : Except FileFault (List String × List String) :=
  if path.toList.contains '\x00' then .error .nulInName
  else if path = "" then .error .missing
  else if path.utf8ByteSize > longestPath then .error .nameTooLong
  else .ok (if path.startsWith "/" then [] else t.home, path.splitOn "/")

/-- The place that a path leads to. -/
def find (t : FileTree) (path : String) : Except FileFault (List String) := do
  let (start, names) ← t.names path
  names.foldlM t.go start

/-- The first bytes of every program: they are no text. -/
def programBytes : List UInt8 :=
  [0x7f, 0x45, 0x4c, 0x46, 0xff]

def read (t : FileTree) (path : String) : Except FileFault (List UInt8) := do
  match t.node? (← t.find path) with
  | some (.file content _) => content
  | some .program => return programBytes
  | some (.directory _) | some (.link _) => throw .directory
  | none => throw .missing

/-- Writes a file. It is made where there is none, but never by a path that ends in a slash. -/
def write (t : FileTree) (path : String) : Except FileFault Unit := do
  let (start, names) ← t.names path
  let names := (names.reverse.dropWhile (· = "")).reverse
  let parent ← names.dropLast.foldlM t.go start
  if !t.isDirectory parent then throw .notDirectory
  else if path.endsWith "/" then throw .directory
  else
    match t.go parent (names.getLast?.getD "") with
    | .ok place =>
      match t.node? place with
      | some (.file _ room) => room
      | some .program => return ()
      | _ => throw .directory
    | .error fault =>
      if fault = .missing then (t.closure? parent).elim (return ()) throw else throw fault

/-- Enters a directory. -/
def enter (t : FileTree) (path : String) : Except FileFault (List String) := do
  let place ← t.find path
  if t.isDirectory place then return place else throw .notDirectory

end FileTree

end LispBridge
