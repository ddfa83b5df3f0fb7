import Packetizer.Codec.Escape
import Packetizer.Command.Run

/-!
# `Packetizer.Rehearsal.FileTree`: a file system for rehearsals

A `FileTree` holds a few files, directories and devices and finds them
by path, so that the command can be rehearsed with paths of every kind.
A path is walked one part after the other and every part but the last
has to be a directory; the first part that is none, or that cannot be
looked up, decides the error.
-/

set_option autoImplicit false

namespace Packetizer.Rehearsal

/-- What a path leads to. -/
inductive Node where
  | directory
  | file (bytes : List UInt8)
  /-- A device that delivers nothing and takes everything. -/
  | null
  /-- A device that delivers zeros and takes everything. -/
  | zeros
  /-- A device that delivers zeros and has no room. -/
  | full
  /-- The standard input. -/
  | input
  /-- The standard output. -/
  | output
  deriving DecidableEq

/-- A place in a tree: the names on the way from the root. -/
abbrev Place := List String

/-- A file system. -/
structure FileTree where
  /-- The nodes by their place. The root has the empty one. -/
  nodes : List (Place × Node)
  /-- The directory in which relative paths begin. -/
  here : Place
  standardInput : List UInt8

/-- The bytes of a part of a path at most. -/
def maxNameBytes : Nat := 255

/-- The bytes of a path at most. -/
def maxPathBytes : Nat := 4095

/-- A path, taken apart. -/
structure Path where
  isAbsolute : Bool
  /-- The parts between slashes. Empty ones do not count. -/
  parts : List String
  /-- Whether the path ends with a slash. -/
  wantsDirectory : Bool

/-- Takes a path apart. An empty one leads nowhere. -/
def Path.parse (path : String) : Except SystemError Path :=
  if path.isEmpty then .error .notFound
  else if maxPathBytes < path.utf8ByteSize then .error .nameTooLong
  else .ok {
    isAbsolute := path.startsWith "/"
    parts := (path.splitOn "/").filter fun part => part ≠ ""
    wantsDirectory := path.endsWith "/" }

namespace FileTree

/-- The node at a place. -/
def node? (t : FileTree) (place : Place) : Option Node := t.nodes.lookup place

/-- Goes on from a directory by one part of a path. -/
def enter (t : FileTree) (place : Place) (part : String) : Except SystemError Place :=
  match t.node? place with
  | none => .error .notFound
  | some .directory =>
      if part = "." then .ok place
      else if part = ".." then .ok place.dropLast
      else if maxNameBytes < part.utf8ByteSize then .error .nameTooLong
      else .ok (place ++ [part])
  | some _ => .error .notADirectory

/-- Walks some parts of a path. The place they lead to need not exist,
unless it is entered by a later part. -/
def walk (t : FileTree) (p : Path) (parts : List String) : Except SystemError Place :=
  parts.foldlM t.enter (if p.isAbsolute then [] else t.here)

/-- The place that a path leads to. -/
def place (t : FileTree) (path : String) : Except SystemError Place := do
  let p ← Path.parse path
  t.walk p p.parts

/-- The zeros that stand for those of a device without end. -/
def someZeros : List UInt8 := List.replicate 65536 0

/-- Opens an input. Nothing but a directory may have a slash behind it. -/
def openInput (t : FileTree) (path : String) : Except SystemError InputFile := do
  if path = Command.standardStream then return .ofBytes t.standardInput
  let p ← Path.parse path
  let place ← t.walk p p.parts
  match t.node? place, p.wantsDirectory with
  | none, _ => throw .notFound
  | some .directory, _ => return .directory
  | some _, true => throw .notADirectory
  | some (.file bytes), false => return .ofBytes bytes
  | some .zeros, false => return .ofBytes someZeros
  | some .full, false => return .ofBytes someZeros
  | some .input, false => return .ofBytes t.standardInput
  | some .null, false => return .ofBytes []
  | some .output, false => return .ofBytes []

/-- Creates an output. What ends with a slash is refused as a directory
as soon as the parts in front of the last one are walked. -/
def createFile (t : FileTree) (path : String) : Except SystemError OutputFile := do
  if path = Command.standardStream then return .empty
  let p ← Path.parse path
  if p.wantsDirectory then
    let _ ← t.walk p (p.parts.dropLast ++ ["."])
    throw .isADirectory
  let place ← t.walk p p.parts
  match t.node? place with
  | some .directory => throw .isADirectory
  | some .full => return .full
  | _ => return .empty

/-- Whether two paths lead to the same file. -/
def isSameFile (t : FileTree) (a b : String) : Bool :=
  match t.place a, t.place b with
  | .ok a, .ok b =>
      match t.node? a with
      | some (.file _) => a = b
      | _ => false
  | _, _ => false

/-- The files of a tree. An input that is created anew is empty. -/
def files (t : FileTree) : Command.Files InputFile where
  openInput := t.openInput
  createOutput input output opened := do
    let created ← t.createFile output
    return (if t.isSameFile input output then .ofBytes [] else opened, created)

end FileTree

end Packetizer.Rehearsal
