import Strand.System

/-! The files that settings are read from, as a tree of names below one root. A path is followed
part by part, so that every part but the last has to be a directory. Above the root there is only
the root. -/
namespace Strand

inductive FileEntry
  | text (content : String)
  | bytes (content : Bytes)
  | directory
  /-- Something that is there and cannot be read. -/
  | unreadable (error : SystemError)
  deriving DecidableEq, Repr

/-- A place in the tree: the names that lead to it from the root. -/
abbrev Place := List Bytes

structure Files where
  /-- The working directory, from which a path starts that does not start at the root. -/
  here : Place
  entries : List (Place × FileEntry)
  deriving Repr

namespace Files

/-- A path of this many bytes or more is refused, whatever it might lead to. -/
def pathLimit : Nat := 4096

def slash : UInt8 := '/'.toUInt8

def dot : UInt8 := '.'.toUInt8

def parts (path : Bytes) : List Bytes := path.splitOn slash

/-- What is at a place. Directories on the way to something known need not be entries themselves. -/
def at? (fs : Files) (place : Place) : Option FileEntry :=
  match fs.entries.lookup place with
  | some entry => some entry
  | none =>
    if place.isPrefixOf fs.here ∨ fs.entries.any fun entry => place.isPrefixOf entry.1 then
      some .directory
    else none

/-- One more part of a path. -/
def go (fs : Files) (place : Place) (part : Bytes) : Option Place :=
  if fs.at? place ≠ some .directory then none
  else if part = [] ∨ part = [dot] then some place
  else if part = [dot, dot] then some place.dropLast
  else if (fs.at? (place ++ [part])).isSome then some (place ++ [part])
  else none

def start (fs : Files) (path : Bytes) : Place := if path.head? = some slash then [] else fs.here

/-- What a path leads to. The empty path leads nowhere, and so does one with a zero byte. -/
def find? (fs : Files) (path : Bytes) : Option FileEntry :=
  if path = [] ∨ 0 ∈ path ∨ pathLimit ≤ path.length then none
  else ((parts path).foldlM fs.go (fs.start path)).bind fs.at?

end Files
end Strand
