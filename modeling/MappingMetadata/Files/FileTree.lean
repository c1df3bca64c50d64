import MappingMetadata.Assoc
import MappingMetadata.Files.Disk

/-!
# File trees

A disk in memory: folders and files below a root. A place in it is the list of names on the way
from the root; paths are followed name by name, and every name but the last must be a folder.
-/

namespace MappingMetadata

/-- Folders and files by their places. The root is a folder that is always there. -/
structure FileTree where
  folders : List (List String) := []
  files : List (List String × List UInt8) := []

namespace FileTree

/-- The tree that holds nothing. -/
def empty : FileTree := {}

instance : Inhabited FileTree := ⟨empty⟩

def isFolder (t : FileTree) (place : List String) : Bool :=
  place.isEmpty || t.folders.contains place

/-- The content of a file. -/
def file? (t : FileTree) (place : List String) : Option (List UInt8) := Assoc.get? t.files place

/-- Follow the segments of a path from a place. The last name need not exist yet. -/
def follow (t : FileTree) : List String → List String → Option (List String)
  | place, [] => some place
  | place, s :: rest =>
    if !t.isFolder place || s.toList.contains '\x00' then none
    else if s = "" ∨ s = "." then follow t place rest
    else if s = ".." then if place.isEmpty then none else follow t place.dropLast rest
    else follow t (place ++ [s]) rest

/-- The place that a path leads to. The empty path and those from outside the root lead nowhere. -/
def locate (t : FileTree) (path : String) : Option (List String) :=
  match Path.segments path with
  | [] | "" :: _ => none
  | segments => t.follow [] segments

/-- Put a file into a folder. -/
def putFile (t : FileTree) (place : List String) (content : List UInt8) : Option FileTree :=
  if t.isFolder place || !t.isFolder place.dropLast then none
  else some { t with files := Assoc.put t.files place content }

/-- Follow the segments of a path, and make the folders that are missing, up to the first that
cannot be made; says whether all could. -/
def makeAlong (t : FileTree) : List String → List String → FileTree × Bool
  | place, [] => (t, t.isFolder place)
  | place, s :: rest =>
    if !t.isFolder place || s.toList.contains '\x00' then (t, false)
    else if s = "" ∨ s = "." then makeAlong t place rest
    else if s = ".." then if place.isEmpty then (t, false) else makeAlong t place.dropLast rest
    else
      let place := place ++ [s]
      if t.isFolder place then makeAlong t place rest
      else if (t.file? place).isSome then (t, false)
      else makeAlong { t with folders := t.folders ++ [place] } place rest

/-- Make the folder of a path and those that hold it. -/
def makeFolders (t : FileTree) (path : String) : FileTree × Bool :=
  match Path.segments path with
  | [] | "" :: _ => (t, false)
  | segments => t.makeAlong [] segments

/-- The content of the file of a path, as text. -/
def read? (t : FileTree) (path : String) : Option String := do
  let place ← t.locate path
  let content ← t.file? place
  String.fromUTF8? ⟨content.toArray⟩

/-- The names of the files in the folder of a path. -/
def files? (t : FileTree) (path : String) : Option (List String) := do
  let place ← t.locate path
  if !t.isFolder place then none
  return t.files.filterMap fun p =>
    if p.1.length = place.length + 1 ∧ p.1.dropLast = place then p.1.getLast? else none

/-- Does the path lead to a folder? -/
def hasFolder (t : FileTree) (path : String) : Bool := (t.locate path).any t.isFolder

/-- Write a text to the file of a path. -/
def write? (t : FileTree) (path text : String) : Option FileTree := do
  let place ← t.locate path
  t.putFile place text.toUTF8.toList

/-- The tree as a disk. A file that cannot be written leaves the tree as it was. -/
def disk : Disk (StateM FileTree) where
  read? path := return (← get).read? path
  files? path := return (← get).files? path
  isFolder path := return (← get).hasFolder path
  makeFolders path := do
    let (t, made) := (← get).makeFolders path
    set t
    return made
  write path text := do
    match (← get).write? path text with
    | some t => set t; return true
    | none => return false

end FileTree

end MappingMetadata
