import MappingMetadata.Error

/-!
# Paths and disks

What the text of a path says without a look at any file: the name of the file, its extension, and
the path of the folder that holds it. Segments that are empty or a single dot name nothing, except
for a dot at the very beginning.

What the library asks of the place where files are kept is a `Disk`. `FileTree` is a disk in
memory; the program itself runs on the real one.
-/

namespace MappingMetadata

/-! ## Paths -/

namespace Path

/-- The parts of a text between separators. -/
def splitAt (separator : Char) : List Char → List (List Char)
  | [] => [[]]
  | c :: cs =>
    if c = separator then [] :: splitAt separator cs
    else
      match splitAt separator cs with
      | [] => [[c]]
      | part :: parts => (c :: part) :: parts

/-- The segments of a path. -/
def segments (path : String) : List String := (splitAt '/' path.toList).map String.ofList

/-- The segments, the last first, without those at the end that name nothing. -/
def trimmed : List String → List String
  | [] => []
  | [s] => [s]
  | s :: t :: rest => if s = "" ∨ s = "." then trimmed (t :: rest) else s :: t :: rest

/-- The name of the file or folder that a path leads to, if the path ends in a name. -/
def fileName? (path : String) : Option String :=
  match trimmed (segments path).reverse with
  | s :: _ => if s = "" ∨ s = "." ∨ s = ".." then none else some s
  | [] => none

/-- What follows the last dot of the file name; a dot at its beginning does not count. -/
def extension? (path : String) : Option String := do
  let name ← fileName? path
  match (splitAt '.' name.toList).reverse with
  | _ :: [] => none
  | _ :: [[]] => none
  | last :: _ => some (String.ofList last)
  | [] => none

/-- The path of the folder that holds what the path leads to. -/
def parent? (path : String) : Option String :=
  match trimmed (segments path).reverse with
  | [] | [""] => none
  | _ :: rest =>
    let kept := trimmed rest
    some (if kept = [""] then "/" else "/".intercalate kept.reverse)

/-- The path of something in a folder. -/
def inFolder (folder name : String) : String :=
  if folder.toList.getLast? = some '/' then folder ++ name else folder ++ "/" ++ name

/-- Is the file a mapping document, by its extension? -/
def isDocument (path : String) : Bool :=
  match extension? path with
  | some e => e == "json" || e == "yaml" || e == "yml"
  | none => false

end Path

/-- The format of a file: JSON with the extension `json` in any letter case, else YAML. -/
def Format.ofPath (path : String) : Format :=
  match Path.extension? path with
  | some e => if e.toList.map Char.toLower = "json".toList then .json else .yaml
  | none => .yaml

/-! ## Disks -/

/-- A place where files are kept, reached by paths. -/
structure Disk (m : Type → Type) where
  /-- The content of a file; none if there is no such file or it is no text. -/
  read? : String → m (Option String)
  /-- The names of the files in a folder, in any order; none if there is no such folder. -/
  files? : String → m (Option (List String))
  isFolder : String → m Bool
  /-- Make a folder and those that hold it, as far as they are missing; says whether it worked. -/
  makeFolders : String → m Bool
  /-- Write a file in place of what it held before; says whether it worked. -/
  write : String → String → m Bool

end MappingMetadata
