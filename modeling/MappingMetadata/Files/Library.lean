import MappingMetadata.Codec.Annotations
import MappingMetadata.Codec.Declarations
import MappingMetadata.Codec.Format
import MappingMetadata.Files.Disk

/-!
# Documents and metadata on a disk

Loading mapping documents, one by one or all of a folder, loading snapshots of an index, and
saving finished metadata. The format of a file that is read follows from its path.
-/

namespace MappingMetadata.Disk

open Declaration

variable {m : Type → Type} [Monad m]

/-- The text of a file. -/
def readText (disk : Disk m) (path : String) : ExceptT Error m String := do
  match ← disk.read? path with
  | some text => return text
  | none => throw (.unreadable path)

/-- Load a file in the format of its path. -/
def load {α : Type} (disk : Disk m) (r : Reader α) (path : String) : ExceptT Error m α := do
  let text ← disk.readText path
  ExceptT.mk (pure ((Format.ofPath path).read r text))

/-- Load a mapping document. -/
def loadDocument (disk : Disk m) (path : String) : ExceptT Error m Document :=
  disk.load Document.codec.read path

/-- Load a snapshot of an index. -/
def loadIndex (disk : Disk m) (path : String) : ExceptT Error m Index :=
  disk.load Index.readSnapshot path

/-- The paths of the mapping documents directly in a folder, in the order of their names. -/
def documentPaths (disk : Disk m) (folder : String) : ExceptT Error m (List String) := do
  match ← disk.files? folder with
  | some names =>
    let paths := (names.mergeSort fun a b => a ≤ b).map (Path.inFolder folder)
    return paths.filter Path.isDocument
  | none => throw (.unreadable folder)

/-- Load the mapping documents of a folder. One that cannot be loaded does not keep the others
from being loaded; each comes with its path. -/
def loadFolder (disk : Disk m) (folder : String) :
    ExceptT Error m (List (String × Outcome Document)) := do
  let paths ← disk.documentPaths folder
  paths.mapM fun path => do
    let loaded ← ExceptT.lift (disk.loadDocument path).run
    return (path, loaded)

/-- Save finished metadata; the folders on the way to the file are made first. -/
def save (disk : Disk m) (format : Format) (metadata : Metadata) (path : String) :
    ExceptT Error m Unit := do
  match (Path.parent? path).filter fun p => !p.isEmpty with
  | some folder => if !(← disk.makeFolders folder) then throw (.unwritable folder)
  | none => pure ()
  if !(← disk.write path (format.render metadata.toData)) then throw (.unwritable path)

end MappingMetadata.Disk
