import MappingMetadata.CommandLine.Run

/-!
# The program

The command line on the real disk.
-/

namespace MappingMetadata.CommandLine

/-- Does an action on the disk work? -/
def works (action : IO Unit) : IO Bool := do
  try
    action
    return true
  catch _ => return false

/-- The result of an action on the disk, if it works. -/
def ifWorks {α : Type} (action : IO α) : IO (Option α) := do
  try
    return some (← action)
  catch _ => return none

/-- The disk of the machine. -/
def machineDisk : Disk IO where
  read? path := ifWorks (IO.FS.readFile path)
  files? path := ifWorks do
    let entries ← ((← IO.currentDir) / path).readDir
    let files ← entries.toList.filterM fun e =>
      return (← ifWorks e.path.metadata).any fun m => m.type == .file
    return files.map fun e => e.fileName
  isFolder path := do ((← IO.currentDir) / path).isDir
  makeFolders path := works (IO.FS.createDirAll path)
  write path text := works (IO.FS.writeFile path text)

end MappingMetadata.CommandLine

open MappingMetadata.CommandLine in
/-- Runs the command line and prints what it hands out. -/
def main (args : List String) : IO UInt32 := do
  let ending ← execute machineDisk args
  IO.print ending.stdout
  match ending.failure with
  | some f => IO.eprintln ("Error: " ++ f.message)
  | none => if ending.exitCode = 2 then IO.eprint ("Usage:\n" ++ helpText)
  return ending.exitCode.toUInt32
