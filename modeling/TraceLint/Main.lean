import TraceLint.CommandLine.Command
import TraceLint.Path

/-! The command that checks logging calls. The files that its arguments mention are read beforehand;
all decisions are made by `CommandLine.exit`. -/
namespace TraceLint.Main

def ofString (s : String) : Text := s.toUTF8.toList

def toString? (s : Text) : Option String := String.fromUTF8? ⟨s.toArray⟩

def placeOf (path : Text) : List Text := (Text.splitOn (byte '/') (Path.clean path)).filter (· ≠ [])

/-- What the disk holds at a place. -/
def entryAt? (place : List Text) : IO (Option FileSystem.Entry) := do
  let some name := toString? (byte '/' :: Text.join [byte '/'] place) | return none
  try
    let found ← IO.FS.realPath name
    if ← found.isDir then return some .directory
    return some (.file (← IO.FS.readBinFile found).toList)
  catch _ => return none

/-- The entries on the way to a path, and the one it leads to. -/
def entriesTo (directory : Text) (path : Text) : IO (List (List Text × FileSystem.Entry)) := do
  let elements := Text.splitOn (byte '/') path
  let start := if path.head? = some (byte '/') then [] else directory
  let ways := (List.range elements.length).map fun n =>
    placeOf (Text.join [byte '/'] (start :: elements.take (n + 1)))
  ways.filterMapM fun place => return (← entryAt? place).map (place, ·)

/-- The part of the disk that some paths lead to. -/
def readDisk (paths : List Text) : IO FileSystem := do
  let directory := ofString (← IO.currentDir).toString
  let entries ← paths.mapM (entriesTo directory)
  let place := placeOf directory
  return { entries := entries.flatten ++ [(place, .directory)], workingDirectory := place }

/-- Makes the files that a process has added. -/
def writeDisk (before after : FileSystem) : IO Unit :=
  (after.entries.take (after.entries.length - before.entries.length)).forM fun (place, entry) =>
    match toString? (byte '/' :: Text.join [byte '/'] place), entry with
    | some name, .file data => IO.FS.writeBinFile name ⟨data.toArray⟩
    | _, _ => return ()

/-- Whether reports are coloured: only on a terminal that takes colours. -/
def colored (stdout : IO.FS.Stream) : IO Bool := do
  let refused := (← IO.getEnv "NO_COLOR").any (· ≠ "") || (← IO.getEnv "TERM") = some "dumb"
  return (← stdout.isTty) && !refused

def run (arguments : List String) : IO UInt32 := do
  let arguments := arguments.map ofString
  let tool := CommandLine.Tool.logging
  let stdout ← IO.getStdout
  let stderr ← IO.getStderr
  let before ← readDisk (CommandLine.mentioned tool arguments)
  let (after, answer) := CommandLine.exit tool (← colored stdout) before arguments
  writeDisk before after
  match answer with
  | .ok e =>
    stdout.write ⟨e.stdout.toArray⟩
    stderr.write ⟨e.stderr.toArray⟩
    if let some refrain := e.refrain then
      repeat stdout.write ⟨refrain.toArray⟩
    return e.status
  | .error breakdown =>
    stderr.write ⟨(CommandLine.logLine tool.name breakdown.message).toArray⟩
    return 2

end TraceLint.Main

def main (arguments : List String) : IO UInt32 := TraceLint.Main.run arguments
