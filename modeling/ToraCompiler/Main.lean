import ToraCompiler.CommandLine.Run

/-!
# The outermost layer

Fetches the files that a task is about, runs the program on them, and carries out what the outcome says.
No process is ever started here, so every interpreter counts as missing.
-/

namespace ToraCompiler

/-- The paths that a task reads or writes. -/
def Task.paths : Task → List Path
  | .run file => [file]
  | .build root outDir => root :: outDir.toList
  | .emit input output => input.toList ++ output.toList
  | .check file => [file]
  | .repl => []

/-- Whether a task takes its source from the input. -/
def Task.readsInput : Task → Bool
  | .emit none _ => true
  | _ => false

/-- The absolute path of a place. -/
def Place.text (place : Place) : String :=
  "/" ++ joinWith "/" place

/-- Adds what is at a place to a tree, with all that is below it. -/
partial def fetch (t : FileTree) (place : Place) : IO FileTree := do
  try
    let mut grown := t.plant place .directory
    for entry in ← ((← IO.currentDir) / place.text).readDir do
      grown ← fetch grown (place ++ [entry.fileName])
    return grown
  catch _ =>
    try
      let content ← IO.FS.readBinFile place.text
      return t.plant place (.file content.toList false)
    catch _ => return t

/-- Reads a stream to its end. -/
partial def drain (stream : IO.FS.Stream) (octets : ByteArray) : IO ByteArray := do
  let more ← stream.read 65536
  if more.isEmpty then return octets else drain stream (octets ++ more)

/-- Writes octets to a stream. -/
def send (stream : IO.FS.Stream) (octets : List UInt8) : IO Unit := do
  stream.write (ByteArray.mk octets.toArray)
  stream.flush

/-- Carries out an outcome, where `before` is the tree at the start. -/
def Outcome.realize (outcome : Outcome) (before : FileTree) : IO UInt32 := do
  for (place, content) in before.changes outcome.files do
    IO.FS.createDirAll (Place.text place.dropLast)
    IO.FS.writeBinFile place.text (ByteArray.mk content.toArray)
  send (← IO.getStdout) outcome.stdout
  send (← IO.getStderr) outcome.stderr
  return outcome.exit.toUInt32

end ToraCompiler

open ToraCompiler

/-- Runs the program on the real files. -/
def main (args : List String) : IO UInt32 := do
  let home := Path.place [] ⟨(← IO.currentDir).toString⟩
  let bare := FileTree.ofHome home
  match Invocation.ofArguments args with
  | .error halt => (halt.outcome bare).realize bare
  | .ok invocation =>
    let places := invocation.task.paths.map (Path.place home)
    let files ← places.foldlM fetch bare
    let input ←
      if invocation.task.readsInput then drain (← IO.getStdin) .empty else pure .empty
    let world : World :=
      { files, input := input.toList, executable := fun _ _ => .error .notFound }
    (perform world invocation).realize files
