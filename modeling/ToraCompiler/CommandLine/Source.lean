import ToraCompiler.CommandLine.Report
import ToraCompiler.Compilation
import ToraCompiler.Files.Tree
import ToraCompiler.Text.Quoted

/-!
# Source files and output files

How a task reads what it compiles and where it puts the result, with the reports of what can fail on the
way.
-/

namespace ToraCompiler

/-! ## Sources -/

/-- The report of a source file that does not compile. -/
def SourceFault.report (path : Path) (fault : SourceFault) : Report where
  message := "failed to compile " ++ path.text
  causes :=
    match fault with
    | .unreadable cause =>
      ["failed to read source " ++ path.text ++ ": " ++ cause.message, cause.message]
    | .rejected diagnostic => [diagnostic.render]

/-- The module that a file becomes. -/
def moduleOf (files : FileTree) (path : Path) : Except Report String :=
  match compileContent (files.read path) with
  | .ok text => .ok text
  | .error fault => .error (fault.report path)

/-- Compiles a file for its mistakes only. -/
def checkFile (files : FileTree) (path : Path) : Except Report String := do
  let _ ← moduleOf files path
  return path.text ++ ": ok\n"

/-! ## Output files -/

/-- Makes the directory for a file, unless it goes without saying. -/
def prepareDirectory (files : FileTree) (path : Path) : Except Report FileTree :=
  match path.parent? with
  | none => .ok files
  | some parent =>
    if parent.text = "" then .ok files
    else
      match files.makeDirectories parent with
      | .ok files' => .ok files'
      | .error fault =>
        .error (.because ("failed to create directory " ++ Quoted.quote parent.text) fault)

/-- Writes an output file, and makes its directory before that: the files afterwards, and the report if
something failed. -/
def deliver (files : FileTree) (path : Path) (text : String) : FileTree × Except Report Unit :=
  match prepareDirectory files path with
  | .error report => (files, .error report)
  | .ok prepared =>
    match prepared.write path (Utf8.encode text) with
    | .ok written => (written, .ok ())
    | .error fault =>
      (prepared, .error (.because ("failed to write output file " ++ path.text) fault))

end ToraCompiler
