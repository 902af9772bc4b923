import ToraCompiler.CommandLine.Source

/-!
# Builds

A build compiles every source below a path, in the order of a walk.  The module of a source goes next to
it, or to the same place below another directory.  The first failure ends the build, and what was written
before stays.
-/

namespace ToraCompiler

/-- The extension of sources. -/
def sourceExtension : String := "tora"

/-- The extension of modules. -/
def moduleExtension : String := "py"

/-- Whether a file met on a walk is a source. -/
def isSource (found : FileTree.Found) : Bool :=
  found.path.extension? = some sourceExtension

/-- Where the output of a source goes: next to it, or to the same place below another directory. -/
def destination (outDir : Option Path) (found : FileTree.Found) : Path :=
  let place :=
    match outDir with
    | none => found.path
    | some dir =>
      match found.names with
      | [] => dir.join (found.path.fileName?.getD found.path.text)
      | names => names.foldl Path.join dir
  place.withExtension moduleExtension

/-- Compiles a source to its place. -/
def buildFile (outDir : Option Path) (files : FileTree) (found : FileTree.Found) :
    FileTree × Except Report Unit :=
  match moduleOf files found.path with
  | .error report => (files, .error report)
  | .ok text => deliver files (destination outDir found) text

/-- Compiles sources in order, up to the first that fails. -/
def buildFiles (outDir : Option Path) (files : FileTree) :
    List FileTree.Found → FileTree × Except Report Unit
  | [] => (files, .ok ())
  | found :: rest =>
    match buildFile outDir files found with
    | (files', .ok ()) => buildFiles outDir files' rest
    | failed => failed

/-- The sources below a path. -/
def sourcesBelow (files : FileTree) (root : Path) : Except Report (List FileTree.Found) :=
  match files.walk root with
  | .ok found => .ok (found.filter isSource)
  | .error fault =>
    let context := "IO error for operation on " ++ root.text ++ ": " ++ fault.message
    .error { message := "failed to walk " ++ root.text, causes := [context, fault.message] }

/-- Compiles all sources below a path, and says how many there were. -/
def build (files : FileTree) (root : Path) (outDir : Option Path) : FileTree × Except Report String :=
  match sourcesBelow files root with
  | .error report => (files, .error report)
  | .ok sources =>
    match buildFiles outDir files sources with
    | (files', .ok ()) => (files', .ok ("Built " ++ toString sources.length ++ " file(s)\n"))
    | (files', .error report) => (files', .error report)

end ToraCompiler
