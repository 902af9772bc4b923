import ToraCompiler.Host.Writer
import ToraCompiler.Scope.Check
import ToraCompiler.SystemFault
import ToraCompiler.Text.Utf8
import ToraCompiler.Tree.Grammar

/-!
# Compilation

The whole way from a source to a module of the host language, and the same way in steps: a session
compiles one fragment after another, and each sees what the earlier ones declared.  A fragment that is
rejected changes nothing.
-/

namespace ToraCompiler

/-- A compiled program. -/
structure Artifact where
  /-- The program as a tree. -/
  program : Program
  /-- The module that it became. -/
  text : String

/-- Compiles a source that stands alone. -/
def Artifact.ofSource (source : String) : Except Diagnostic Artifact := do
  let program ← Program.ofSource source
  let _ ← program.check []
  return { program, text := (Host.moduleText [] program).1 }

/-- The module that a source becomes. -/
def compile (source : String) : Except Diagnostic String := do
  let artifact ← Artifact.ofSource source
  return artifact.text

/-! ## Source files -/

/-- Why a source file does not compile. -/
inductive SourceFault where
  /-- It cannot be read. -/
  | unreadable (cause : SystemFault)
  /-- It is rejected. -/
  | rejected (diagnostic : Diagnostic)
deriving DecidableEq, Repr

/-- The text of a file. -/
def fileText (content : Except SystemFault (List UInt8)) : Except SystemFault String := do
  match Utf8.decode? (← content) with
  | some text => return text
  | none => throw .invalidText

/-- Compiles the content of a file, or passes on why it has none. -/
def compileContent (content : Except SystemFault (List UInt8)) : Except SourceFault String :=
  match fileText content with
  | .error cause => .error (.unreadable cause)
  | .ok source =>
    match compile source with
    | .ok text => .ok text
    | .error d => .error (.rejected d)

/-! ## Sessions -/

/-- What is known from the fragments compiled so far. -/
structure Session where
  /-- The declarations in the global scope. -/
  symbols : Scope := []
  /-- The global names, as far as they hide built-in ones. -/
  names : List String := []
deriving DecidableEq, Repr

namespace Session

/-- Compiles a fragment. -/
def compile (s : Session) (source : String) : Except Diagnostic (String × Session) := do
  let program ← Program.ofSource source
  let symbols ← program.check s.symbols
  let (text, names) := Host.fragmentText s.names program
  return (text, { symbols, names })

/-- What a name stands for at the start of the next fragment. -/
def lookup (s : Session) (name : String) : Option Symbol :=
  SymbolTable.lookup (.ofGlobals s.symbols) name

end Session

end ToraCompiler
