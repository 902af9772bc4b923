import ToraCompiler.CommandLine.Build
import ToraCompiler.CommandLine.Invocation
import ToraCompiler.Host.Server
import ToraCompiler.Shell.Loop

/-!
# Runs of the program

A run takes the arguments, the files, the input and the executables of the system to what the user gets to
see and the files afterwards.  Everything that was written before a failure stays.
-/

namespace ToraCompiler

/-- What the program finds when it is started. -/
structure World where
  /-- The files. -/
  files : FileTree
  /-- The input. -/
  input : List UInt8
  /-- The executables, by name, given the files. -/
  executable : FileTree → String → Except SystemFault Executable

/-- What a run leaves. -/
structure Outcome where
  /-- The exit code. -/
  exit : Nat := 0
  /-- What was printed. -/
  stdout : List UInt8 := []
  /-- What was complained about. -/
  stderr : List UInt8 := []
  /-- The files. -/
  files : FileTree

namespace Outcome

/-- A run that printed a text. -/
def print (files : FileTree) (text : String) : Outcome where
  stdout := Utf8.encode text
  files := files

/-- A run that failed. -/
def fail (files : FileTree) (report : Report) : Outcome where
  exit := 1
  stderr := Utf8.encode report.render
  files := files

/-- The outcome of a step that gives a text to print, and the files after it. -/
def ofStep (result : FileTree × Except Report String) : Outcome :=
  match result with
  | (files, .ok text) => print files text
  | (files, .error report) => fail files report

end Outcome

/-! ## Printing one program -/

/-- The text of the source to print. -/
def sourceText (world : World) : Option Path → Except Report String
  | none =>
    match fileText (.ok world.input) with
    | .ok text => .ok text
    | .error fault => .error (.ofFault fault)
  | some path =>
    match fileText (world.files.read path) with
    | .ok text => .ok text
    | .error fault => .error (.because ("failed to read input file " ++ path.text) fault)

/-- Compiles a source that has no name. -/
def compileInput (source : String) : Except Report String :=
  match compile source with
  | .ok text => .ok text
  | .error diagnostic =>
    .error { message := "failed to compile input", causes := [diagnostic.render] }

/-- Writes what a source compiles to into a file, or prints it on a line of its own. -/
def emit (world : World) (input output : Option Path) : FileTree × Except Report String :=
  match sourceText world input >>= compileInput with
  | .error report => (world.files, .error report)
  | .ok text =>
    match output with
    | none => (world.files, .ok (text ++ "\n"))
    | some path =>
      match deliver world.files path text with
      | (files, .ok ()) => (files, .ok "")
      | (files, .error report) => (files, .error report)

/-! ## Interpreters -/

/-- The report of a program that did not run to a good end. -/
def runReport (path : Path) (causes : List String) : Report where
  message := "failed to run " ++ path.text
  causes := causes

/-- The causes to report of a process that was to run a module, if it failed.  One that did not read the
module has broken the stream, however it ended. -/
def runCauses (answer : Answer) : List String :=
  if answer.isDeaf then
    [(LinkFault.broken .brokenPipe).message, SystemFault.brokenPipe.message]
  else
    match answer.status with
    | none => []
    | some (.code 0) => []
    | some status => ["Python exited with " ++ status.text]

/-- Compiles a file and has the interpreter run it. -/
def runFile (world : World) (interpreter : String) (path : Path) : Outcome :=
  match moduleOf world.files path with
  | .error report => .fail world.files report
  | .ok text =>
    match world.executable world.files interpreter with
    | .error cause =>
      let fault := LinkFault.notStarted interpreter cause
      .fail world.files (runReport path [fault.message, cause.message])
    | .ok executable =>
      let turn : Turn := { octets := Utf8.encode text, last := true, files := world.files }
      let answer := executable Host.moduleArguments [turn]
      let causes := runCauses answer
      let complaint := if causes = [] then [] else Utf8.encode (runReport path causes).render
      { exit := if causes = [] then 0 else 1
        stdout := answer.stdout
        stderr := answer.stderr ++ complaint
        files := answer.files }

/-- The exit code after a fault.  One that nobody reports has a code of its own. -/
def ShellFault.exitCode : ShellFault → Nat
  | .link .oversized => 101
  | _ => 1

/-- The report of a fault. -/
def ShellFault.report (fault : ShellFault) : Report where
  message := fault.message
  causes := fault.cause?.toList.map (·.message)

/-- Runs the shell.  Its interpreters have ended when it reports a fault. -/
def runShell (world : World) (interpreter : String) : Outcome :=
  let process (files : FileTree) : Except SystemFault Conduct :=
    (world.executable files interpreter).map fun executable => executable Host.serverArguments
  let transcript := Shell.run { interpreter, process } world.files (Shell.Reading.ofInput world.input)
  { exit := transcript.fault.elim 0 ShellFault.exitCode
    stdout := Utf8.encode transcript.shown
    stderr := transcript.scene.complaints ++
      transcript.fault.elim [] fun fault => Utf8.encode fault.report.render
    files := transcript.scene.files }

/-! ## The program -/

/-- What the user is told on how to use the program. -/
def usageText : String :=
  "Compile and run Tora programs\n\n" ++
  "Usage: tora [OPTIONS] [COMMAND]\n\n" ++
  "Commands:\n" ++
  "  run    Compile a source file and run it with Python\n" ++
  "  build  Compile every .tora file under a directory (or a single file) to .py\n" ++
  "  emit   Print the generated Python for one program\n" ++
  "  check  Check a source file for errors without running it\n" ++
  "  repl   Start the interactive shell (the default)\n" ++
  "  help   Print this message or the help of the given subcommand(s)\n"

/-- The line with the name and version of the program. -/
def versionLine : String := "tora 0.1.0\n"

/-- The outcome of arguments that lead to no task. -/
def Halt.outcome (files : FileTree) : Halt → Outcome
  | .misuse => { exit := 2, stderr := Utf8.encode usageText, files }
  | .help => .print files usageText
  | .version => .print files versionLine

/-- Does what an invocation asks for. -/
def perform (world : World) (invocation : Invocation) : Outcome :=
  match invocation.task with
  | .run file => runFile world invocation.interpreter file
  | .build root outDir => .ofStep (build world.files root outDir)
  | .emit input output => .ofStep (emit world input output)
  | .check file => .ofStep (world.files, checkFile world.files file)
  | .repl => runShell world invocation.interpreter

/-- Runs the program. -/
def runProgram (world : World) (args : List String) : Outcome :=
  match Invocation.ofArguments args with
  | .error halt => halt.outcome world.files
  | .ok invocation => perform world invocation

end ToraCompiler
