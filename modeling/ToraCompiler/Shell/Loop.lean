import ToraCompiler.Compilation
import ToraCompiler.Interpreter.Link
import ToraCompiler.Shell.Entry

/-!
# The shell

The shell reads lines, gathers them into entries, compiles each entry in one session and has one running
interpreter execute it.  What the user gets to see is text; a rejected entry and a failed execution are
shown like any other result.  An interpreter that is of no use any more is replaced, and then the session
starts afresh, because the new process knows none of the earlier declarations.
-/

namespace ToraCompiler

/-- A way to start interpreters. -/
structure Launcher where
  /-- The name that messages use. -/
  interpreter : String
  /-- The conduct of a process that is started now, given the files, or why none starts. -/
  process : FileTree → Except SystemFault Conduct

/-- Starts a process. -/
def Launcher.start (launcher : Launcher) (scene : Scene) : Except LinkFault Link × Scene :=
  Link.start launcher.interpreter (launcher.process scene.files) scene

/-- Why the shell ends before its input. -/
inductive ShellFault where
  /-- There is no interpreter. -/
  | link (fault : LinkFault)
  /-- The input cannot be read. -/
  | unreadable (cause : SystemFault)
deriving DecidableEq, Repr

/-- The words for a fault. -/
def ShellFault.message : ShellFault → String
  | .link fault => fault.message
  | .unreadable cause => "REPL error: readline error: " ++ cause.message

/-- The fault of the system behind the fault, if messages tell it apart. -/
def ShellFault.cause? : ShellFault → Option SystemFault
  | .link fault => fault.cause?
  | .unreadable _ => none

/-- The state of the shell between two lines. -/
structure Shell where
  /-- What earlier entries declared. -/
  session : Session
  /-- The running interpreter. -/
  link : Link
  /-- What the interpreters share. -/
  scene : Scene
  /-- The lines of the entry that is not complete yet. -/
  pending : List String

namespace Shell

/-- What the user is told first. -/
def banner : String := "Tora Language REPL\nType 'exit' to quit\n"

/-- What the user is told on request. -/
def help : String :=
  "REPL Commands:\n" ++
  "  .help     - Show this help message\n" ++
  "  .reset    - Forget every declaration\n" ++
  "  exit      - Exit the REPL\n" ++
  "  quit      - Exit the REPL\n"

/-- The commands of the shell, which are recognised only where an entry would start. -/
inductive Command where
  /-- Nothing. -/
  | blank
  /-- Ends the shell. -/
  | quit
  /-- Shows the commands. -/
  | help
  /-- Starts afresh. -/
  | reset
deriving DecidableEq, Repr

/-- The command that a line is, if it is one. -/
def Command.ofLine? (line : String) : Option Command :=
  let word := String.ofList (trimBlank line.toList)
  if word = "" then some .blank
  else if word = "exit" ∨ word = "quit" then some .quit
  else if word = ".help" then some .help
  else if word = ".reset" then some .reset
  else none

/-- The end of a shell that is left without an interpreter. -/
structure Collapse where
  /-- Why the last interpreter did not start, or ended the shell. -/
  fault : LinkFault
  /-- What the interpreters leave. -/
  scene : Scene

/-- A shell that has just started its first interpreter. -/
def start (launcher : Launcher) (scene : Scene) : Except Collapse Shell :=
  match launcher.start scene with
  | (.ok link, scene') => .ok { session := {}, link, scene := scene', pending := [] }
  | (.error fault, scene') => .error ⟨fault, scene'⟩

/-- The same shell with a new interpreter and an empty session.  The old interpreter is closed when the new
one has been started. -/
def restart (launcher : Launcher) (shell : Shell) : Except Collapse Shell :=
  match launcher.start shell.scene with
  | (.ok link, scene) => .ok { session := {}, link, scene := shell.link.close scene, pending := [] }
  | (.error fault, scene) => .error ⟨fault, shell.link.close scene⟩

/-- What the interpreters leave when the shell ends. -/
def finish (shell : Shell) : Scene :=
  shell.link.close shell.scene

/-- A reply as the user sees it. -/
def shown (reply : Frame.Reply) : String :=
  let output := reply.output
  let closed := if output = "" ∨ output.toList.getLast? = some '\n' then output else output ++ "\n"
  match reply.error with
  | none => closed
  | some reason => closed ++ "Runtime Error: " ++ reason ++ "\n"

/-- What the user is told about an interpreter that had to be replaced. -/
def notice (fault : LinkFault) : String :=
  "Error: " ++ fault.message ++ "\nPython session restarted; earlier declarations were cleared\n"

/-- Compiles and executes an entry: what the user sees, and the shell afterwards.  An interpreter that
announces too much output ends the shell. -/
def evaluate (launcher : Launcher) (shell : Shell) (entry : String) :
    Except Collapse (String × Shell) :=
  match shell.session.compile entry with
  | .error d => .ok ("Error: " ++ d.render ++ "\n", { shell with pending := [] })
  | .ok (code, session) =>
    match shell.link.execute shell.scene code with
    | (.ok reply, link, scene) => .ok (shown reply, { session, link, scene, pending := [] })
    | (.error .oversized, link, scene) => .error ⟨.oversized, link.close scene⟩
    | (.error fault, link, scene) => do
      let fresh ← { shell with link, scene }.restart launcher
      return (notice fault, fresh)

/-- What comes of something that is read. -/
inductive Step where
  /-- The shell goes on. -/
  | next (shown : String) (shell : Shell)
  /-- The user ends it. -/
  | quit
  /-- A fault ends it. -/
  | fail (fault : ShellFault) (scene : Scene)

/-- The step of a command or a part of an entry that ends well unless there is no interpreter. -/
def Step.ofExcept : Except Collapse (String × Shell) → Step
  | .ok (shown, shell) => .next shown shell
  | .error collapse => .fail (.link collapse.fault) collapse.scene

/-- Takes a line to the pending entry, and evaluates the entry if that completes it. -/
def extend (launcher : Launcher) (shell : Shell) (line : String) : Step :=
  let pending := shell.pending ++ [line]
  let entry := joinLines pending
  if Entry.isComplete entry then .ofExcept (shell.evaluate launcher entry)
  else .next "" { shell with pending }

/-- Obeys a command. -/
def obey (launcher : Launcher) (shell : Shell) : Command → Step
  | .blank => .next "" shell
  | .quit => .quit
  | .help => .next help shell
  | .reset => .ofExcept do
    let fresh ← shell.restart launcher
    return ("Session reset\n", fresh)

/-- Takes a line. -/
def takeLine (launcher : Launcher) (shell : Shell) (line : String) : Step :=
  if shell.pending = [] then
    match Command.ofLine? line with
    | some command => shell.obey launcher command
    | none => shell.extend launcher line
  else shell.extend launcher line

/-- What the shell gets when it asks for a line. -/
inductive Reading where
  /-- A line. -/
  | line (text : String)
  /-- The user interrupts. -/
  | interrupt
  /-- The line cannot be read. -/
  | failed (cause : SystemFault)
deriving DecidableEq, Repr

/-- What the user is told after an interrupt: how to end the shell, or that the lines of an entry are dropped. -/
def interruption (pending : List String) : String :=
  if pending = [] then "Press Ctrl-D or type 'exit' to quit\n" else "^C\n"

/-- Takes what is read. -/
def take (launcher : Launcher) (shell : Shell) : Reading → Step
  | .line line => shell.takeLine launcher line
  | .interrupt => .next (interruption shell.pending) { shell with pending := [] }
  | .failed cause => .fail (.unreadable cause) shell.finish

/-! ## Lines of an input -/

/-- The line that these octets are, without the end of the line. -/
def Reading.ofLine (octets : List UInt8) : Reading :=
  match Utf8.decode? octets with
  | none => .failed .invalidText
  | some text =>
    let cs := text.toList
    if cs.getLast? = some '\n' then
      let body := cs.dropLast
      .line (String.ofList (if body.getLast? = some '\r' then body.dropLast else body))
    else .line text

/-- The lines of an input, each with its end.  There is no empty line after the last end. -/
def splitLines (octets : List UInt8) : List (List UInt8) :=
  match octets with
  | [] => []
  | octet :: rest =>
    if octet = Frame.lineEnd then [octet] :: splitLines rest
    else
      match splitLines rest with
      | [] => [[octet]]
      | line :: lines => (octet :: line) :: lines

/-- What the shell reads from an input that is no terminal. -/
def Reading.ofInput (octets : List UInt8) : List Reading :=
  (splitLines octets).map Reading.ofLine

/-! ## Runs -/

/-- All that comes of a run of the shell. -/
structure Transcript where
  /-- Everything the user sees. -/
  shown : String
  /-- The fault that ended the shell, if one did. -/
  fault : Option ShellFault
  /-- What the interpreters leave. -/
  scene : Scene

/-- The transcript of a run that starts with something shown. -/
def Transcript.after (shown : String) (later : Transcript) : Transcript :=
  { later with shown := shown ++ later.shown }

/-- The transcript of a shell that has ended for want of an interpreter. -/
def Collapse.transcript (collapse : Collapse) : Transcript :=
  ⟨"", some (.link collapse.fault), collapse.scene⟩

/-- Takes what is read until something ends the shell, or to the end of the input. -/
def takeAll (launcher : Launcher) (shell : Shell) : List Reading → Transcript
  | [] => ⟨"\n", none, shell.finish⟩
  | reading :: rest =>
    match shell.take launcher reading with
    | .quit => ⟨"", none, shell.finish⟩
    | .fail fault scene => ⟨"", some fault, scene⟩
    | .next shown shell' => (takeAll launcher shell' rest).after shown

/-- Runs the shell on what it reads. -/
def run (launcher : Launcher) (files : FileTree) (readings : List Reading) : Transcript :=
  match start launcher { files } with
  | .error collapse => collapse.transcript
  | .ok shell => (shell.takeAll launcher readings).after banner

end Shell

end ToraCompiler
