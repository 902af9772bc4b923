import ToraCompiler.Files.Tree

/-!
# Processes

What the program can know of a process that it has started: what the process writes and does to the files
when it gets something to read, and how it ends.  A process gets its input in turns.  Between two turns it
waits, and others may change the files.
-/

namespace ToraCompiler

/-! ## Signals -/

namespace Signal

/-- The names of the signals, by number. -/
def names : List (Nat × String) :=
  [(1, "SIGHUP"), (2, "SIGINT"), (3, "SIGQUIT"), (4, "SIGILL"), (5, "SIGTRAP"), (6, "SIGABRT"),
    (7, "SIGBUS"), (8, "SIGFPE"), (9, "SIGKILL"), (10, "SIGUSR1"), (11, "SIGSEGV"), (12, "SIGUSR2"),
    (13, "SIGPIPE"), (14, "SIGALRM"), (15, "SIGTERM"), (16, "SIGSTKFLT"), (17, "SIGCHLD"),
    (18, "SIGCONT"), (19, "SIGSTOP"), (20, "SIGTSTP"), (21, "SIGTTIN"), (22, "SIGTTOU"), (23, "SIGURG"),
    (24, "SIGXCPU"), (25, "SIGXFSZ"), (26, "SIGVTALRM"), (27, "SIGPROF"), (28, "SIGWINCH"),
    (29, "SIGIO"), (30, "SIGPWR"), (31, "SIGSYS")]

end Signal

/-! ## Ends of processes -/

/-- How a process ended. -/
inductive ExitStatus where
  /-- By itself, with a code. -/
  | code (n : Nat)
  /-- By a signal. -/
  | signal (n : Nat)
deriving DecidableEq, Repr

/-- The words for a status. -/
def ExitStatus.text : ExitStatus → String
  | .code n => "exit status: " ++ toString n
  | .signal n =>
    "signal: " ++ toString n ++
      (match Signal.names.lookup n with
      | some name => " (" ++ name ++ ")"
      | none => "")

/-! ## Turns -/

/-- What a process finds when it goes on. -/
structure Turn where
  /-- What it can read now. -/
  octets : List UInt8
  /-- Whether its input ends behind that. -/
  last : Bool
  /-- The files. -/
  files : FileTree

/-- What a process does in a turn. -/
structure Answer where
  /-- What it prints. -/
  stdout : List UInt8
  /-- What it complains about. -/
  stderr : List UInt8
  /-- The files it leaves. -/
  files : FileTree
  /-- How it ended, if it did. -/
  status : Option ExitStatus
  /-- How many octets of its input it had not read when it ended. -/
  unheard : Nat

/-- How a process answers its latest turn, given all its turns in order. -/
abbrev Conduct := List Turn → Answer

/-- A program that can be started: the conduct of its processes, given their arguments. -/
abbrev Executable := List String → Conduct

/-- The largest number of octets that can wait for a process to read them. -/
def pipeCapacity : Nat := 65536

/-- Whether a process ended so early that what it got to read could not be delivered. -/
def Answer.isDeaf (answer : Answer) : Bool :=
  pipeCapacity < answer.unheard

end ToraCompiler
