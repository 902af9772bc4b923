import ToraCompiler.Files.Path

/-!
# Invocations

The arguments of the program say which task it is to do.  They are read from left to right, in two levels:
first those of the program itself, up to the name of a task, and then those of the task.  At both levels an
argument is an option, the value of the option before it, or an operand; after `--` everything is an
operand.  The interpreter and the verbosity can be given at both levels, and then the value of the task
counts.
-/

namespace ToraCompiler

/-- What the program can do. -/
inductive Task where
  /-- Compile a file and have the interpreter run it. -/
  | run (file : Path)
  /-- Compile all files below a path. -/
  | build (root : Path) (outDir : Option Path)
  /-- Print what a file, or the input, compiles to. -/
  | emit (input output : Option Path)
  /-- Look for mistakes in a file. -/
  | check (file : Path)
  /-- Start the shell. -/
  | repl
deriving DecidableEq, Repr

/-- A task with the options that all tasks share. -/
structure Invocation where
  /-- The interpreter for compiled programs. -/
  interpreter : String := "python3"
  /-- How much is logged. -/
  verbosity : Nat := 0
  /-- What is to be done. -/
  task : Task := .repl
deriving DecidableEq, Repr

/-- Why the arguments lead to no task. -/
inductive Halt where
  /-- They are wrong. -/
  | misuse
  /-- They ask how the program is used. -/
  | help
  /-- They ask for the version. -/
  | version
deriving DecidableEq, Repr

namespace Invocation

/-! ## Words -/

/-- The names of the tasks. -/
inductive Verb where
  | run
  | build
  | emit
  | check
  | repl
deriving DecidableEq, Repr

/-- How the tasks are written. -/
def verbs : List (String × Verb) :=
  [("run", .run), ("build", .build), ("emit", .emit), ("check", .check), ("repl", .repl)]

/-- The options. -/
inductive Switch where
  | interpreter
  | verbose
  | help
  | version
  | outDir
  | input
  | output
deriving DecidableEq, Repr

/-- What an option wants to be given. -/
inductive Demand where
  /-- Nothing. -/
  | nothing
  /-- Any text. -/
  | text
  /-- A path, which is not empty. -/
  | path
deriving DecidableEq, Repr

/-- What an option wants. -/
def Switch.demand : Switch → Demand
  | .interpreter => .text
  | .outDir | .input | .output => .path
  | .verbose | .help | .version => .nothing

/-- How an option is written. -/
structure Spelling where
  /-- The option. -/
  switch : Switch
  /-- The name after two dashes. -/
  long : String
  /-- The letter after one dash. -/
  short : Option Char
deriving DecidableEq, Repr

/-- What can be written at a level. -/
structure Level where
  /-- The options. -/
  spellings : List Spelling
  /-- Whether there is an operand. -/
  takesOperand : Bool
  /-- Whether tasks can be named. -/
  takesVerb : Bool

/-- The options that are there at each level. -/
def shared : List Spelling :=
  [⟨.interpreter, "python", none⟩, ⟨.verbose, "verbose", some 'v'⟩, ⟨.help, "help", some 'h'⟩]

/-- The level of the program itself. -/
def outerLevel : Level where
  spellings := ⟨.version, "version", some 'V'⟩ :: shared
  takesOperand := false
  takesVerb := true

/-- The level of a task. -/
def Verb.level : Verb → Level
  | .run => ⟨shared, true, false⟩
  | .build => ⟨⟨.outDir, "out-dir", some 'o'⟩ :: shared, true, false⟩
  | .emit => ⟨⟨.input, "input", some 'i'⟩ :: ⟨.output, "output", some 'o'⟩ :: shared, false, false⟩
  | .check => ⟨shared, true, false⟩
  | .repl => ⟨shared, false, false⟩

/-- The option with this name. -/
def Level.long? (level : Level) (name : List Char) : Option Switch :=
  (level.spellings.find? (·.long.toList = name)).map (·.switch)

/-- The option with this letter. -/
def Level.short? (level : Level) (letter : Char) : Option Switch :=
  (level.spellings.find? (·.short = some letter)).map (·.switch)

/-! ## Arguments at one level -/

/-- What has been given at a level. -/
structure Given where
  /-- The values of options. -/
  values : List (Switch × String) := []
  /-- How often more logging was asked for. -/
  verbosity : Nat := 0
  /-- The operand. -/
  operand : Option String := none

namespace Given

/-- Sets an option that wants no value. -/
def set (given : Given) : Switch → Except Halt Given
  | .help => .error .help
  | .version => .error .version
  | _ => .ok { given with verbosity := given.verbosity + 1 }

/-- Gives an option its value, which can be done once. -/
def give (given : Given) (switch : Switch) (value : String) : Except Halt Given :=
  if (given.values.lookup switch).isSome ∨ (switch.demand = .path ∧ value = "") then .error .misuse
  else .ok { given with values := (switch, value) :: given.values }

/-- Takes an operand. -/
def take (given : Given) (level : Level) (value : String) : Except Halt Given :=
  if level.takesOperand ∧ given.operand = none ∧ value ≠ "" then
    .ok { given with operand := some value }
  else .error .misuse

/-- The path that was given to an option. -/
def path? (given : Given) (switch : Switch) : Option Path :=
  (given.values.lookup switch).map Path.mk

end Given

/-- A level that has been read in part: what has been given, and the option that waits for its value. -/
structure Progress where
  /-- What has been given. -/
  given : Given := {}
  /-- The option that waits. -/
  waiting : Option Switch := none

/-- Reads an option after two dashes. -/
def Level.readLong (level : Level) (given : Given) (text : List Char) : Except Halt Progress :=
  let name := text.takeWhile (· ≠ '=')
  match level.long? name with
  | none => .error .misuse
  | some switch =>
    match text.dropWhile (· ≠ '='), switch.demand with
    | [], .nothing => do return { given := ← given.set switch }
    | [], _ => .ok { given, waiting := some switch }
    | _ :: _, .nothing => .error .misuse
    | _ :: value, _ => do return { given := ← given.give switch (String.ofList value) }

/-- Reads letters after one dash.  The first of them that wants a value takes the rest, less an equals
sign, or waits if there is none. -/
def Level.readLetters (level : Level) (given : Given) : List Char → Except Halt Progress
  | [] => .ok { given }
  | letter :: rest =>
    match level.short? letter with
    | none => .error .misuse
    | some switch =>
      if switch.demand = .nothing then do level.readLetters (← given.set switch) rest
      else
        match rest with
        | [] => .ok { given, waiting := some switch }
        | '=' :: value => do return { given := ← given.give switch (String.ofList value) }
        | value => do return { given := ← given.give switch (String.ofList value) }

/-- The forms of an argument. -/
inductive Shape where
  /-- The mark after which there are only operands. -/
  | rest
  /-- An option by name. -/
  | long (text : List Char)
  /-- Options by letter. -/
  | letters (text : List Char)
  /-- Anything else, such as a lone dash. -/
  | plain
deriving DecidableEq, Repr

/-- The form of an argument. -/
def Shape.of (arg : String) : Shape :=
  match arg.toList with
  | ['-', '-'] => .rest
  | '-' :: '-' :: text => .long text
  | ['-'] => .plain
  | '-' :: text => .letters text
  | _ => .plain

/-- The task that was named, and the arguments after its name. -/
abbrev Named := Option (String × List String)

/-- Reads arguments that can only be operands. -/
def Level.readOperands (level : Level) (given : Given) : List String → Except Halt Given
  | [] => .ok given
  | arg :: rest => do level.readOperands (← given.take level arg) rest

/-- Reads the arguments of a level, up to the name of a task. -/
def Level.read (level : Level) (progress : Progress) : List String → Except Halt (Given × Named)
  | [] => if progress.waiting.isSome then .error .misuse else .ok (progress.given, none)
  | arg :: rest =>
    match Shape.of arg, progress.waiting with
    | .plain, some switch => do level.read { given := ← progress.given.give switch arg } rest
    | _, some _ => .error .misuse
    | .rest, none => do return (← level.readOperands progress.given rest, none)
    | .long text, none => do level.read (← level.readLong progress.given text) rest
    | .letters text, none => do level.read (← level.readLetters progress.given text) rest
    | .plain, none =>
      if level.takesVerb then .ok (progress.given, some (arg, rest))
      else do level.read { given := ← progress.given.take level arg } rest

/-! ## Both levels -/

/-- The operand of a task, which has to be there. -/
def Given.file (given : Given) : Except Halt Path :=
  match given.operand with
  | some value => .ok ⟨value⟩
  | none => .error .misuse

/-- The task, with what was given to it. -/
def Verb.task (given : Given) : Verb → Except Halt Task
  | .run => return .run (← given.file)
  | .build => return .build (← given.file) (given.path? .outDir)
  | .emit => .ok (.emit (given.path? .input) (given.path? .output))
  | .check => return .check (← given.file)
  | .repl => .ok .repl

/-- The answer to `help`, which may be about a task. -/
def helpFor (topics : List String) : Halt :=
  match topics with
  | [] => .help
  | [topic] => if topic = "help" ∨ (verbs.lookup topic).isSome then .help else .misuse
  | _ => .misuse

/-- The invocation with the options given at one level, as far as they were given there. -/
def withGiven (invocation : Invocation) (given : Given) : Invocation where
  interpreter := (given.values.lookup .interpreter).getD invocation.interpreter
  verbosity := if given.verbosity = 0 then invocation.verbosity else given.verbosity
  task := invocation.task

/-- What the arguments ask for. -/
def ofArguments (args : List String) : Except Halt Invocation := do
  let (outer, named) ← outerLevel.read {} args
  let base := withGiven {} outer
  match named with
  | none => return base
  | some (name, rest) =>
    if name = "help" then throw (helpFor rest)
    match verbs.lookup name with
    | none => throw .misuse
    | some verb =>
      let (inner, _) ← verb.level.read {} rest
      let task ← verb.task inner
      return { withGiven base inner with task }

end Invocation

end ToraCompiler
