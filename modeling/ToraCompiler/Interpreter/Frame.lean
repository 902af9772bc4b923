import ToraCompiler.SystemFault
import ToraCompiler.Text.Blank
import ToraCompiler.Text.Numeral
import ToraCompiler.Text.Quoted
import ToraCompiler.Text.Utf8

/-!
# Frames

The interpreter and the program talk in frames over two streams of octets.  A request is the length of
the code in octets, on a line, and then the code.  A reply is the length of the output, on a line, then the
output, then a line with the status: `ok`, or `err` and a message.  Lengths make both unambiguous,
whatever the code and the output contain.
-/

namespace ToraCompiler

/-- Why the interpreter is of no use any more. -/
inductive LinkFault where
  /-- It cannot be started. -/
  | notStarted (interpreter : String) (cause : SystemFault)
  /-- It went away. -/
  | exited
  /-- It sent something else than a length. -/
  | badLength (line : String)
  /-- It sent something else than a status. -/
  | badStatus (line : String)
  /-- It rejected the prologue. -/
  | prologueFailed (reason : String)
  /-- Its stream broke. -/
  | broken (cause : SystemFault)
  /-- It announced more output than there can be. -/
  | oversized
deriving DecidableEq, Repr

namespace LinkFault

/-- The words for a fault. -/
def message : LinkFault → String
  | .notStarted interpreter cause => "failed to start " ++ interpreter ++ ": " ++ cause.message
  | .exited => lost ++ "driver exited"
  | .badLength line => lost ++ "unexpected length line " ++ Quoted.quote line
  | .badStatus line => lost ++ "unexpected status line " ++ Quoted.quote line
  | .prologueFailed reason => lost ++ "prologue failed: " ++ reason
  | .broken cause => "I/O error while talking to Python: " ++ cause.message
  | .oversized => "capacity overflow"
where
  /-- What the faults of the conversation have in common. -/
  lost : String := "lost connection to the Python driver: "

/-- The fault of the system behind the fault, if there is one. -/
def cause? : LinkFault → Option SystemFault
  | .notStarted _ cause => some cause
  | .broken cause => some cause
  | _ => none

end LinkFault

namespace Frame

/-- The octet that ends a line. -/
def lineEnd : UInt8 := 10

/-- The octets of a request. -/
def request (code : String) : List UInt8 :=
  let octets := Utf8.encode code
  Utf8.encode (toString octets.length) ++ lineEnd :: octets

/-- The greatest length of an output. -/
def lengthLimit : Nat := 9223372036854775807

/-- The length that a line announces. -/
def length (line : String) : Except LinkFault Nat :=
  match Numeral.word64? line.toList with
  | some n => .ok n
  | none => .error (.badLength line)

/-- The message in a status line, and none for success. -/
def status (line : String) : Except LinkFault (Option String) :=
  if line = "ok" then .ok none
  else if "err ".toList.isPrefixOf line.toList then .ok (some (String.ofList (line.toList.drop 4)))
  else .error (.badStatus line)

/-- Splits off the first line, with its end if it has one. -/
def splitLine (octets : List UInt8) : List UInt8 × List UInt8 :=
  let line := octets.takeWhile (· ≠ lineEnd)
  match octets.dropWhile (· ≠ lineEnd) with
  | [] => (line, [])
  | newline :: rest => (line ++ [newline], rest)

/-- The text of a line, without the white space at its end. -/
def lineText (line : List UInt8) : Except LinkFault String :=
  match Utf8.decode? line with
  | some text => .ok (String.ofList (trimBlankEnd text.toList))
  | none => .error (.broken .invalidText)

/-- A reply: what came of running some code. -/
structure Reply where
  /-- What the code printed. -/
  output : String
  /-- The message of the exception that ended it, if one did. -/
  error : Option String
deriving DecidableEq, Repr

/-- Reads one reply from the octets that have arrived, and gives what is left of them. -/
def readReply (octets : List UInt8) : Except LinkFault (Reply × List UInt8) := do
  if octets = [] then throw .exited
  let (header, body) := splitLine octets
  let length ← length (← lineText header)
  if lengthLimit < length then throw .oversized
  if body.length < length then throw (.broken .unexpectedEnd)
  let (line, rest) := splitLine (body.drop length)
  let error ← status (← lineText line)
  return ({ output := Utf8.decodeLossy (body.take length), error }, rest)

end Frame

end ToraCompiler
