import ToraCompiler.SystemFault
import ToraCompiler.Text.Join

/-!
# Reports

A task that fails says what it was about, and below that what went wrong, from the nearest cause to the
last one.  Several causes are numbered; each line of a cause is indented to where its text starts.
-/

namespace ToraCompiler

/-- What the user is told about a failure. -/
structure Report where
  /-- What the program was doing. -/
  message : String
  /-- Why it failed, the nearest cause first. -/
  causes : List String := []
deriving DecidableEq, Repr

namespace Report

/-- The width of the numbers of causes. -/
def numberWidth : Nat := 5

/-- A text with blanks before it, up to a width. -/
def padLeft (width : Nat) (text : String) : String :=
  String.ofList (List.replicate (width - text.length) ' ') ++ text

/-- A text whose lines after the first start with a margin. -/
def hang (margin text : String) : String :=
  String.ofList (text.toList.flatMap fun c => if c = '\n' then c :: margin.toList else [c])

/-- A cause without a number. -/
def soleCause (cause : String) : String :=
  "    " ++ hang "    " cause

/-- A cause with its number. -/
def numberedCause (number : Nat) (cause : String) : String :=
  let label := padLeft numberWidth (toString number) ++ ": "
  label ++ hang "       " cause

/-- The lines for the causes. -/
def causeLines : List String → List String
  | [] => []
  | [cause] => [soleCause cause]
  | causes => causes.zipIdx.map fun (cause, number) => numberedCause number cause

/-- The text of a report. -/
def render (r : Report) : String :=
  let reasons :=
    if r.causes = [] then ""
    else "\n\nCaused by:\n" ++ joinLines (causeLines r.causes)
  "Error: " ++ r.message ++ reasons ++ "\n"

/-- The report of a fault that needs no more words. -/
def ofFault (fault : SystemFault) : Report where
  message := fault.message

/-- The report of something that failed because of the system. -/
def because (message : String) (fault : SystemFault) : Report where
  message := message
  causes := [fault.message]

end Report

end ToraCompiler
