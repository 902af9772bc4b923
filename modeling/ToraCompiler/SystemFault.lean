/-!
# Faults of the system

What can go wrong when the program reads, writes or starts something outside itself.
-/

namespace ToraCompiler

/-- A failed request to the system. -/
inductive SystemFault where
  /-- Nothing has that name. -/
  | notFound
  /-- The file is no program. -/
  | notExecutable
  /-- The file may not be used that way. -/
  | permissionDenied
  /-- Something has that name already. -/
  | alreadyExists
  /-- A directory was due. -/
  | notDirectory
  /-- A file was due. -/
  | isDirectory
  /-- The name, or the whole path, is too long. -/
  | nameTooLong
  /-- Files that lead to each other do so too often. -/
  | tooManyLinks
  /-- Nobody reads what is written. -/
  | brokenPipe
  /-- The octets are no text. -/
  | invalidText
  /-- There are fewer octets than promised. -/
  | unexpectedEnd
deriving DecidableEq, Repr

namespace SystemFault

/-- The words for a fault. -/
def reason : SystemFault → String
  | .notFound => "No such file or directory"
  | .notExecutable => "Exec format error"
  | .permissionDenied => "Permission denied"
  | .alreadyExists => "File exists"
  | .notDirectory => "Not a directory"
  | .isDirectory => "Is a directory"
  | .nameTooLong => "File name too long"
  | .tooManyLinks => "Too many levels of symbolic links"
  | .brokenPipe => "Broken pipe"
  | .invalidText => "stream did not contain valid UTF-8"
  | .unexpectedEnd => "failed to fill whole buffer"

/-- The number by which the system knows a fault.  The faults that the program itself finds have none. -/
def number? : SystemFault → Option Nat
  | .notFound => some 2
  | .notExecutable => some 8
  | .permissionDenied => some 13
  | .alreadyExists => some 17
  | .notDirectory => some 20
  | .isDirectory => some 21
  | .brokenPipe => some 32
  | .nameTooLong => some 36
  | .tooManyLinks => some 40
  | .invalidText => none
  | .unexpectedEnd => none

/-- The full message: the words, and the number if there is one. -/
def message (fault : SystemFault) : String :=
  match fault.number? with
  | some n => fault.reason ++ " (os error " ++ toString n ++ ")"
  | none => fault.reason

end SystemFault

end ToraCompiler
