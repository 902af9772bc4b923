/-!
# Entries of the shell

Lines typed at the shell are gathered until they can be a whole input: until no bracket is open outside
strings and comments.  A string without an end and a closing bracket too many do not hold an input back;
compiling it will tell what is wrong.
-/

namespace ToraCompiler.Entry

/-- Where a walk over an input stands. -/
structure Balance where
  /-- How many more brackets have been opened than closed. -/
  depth : Int
  /-- Whether a string is open. -/
  inString : Bool
deriving DecidableEq, Repr

/-- What a character outside strings and comments adds to the depth. -/
def weight (c : Char) : Int :=
  if c = '\x7b' ∨ c = '[' ∨ c = '(' then 1
  else if c = '\x7d' ∨ c = ']' ∨ c = ')' then -1
  else 0

/-- The region of the input that a character stands in. -/
inductive Region where
  /-- Outside strings and comments. -/
  | code
  /-- In a string. -/
  | string
  /-- In a string, behind a backslash. -/
  | escape
  /-- In a comment, which the end of the line closes. -/
  | comment
deriving DecidableEq, Repr

/-- The balance at the end of an input of which the rest is given. -/
def balanceFrom (region : Region) (depth : Int) : List Char → Balance
  | [] => ⟨depth, region = .string ∨ region = .escape⟩
  | c :: cs =>
    match region with
    | .escape => balanceFrom .string depth cs
    | .string =>
      if c = '\\' then balanceFrom .escape depth cs
      else if c = '"' then balanceFrom .code depth cs
      else balanceFrom .string depth cs
    | .comment => balanceFrom (if c = '\n' then .code else .comment) depth cs
    | .code =>
      if c = '"' then balanceFrom .string depth cs
      else if c = '/' ∧ cs.head? = some '/' then balanceFrom .comment depth cs
      else balanceFrom .code (depth + weight c) cs

/-- Whether an input need not be held back. -/
def isComplete (input : String) : Bool :=
  let balance := balanceFrom .code 0 input.toList
  balance.depth ≤ 0 || balance.inString

end ToraCompiler.Entry
