import ToraCompiler.Diagnostic

/-!
# Tokens

A token is a piece of the source with its kind and the place where it starts.
-/

namespace ToraCompiler

/-- The kinds of tokens. -/
inductive Kind where
  | letKeyword
  | fnKeyword
  | ifKeyword
  | elseKeyword
  | whileKeyword
  | forKeyword
  | printKeyword
  | printlnKeyword
  | returnKeyword
  | identifier
  | number
  | string
  | plus
  | minus
  | star
  | slash
  | equal
  | assign
  | notEqual
  | lessEqual
  | greaterEqual
  | less
  | greater
  | semicolon
  | colon
  | comma
  | openParen
  | closeParen
  | openBrace
  | closeBrace
  | openBracket
  | closeBracket
  /-- The end of the source, which comes after every other token. -/
  | endOfInput
deriving DecidableEq, Repr

namespace Kind

/-- The word for a kind in messages. -/
def label : Kind → String
  | letKeyword => "LET"
  | fnKeyword => "FN"
  | ifKeyword => "IF"
  | elseKeyword => "ELSE"
  | whileKeyword => "WHILE"
  | forKeyword => "FOR"
  | printKeyword => "PRINT"
  | printlnKeyword => "PRINTLN"
  | returnKeyword => "RETURN"
  | identifier => "IDENTIFIER"
  | number => "NUMBER"
  | string => "STRING"
  | plus => "PLUS"
  | minus => "MINUS"
  | star => "MULTIPLY"
  | slash => "DIVIDE"
  | equal => "EQUALS"
  | assign => "ASSIGN"
  | notEqual => "NOT_EQUALS"
  | lessEqual => "LESS_EQUAL"
  | greaterEqual => "GREATER_EQUAL"
  | less => "LESS_THAN"
  | greater => "GREATER_THAN"
  | semicolon => "SEMICOLON"
  | colon => "COLON"
  | comma => "COMMA"
  | openParen => "LPAREN"
  | closeParen => "RPAREN"
  | openBrace => "LBRACE"
  | closeBrace => "RBRACE"
  | openBracket => "LBRACKET"
  | closeBracket => "RBRACKET"
  | endOfInput => "EOF"

end Kind

/-- A token. -/
structure Token where
  /-- What it is. -/
  kind : Kind
  /-- The characters it is made of. -/
  text : String
  /-- Where it starts. -/
  position : Position
deriving DecidableEq, Repr

end ToraCompiler
