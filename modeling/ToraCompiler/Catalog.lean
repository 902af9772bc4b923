/-!
# The catalog of built-in names

Every name that a program may use without declaring it.  Each stands for some text of the host language;
for a function the catalog also says how a call of it is written.
-/

namespace ToraCompiler

/-- How a call of a built-in function is written. -/
inductive CallForm where
  /-- The host text, then the arguments. -/
  | byHostText
  /-- The name itself, then the arguments; the prologue binds the name. -/
  | byName
  /-- The host text in parentheses, then the arguments. -/
  | parenthesized
  /-- A call of the host's printing function, which ends the line or not. -/
  | printing (newline : Bool)
  /-- A method call on the first of two arguments. -/
  | append
deriving DecidableEq, Repr

/-- A built-in function. -/
structure Builtin where
  /-- Its name in the language. -/
  name : String
  /-- The host text that the name is bound to. -/
  host : String
  /-- How a call is written. -/
  form : CallForm
deriving DecidableEq, Repr

/-- Whether the prologue has to bind the name. -/
def Builtin.isRebound (b : Builtin) : Bool :=
  b.host ≠ b.name

/-- A built-in constant. -/
structure Constant where
  /-- Its name in the language. -/
  name : String
  /-- The host text that is written in its place. -/
  host : String
deriving DecidableEq, Repr

namespace Catalog

/-- The built-in functions, in the order of the prologue. -/
def functions : List Builtin := [
  ⟨"print", "print", .printing false⟩,
  ⟨"println", "print", .printing true⟩,
  ⟨"len", "len", .byHostText⟩,
  ⟨"str", "str", .byHostText⟩,
  ⟨"int", "int", .byHostText⟩,
  ⟨"float", "float", .byHostText⟩,
  ⟨"abs", "abs", .byHostText⟩,
  ⟨"max", "max", .byHostText⟩,
  ⟨"min", "min", .byHostText⟩,
  ⟨"pow", "pow", .byHostText⟩,
  ⟨"sqrt", "math.sqrt", .byHostText⟩,
  ⟨"sin", "math.sin", .byHostText⟩,
  ⟨"cos", "math.cos", .byHostText⟩,
  ⟨"tan", "math.tan", .byHostText⟩,
  ⟨"log", "math.log", .byHostText⟩,
  ⟨"log10", "math.log10", .byHostText⟩,
  ⟨"ceil", "math.ceil", .byHostText⟩,
  ⟨"floor", "math.floor", .byHostText⟩,
  ⟨"round", "round", .byHostText⟩,
  ⟨"push", "list.append", .append⟩,
  ⟨"pop", "list.pop", .byHostText⟩,
  ⟨"contains", "lambda lst, item: item in lst", .parenthesized⟩,
  ⟨"sum", "sum", .byHostText⟩,
  ⟨"average", "lambda lst: sum(lst) / len(lst) if lst else 0", .parenthesized⟩,
  ⟨"max_list", "max", .byHostText⟩,
  ⟨"min_list", "min", .byHostText⟩,
  ⟨"random", "random_module.random", .byName⟩,
  ⟨"randint", "random_module.randint", .byName⟩,
  ⟨"time", "datetime.datetime.now", .byHostText⟩,
  ⟨"timestamp", "lambda: datetime.datetime.now().timestamp()", .parenthesized⟩,
  ⟨"is_int", "lambda x: isinstance(x, int)", .parenthesized⟩,
  ⟨"is_float", "lambda x: isinstance(x, float)", .parenthesized⟩,
  ⟨"is_str", "lambda x: isinstance(x, str)", .parenthesized⟩,
  ⟨"is_bool", "lambda x: isinstance(x, bool)", .parenthesized⟩,
  ⟨"is_list", "lambda x: isinstance(x, list)", .parenthesized⟩]

/-- The built-in constants, in the order of the prologue. -/
def constants : List Constant := [
  ⟨"PI", "math.pi"⟩,
  ⟨"E", "math.e"⟩,
  ⟨"TRUE", "True"⟩,
  ⟨"FALSE", "False"⟩,
  ⟨"NONE", "None"⟩]

/-- The built-in function of this name. -/
def function? (name : String) : Option Builtin :=
  functions.find? (·.name = name)

/-- The built-in constant of this name. -/
def constant? (name : String) : Option Constant :=
  constants.find? (·.name = name)

end Catalog

end ToraCompiler
