import ToraCompiler.Catalog
import ToraCompiler.Text.Join

/-!
# The prologue

The host text that every program needs first: the modules that the built-in names rely on, the constants,
and a binding for each function that the host calls by another name.
-/

namespace ToraCompiler.Host

/-- The imports at the top. -/
def imports : List String := ["import math", "import random", "import datetime"]

/-- Since `random` is a built-in name as well, the module of that name gets another one. -/
def randomImport : String := "import random as random_module"

/-- Whether the function lives in the renamed module. -/
def usesRandomModule (b : Builtin) : Bool :=
  "random_module.".toList.isPrefixOf b.host.toList

/-- The line that binds a name to its host text. -/
def binding (name host : String) : String :=
  name ++ " = " ++ host

/-- The prologue, which ends with an empty line. -/
def prologue : String :=
  joinLines <|
    imports ++ [""] ++
    Catalog.constants.map (fun c => binding c.name c.host) ++ [""] ++
    (if Catalog.functions.any usesRandomModule then [randomImport] else []) ++
    (Catalog.functions.filter Builtin.isRebound).map (fun b => binding b.name b.host) ++ [""]

end ToraCompiler.Host
