/-!
# Paths

A path is text with slashes.  What it names is given by its steps, relative to the working directory; how
it is written shows in messages, so the operations below keep the writing wherever they can.
-/

namespace ToraCompiler

/-- Whether a text is a single part of a path. -/
def IsPart (name : String) : Prop :=
  name ≠ "" ∧ '/' ∉ name.toList

/-- Whether a text can name a file: it is a single part of a path and no step. -/
def IsFileName (name : String) : Prop :=
  IsPart name ∧ name ≠ "." ∧ name ≠ ".."

instance (name : String) : Decidable (IsPart name) :=
  inferInstanceAs (Decidable (_ ∧ _))

instance (name : String) : Decidable (IsFileName name) :=
  inferInstanceAs (Decidable (_ ∧ _ ∧ _))

/-- A path, as it is written. -/
structure Path where
  /-- The text. -/
  text : String
deriving DecidableEq, Repr

namespace Path

/-- Splits characters at slashes. -/
def splitSlashes : List Char → List (List Char)
  | [] => [[]]
  | c :: cs =>
    if c = '/' then [] :: splitSlashes cs
    else
      match splitSlashes cs with
      | [] => [[c]]
      | part :: parts => (c :: part) :: parts

/-- What stands between the slashes.  Repeated slashes mean one. -/
def parts (p : Path) : List String :=
  ((splitSlashes p.text.toList).filter (· ≠ [])).map String.ofList

theorem splitSlashes_ne_nil (cs : List Char) : splitSlashes cs ≠ [] := by
  cases cs with
  | nil => simp [splitSlashes]
  | cons c cs =>
    rw [splitSlashes]
    split
    · simp
    · split <;> simp

theorem notMem_of_mem_splitSlashes {cs part : List Char} (mem : part ∈ splitSlashes cs) : '/' ∉ part := by
  induction cs generalizing part with
  | nil => simp_all [splitSlashes]
  | cons c cs ih =>
    by_cases slash : c = '/'
    · obtain rfl | later : part = [] ∨ part ∈ splitSlashes cs := by simpa [splitSlashes, slash] using mem
      · simp
      · exact ih later
    · obtain ⟨first, rest, split⟩ := List.exists_cons_of_ne_nil (splitSlashes_ne_nil cs)
      obtain rfl | later : part = c :: first ∨ part ∈ rest := by simpa [splitSlashes, slash, split] using mem
      · simp [Ne.symm slash, ih (split ▸ List.mem_cons_self)]
      · exact ih (split ▸ List.mem_cons_of_mem _ later)

/-- The parts of a path are single ones. -/
theorem isPart_of_mem_parts {p : Path} {name : String} (mem : name ∈ p.parts) : IsPart name := by
  obtain ⟨part, kept, rfl⟩ := List.mem_map.1 mem
  obtain ⟨listed, present⟩ := List.mem_filter.1 kept
  exact ⟨by simpa using present, by simpa using notMem_of_mem_splitSlashes listed⟩

/-- Whether the path ends in a slash, and so asks for a directory. -/
def endsInSlash (p : Path) : Bool :=
  p.text.toList.getLast? = some '/'

/-- The steps of a path.  A slash at the end asks for a directory, which a last step to the same place does
as well. -/
def steps (p : Path) : List String :=
  if p.endsInSlash then p.parts ++ ["."] else p.parts

/-- Whether the path starts at the root and not in the working directory. -/
def isAbsolute (p : Path) : Bool :=
  p.text.toList.head? = some '/'

/-- The steps that name something: those to the same place count only at the very start. -/
def components (p : Path) : List String :=
  match p.parts with
  | [] => []
  | first :: rest =>
    let rest := rest.filter (· ≠ ".")
    if first = "." ∧ p.isAbsolute then rest else first :: rest

/-- The path of something inside this directory. -/
def join (p : Path) (relative : String) : Path where
  text :=
    if p.text = "" ∨ p.endsInSlash then p.text ++ relative
    else p.text ++ "/" ++ relative

/-- The last component, if it is a name. -/
def fileName? (p : Path) : Option String :=
  p.components.getLast?.filter fun last => last ≠ "." ∧ last ≠ ".."

/-- The last part, if it is a name and no step. -/
def lastName? (p : Path) : Option String :=
  p.parts.getLast?.filter fun last => last ≠ "." ∧ last ≠ ".."

theorem isFileName_of_lastName? {p : Path} {name : String} (last : p.lastName? = some name) :
    IsFileName name := by
  obtain ⟨ends, moves⟩ := Option.filter_eq_some_iff.1 last
  exact ⟨isPart_of_mem_parts (List.mem_of_getLast? ends), by simpa using moves⟩

/-- Splits a file name at its last dot: stem and extension.  A dot at the start belongs to the stem. -/
def splitExtension (name : String) : String × Option String :=
  let reversed := name.toList.reverse
  let extension := (reversed.takeWhile (· ≠ '.')).reverse
  match reversed.dropWhile (· ≠ '.') with
  | [] => (name, none)
  | _ :: before =>
    if before = [] then (name, none)
    else (String.ofList before.reverse, some (String.ofList extension))

/-- The extension of the file name. -/
def extension? (p : Path) : Option String :=
  p.fileName?.bind fun name => (splitExtension name).2

/-- Drops slashes, and steps to the same place, from the end of a path. -/
def trimSlashes (cs : List Char) : List Char :=
  (go cs.reverse).reverse
where
  /-- The same from the start of the reversed path.  A lone step at the front of the path stays. -/
  go : List Char → List Char
    | '/' :: rest => if rest = [] then ['/'] else go rest
    | '.' :: '/' :: rest => if rest = [] then ['/'] else go rest
    | cs => cs

/-- The directory that holds what the path names, and nothing for the root.  For a single name it is the
empty path. -/
def parent? (p : Path) : Option Path :=
  let trimmed := (trimSlashes p.text.toList).reverse
  if p.components = [] then none
  else
    match trimmed.dropWhile (· ≠ '/') with
    | [] => some ⟨""⟩
    | before => some ⟨String.ofList (trimSlashes before.reverse)⟩

/-- The path with this extension in place of the one that its file name has, or behind a name that has
none.  A path that ends in no name stays. -/
def setExtension (p : Path) (extension : String) : Path :=
  match p.fileName? with
  | none => p
  | some name =>
    let trimmed := trimSlashes p.text.toList
    let front := trimmed.take (trimmed.length - name.length)
    ⟨String.ofList front ++ (splitExtension name).1 ++ "." ++ extension⟩

/-- The path without the extension of its file name.  The dot before the extension stays. -/
def cutExtension (p : Path) : Path :=
  match p.extension? with
  | none => p
  | some extension => ⟨String.ofList (p.text.toList.take (p.text.length - extension.length))⟩

/-- The path with another extension for its file name.  The old one is cut off first, and what is left of
the name `..x` is then no name any more but a step upwards, which takes no extension. -/
def withExtension (p : Path) (extension : String) : Path :=
  p.cutExtension.setExtension extension

end Path

end ToraCompiler
