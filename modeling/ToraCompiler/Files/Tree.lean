import ToraCompiler.Files.Entries
import ToraCompiler.SystemFault

/-!
# Trees of files

The files and directories of a system, as far as they are known, and the working directory, where relative
paths start.  A tree carries the proofs that its entries are in order and stand in directories, under names that
files can have, and everything that changes a tree goes through a free or occupied slot in one of its directories
(`FileTree.Slot`).

What is simpler than in a system: there are only regular files and directories, so no place is reached on two ways
and no file is a device or a pipe; whoever asks may read and write everything; and a walk is listed as a whole at the
moment when it is asked for, so files that are written while its files are gone through are not met.
-/

namespace ToraCompiler

/-- The largest number of octets in a name. -/
def FileTree.nameLimit : Nat := 255

/-- A tree of files with a working directory. -/
structure FileTree where
  /-- The entries. -/
  entries : List (Place × Node)
  /-- The working directory. -/
  home : Place
  /-- The entries come in the order of their places, and no place is taken twice. -/
  sorted : entries.Pairwise fun entry later => entry.1.before later.1
  /-- The root is no entry. -/
  below : ∀ entry ∈ entries, entry.1 ≠ []
  /-- The names are file names, and none is too long. -/
  named : ∀ entry ∈ entries, ∀ name ∈ entry.1, IsFileName name ∧ name.utf8ByteSize ≤ FileTree.nameLimit
  /-- What is in front of the last name is a directory. -/
  held : ∀ entry ∈ entries, Entries.get? entries entry.1.dropLast = some .directory
  /-- The working directory is there. -/
  rooted : Entries.get? entries home = some .directory

namespace FileTree

/-- The tree with nothing but the root. -/
def bare : FileTree where
  entries := []
  home := []
  sorted := .nil
  below := nofun
  named := nofun
  held := nofun
  rooted := rfl

/-- The node at a place.  The root is always there. -/
def get? (t : FileTree) (place : Place) : Option Node :=
  Entries.get? t.entries place

@[simp]
theorem get?_root (t : FileTree) : t.get? [] = some .directory := by
  rw [get?, Entries.get?, if_pos rfl]

/-- The tree with another working directory. -/
def settle (t : FileTree) (home : Place) (isDirectory : t.get? home = some .directory) : FileTree :=
  { t with home := home, rooted := isDirectory }

theorem get?_eq_some_iff {t : FileTree} {place : Place} (below : place ≠ []) {node : Node} :
    t.get? place = some node ↔ (place, node) ∈ t.entries := by
  have apart : (t.entries.map Prod.fst).Nodup := List.pairwise_map.2 (t.sorted.imp Place.ne_of_before)
  rw [get?, Entries.get?, if_neg below, Entries.lookup_eq_some_iff_of_nodup apart]

theorem named_of_get? {t : FileTree} {place : Place} {node : Node} (present : t.get? place = some node) :
    ∀ name ∈ place, IsFileName name ∧ name.utf8ByteSize ≤ nameLimit := by
  by_cases root : place = []
  · simp [root]
  · exact t.named _ ((get?_eq_some_iff root).1 present)

/-! ## Slots -/

/-- A name in a directory of a tree, where something may stand or be put. -/
structure Slot (t : FileTree) where
  /-- The directory. -/
  holder : Place
  /-- The name. -/
  name : String
  /-- The directory is there. -/
  inside : t.get? holder = some .directory
  /-- The name can name a file. -/
  isName : IsFileName name
  /-- The name is not too long. -/
  short : name.utf8ByteSize ≤ nameLimit

namespace Slot

variable {t : FileTree}

/-- The place of a slot. -/
def place (slot : Slot t) : Place :=
  slot.holder ++ [slot.name]

theorem place_ne_nil (slot : Slot t) : slot.place ≠ [] :=
  List.concat_ne_nil _ _

/-- A node may come into a slot unless it would take the place of a directory. -/
def Fits (slot : Slot t) (node : Node) : Prop :=
  t.get? slot.place = some .directory → node = .directory

instance (slot : Slot t) (node : Node) : Decidable (slot.Fits node) :=
  inferInstanceAs (Decidable (_ → _))

theorem get?_insert (slot : Slot t) (node : Node) (other : Place) :
    Entries.get? (Entries.insert slot.place node t.entries) other =
      if other = slot.place then some node else t.get? other :=
  Entries.get?_insert slot.place_ne_nil node t.entries other

/-- A node that fits into a slot leaves all directories. -/
theorem Fits.stays {slot : Slot t} {node : Node} (fits : slot.Fits node) {place : Place}
    (isDirectory : t.get? place = some .directory) :
    Entries.get? (Entries.insert slot.place node t.entries) place = some .directory := by
  rw [slot.get?_insert]
  split
  · rename_i same
    rw [fits (same ▸ isDirectory)]
  · exact isDirectory

end Slot

/-- The slot for a name in a directory that has to be there. -/
def slot (t : FileTree) (holder : Place) {name : String} (isName : IsFileName name) :
    Except SystemFault (Slot t) :=
  match inside : t.get? holder with
  | none => .error .notFound
  | some (.file _ _) => .error .notDirectory
  | some .directory =>
    if short : name.utf8ByteSize ≤ nameLimit then .ok { holder, name, inside, isName, short }
    else .error .nameTooLong

/-- The tree with a node in a slot. -/
def fill (t : FileTree) (slot : Slot t) (node : Node) (fits : slot.Fits node) : FileTree where
  entries := Entries.insert slot.place node t.entries
  home := t.home
  sorted := Entries.sorted_insert slot.place node t.sorted
  below entry mem := by
    obtain rfl | mem := Entries.mem_of_mem_insert mem
    · exact slot.place_ne_nil
    · exact t.below entry mem
  named entry mem part part_mem := by
    obtain rfl | mem := Entries.mem_of_mem_insert mem
    · obtain above | here := List.mem_append.1 part_mem
      · exact named_of_get? slot.inside part above
      · obtain rfl := List.mem_singleton.1 here
        exact ⟨slot.isName, slot.short⟩
    · exact t.named entry mem part part_mem
  held entry mem := by
    obtain rfl | mem := Entries.mem_of_mem_insert mem
    · have above : slot.place.dropLast = slot.holder := List.dropLast_concat
      exact above ▸ fits.stays slot.inside
    · exact fits.stays (t.held entry mem)
  rooted := fits.stays t.rooted

/-- What was put into a slot is there, and everything else is as before. -/
theorem get?_fill (t : FileTree) (slot : Slot t) {node : Node} (fits : slot.Fits node) (other : Place) :
    (t.fill slot node fits).get? other = if other = slot.place then some node else t.get? other :=
  slot.get?_insert node other

/-! ## Planting -/

/-- The tree with a node behind names that lead on from a place, and with the directories on the way.  Where that
cannot be, the tree grows as far as it can. -/
def plantBehind (t : FileTree) (holder : Place) (node : Node) : List String → FileTree
  | [] => t
  | name :: rest =>
    if isName : IsFileName name then
      match t.slot holder isName with
      | .error _ => t
      | .ok slot =>
        let wanted := if rest = [] then node else .directory
        let kept := rest ≠ [] ∧ (t.get? slot.place).isSome
        let grown := if fits : ¬kept ∧ slot.Fits wanted then t.fill slot wanted fits.2 else t
        grown.plantBehind slot.place node rest
    else t

/-- The tree with a node at a place, and with the directories that lead to it. -/
def plant (t : FileTree) (place : Place) (node : Node) : FileTree :=
  t.plantBehind [] node place

/-- A tree with nothing but a working directory. -/
def ofHome (home : Place) : FileTree :=
  let t := bare.plant home .directory
  if isDirectory : t.get? home = some .directory then t.settle home isDirectory else t

/-! ## Finding places -/

/-- The smallest number of octets that a path may not have. -/
def pathLimit : Nat := 4096

/-- Takes a step.  It has to start in a directory; whether there is anything where it leads is left open. -/
def enter (t : FileTree) (here : Place) (step : String) : Except SystemFault Place :=
  match t.get? here with
  | none => .error .notFound
  | some (.file _ _) => .error .notDirectory
  | some .directory =>
    if step = "." then .ok here
    else if step = ".." then .ok here.dropLast
    else if nameLimit < step.utf8ByteSize then .error .nameTooLong
    else .ok (here ++ [step])

/-- Takes steps in order, up to the first that fails. -/
def follow (t : FileTree) (here : Place) : List String → Except SystemFault Place
  | [] => .ok here
  | step :: rest =>
    match t.enter here step with
    | .ok there => t.follow there rest
    | .error fault => .error fault

/-- Where the steps of a path start.  A path that is too long starts nowhere. -/
def origin (t : FileTree) (path : Path) : Except SystemFault Place :=
  if pathLimit ≤ path.text.utf8ByteSize then .error .nameTooLong
  else .ok (if path.isAbsolute then [] else t.home)

/-- The place that a path leads to. -/
def locate (t : FileTree) (path : Path) : Except SystemFault Place := do
  t.follow (← t.origin path) path.steps

/-- The directory, which is there, from which the last part of a path leads on. -/
def locateHolder (t : FileTree) (path : Path) : Except SystemFault Place := do
  t.follow (← t.origin path) (path.parts.dropLast ++ ["."])

/-- What a path leads to. -/
def find (t : FileTree) (path : Path) : Except SystemFault (Place × Node) := do
  let place ← t.locate path
  match t.get? place with
  | none => throw .notFound
  | some node => return (place, node)

/-- Whether a path leads to a directory. -/
def isDirectory (t : FileTree) (path : Path) : Bool :=
  match t.find path with
  | .ok (_, .directory) => true
  | _ => false

/-! ## Reading and writing -/

/-- The content of the file that a path leads to. -/
def read (t : FileTree) (path : Path) : Except SystemFault (List UInt8) := do
  match ← t.find path with
  | (_, .directory) => throw .isDirectory
  | (_, .file content _) => return content

/-- Writes a file, whose directory has to be there.  A file that was there keeps its permissions.  A path
that ends in a step or in a slash never leads to a file. -/
def write (t : FileTree) (path : Path) (content : List UInt8) : Except SystemFault FileTree := do
  let holder ← t.locateHolder path
  match last : path.lastName? with
  | none => throw .isDirectory
  | some _ =>
    if path.endsInSlash then throw .isDirectory
    let slot ← t.slot holder (Path.isFileName_of_lastName? last)
    match present : t.get? slot.place with
    | some .directory => throw .isDirectory
    | some (.file _ executable) => return t.fill slot (.file content executable) (by simp [Slot.Fits, present])
    | none => return t.fill slot (.file content false) (by simp [Slot.Fits, present])

/-- Makes a directory in a directory that is there. -/
def makeDirectory (t : FileTree) (path : Path) : Except SystemFault FileTree := do
  let holder ← t.locateHolder path
  match last : path.lastName? with
  | none => throw .alreadyExists
  | some _ =>
    let slot ← t.slot holder (Path.isFileName_of_lastName? last)
    match t.get? slot.place with
    | some _ => throw .alreadyExists
    | none => return t.fill slot .directory fun _ => rfl

/-- The path and the directories above it, as far as they have names. -/
def ancestors (path : Path) : List Path :=
  go path.components.length path
where
  /-- At most `n` of them. -/
  go : Nat → Path → List Path
    | 0, _ => []
    | n + 1, p =>
      if p.text = "" then []
      else
        match p.parent? with
        | none => []
        | some above => p :: go n above

/-- Makes a directory.  It is no fault if there is one already. -/
def ensureDirectory (t : FileTree) (path : Path) : Except SystemFault FileTree :=
  match t.makeDirectory path with
  | .ok t' => .ok t'
  | .error fault => if t.isDirectory path then .ok t else .error fault

/-- Makes the first of these directories, and those of the others that are missing. -/
def makeChain (t : FileTree) : List Path → Except SystemFault FileTree
  | [] => .ok t
  | path :: above =>
    match t.ensureDirectory path with
    | .error .notFound => do
      let t' ← t.makeChain above
      t'.ensureDirectory path
    | result => result

/-- Makes a directory with all that is missing above it. -/
def makeDirectories (t : FileTree) (path : Path) : Except SystemFault FileTree :=
  t.makeChain (ancestors path)

/-! ## Walking -/

/-- A file met on a walk. -/
structure Found where
  /-- The path to it, from the path at which the walk started. -/
  path : Path
  /-- The names from the start of the walk; none if the walk started at the file. -/
  names : List String
deriving DecidableEq, Repr

/-- The names that lead from one place to another below it. -/
def below? : Place → Place → Option (List String)
  | [], place => some place
  | _ :: _, [] => none
  | a :: as, b :: bs => if a = b then below? as bs else none

/-- The entry as a walk from `root`, which leads to `start`, meets it, if it is a file below there. -/
def meet? (root : Path) (start : Place) : Place × Node → Option Found
  | (place, .file _ _) =>
    (below? start place).map fun names => ⟨names.foldl Path.join root, names⟩
  | (_, .directory) => none

/-- All files that a path leads to or that are below it, in the order of the walk. -/
def walk (t : FileTree) (root : Path) : Except SystemFault (List Found) := do
  let (start, _) ← t.find root
  return t.entries.filterMap (meet? root start)

/-! ## Comparing -/

/-- The files that `t` has and `old` has not, or not with the same content. -/
def changes (old t : FileTree) : List (Place × List UInt8) :=
  t.entries.filterMap fun (place, node) =>
    match node with
    | .directory => none
    | .file content _ =>
      match old.get? place with
      | some (.file content' _) => if content' = content then none else some (place, content)
      | _ => some (place, content)

end FileTree

end ToraCompiler
