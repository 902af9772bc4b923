import ToraCompiler.Files.Tree
import ToraCompiler.Proofs.Files.Paths
import ToraCompiler.Proofs.Scope.Events

/-!
# What happens to the files of a tree

Making directories leaves the files of a tree as they are, and writing changes the one file to which the
path leads.  What is read at other places is the same before and after.
-/

namespace ToraCompiler.FileTree

variable {t t' t'' : FileTree}

/-- The content of the file at a place, if a file is there. -/
def content? (t : FileTree) (place : Place) : Option (List UInt8) :=
  match t.get? place with
  | some (.file content _) => some content
  | _ => none

theorem isSome_content?_iff {place : Place} :
    (t.content? place).isSome ↔ ∃ content executable, t.get? place = some (.file content executable) := by
  rw [content?]
  cases t.get? place with
  | none => simp
  | some node => cases node <;> simp

/-- One tree is another with files written over it: these are there, each with its content, and every other
file is as it was.  Directories stay, and there may be new ones. -/
structure Overlaid (t : FileTree) (outputs : List (Place × List UInt8)) (t' : FileTree) : Prop where
  /-- The working directory is the same. -/
  home : t'.home = t.home
  /-- What was a directory is one. -/
  directory : ∀ place, t.get? place = some .directory → t'.get? place = some .directory
  /-- What was written is there. -/
  written : ∀ place content, (place, content) ∈ outputs → t'.content? place = some content
  /-- Where nothing was written, there is the same file as before, or none as before. -/
  kept : ∀ place, place ∉ outputs.map Prod.fst → t'.content? place = t.content? place

namespace Overlaid

theorem refl (t : FileTree) : Overlaid t [] t :=
  ⟨rfl, fun _ here => here, by simp, fun _ _ => rfl⟩

/-- Writing goes on behind what was written, as long as nothing is written twice. -/
theorem trans {before after : List (Place × List UInt8)} (first : Overlaid t before t')
    (second : Overlaid t' after t'')
    (apart : ∀ place ∈ before.map Prod.fst, place ∉ after.map Prod.fst) :
    Overlaid t (before ++ after) t'' where
  home := second.home.trans first.home
  directory place here := second.directory place (first.directory place here)
  written place content mem := by
    obtain early | late := List.mem_append.1 mem
    · rw [second.kept place (apart place (List.mem_map_of_mem early))]
      exact first.written place content early
    · exact second.written place content late
  kept place unwritten := by
    rw [List.map_append, List.mem_append, not_or] at unwritten
    rw [second.kept place unwritten.2, first.kept place unwritten.1]

end Overlaid

theorem overlaid_fill_directory {slot : Slot t} (absent : t.get? slot.place = none)
    (fits : slot.Fits .directory) : Overlaid t [] (t.fill slot .directory fits) where
  home := rfl
  directory other here := by
    rw [get?_fill]
    split <;> simp [here]
  written := by simp
  kept other _ := by
    by_cases same : other = slot.place
    · simp [content?, get?_fill, same, absent]
    · simp [content?, get?_fill, same]

theorem overlaid_fill_file {slot : Slot t} {content : List UInt8} {executable : Bool}
    (fits : slot.Fits (.file content executable)) :
    Overlaid t [(slot.place, content)] (t.fill slot (.file content executable) fits) where
  home := rfl
  directory other here := by
    have apart : other ≠ slot.place := by
      rintro rfl
      cases fits here
    rw [get?_fill, if_neg apart, here]
  written other content' mem := by
    obtain ⟨rfl, rfl⟩ : other = slot.place ∧ content' = content := by simpa using mem
    simp [content?, get?_fill]
  kept other unwritten := by
    have apart : other ≠ slot.place := by simpa using unwritten
    simp [content?, get?_fill, apart]

/-! ## Finding places -/

/-- A step is taken in a directory, to the place to which it leads. -/
theorem enter_eq_ok_iff {here there : Place} {step : String} :
    t.enter here step = .ok there ↔
      t.get? here = some .directory ∧ step.utf8ByteSize ≤ nameLimit ∧ there = here.step step := by
  simp only [enter, Place.step]
  split
  · simp [*]
  · simp [*]
  · rename_i isDirectory
    by_cases stays : step = "."
    · subst stays
      simp [isDirectory, eq_comm, show ".".utf8ByteSize ≤ nameLimit by decide]
    · by_cases up : step = ".."
      · subst up
        simp [isDirectory, eq_comm, show "..".utf8ByteSize ≤ nameLimit by decide]
      · by_cases long : nameLimit < step.utf8ByteSize
        · simp [stays, up, long, Nat.not_le.2 long]
        · simp [isDirectory, stays, up, long, Nat.not_lt.1 long, eq_comm]

theorem follow_cons_eq_ok_iff {here there : Place} {step : String} {rest : List String} :
    t.follow here (step :: rest) = .ok there ↔
      ∃ next, t.enter here step = .ok next ∧ t.follow next rest = .ok there := by
  rw [follow]
  cases t.enter here step <;> simp

/-- Steps lead where their text says. -/
theorem place_of_follow {here there : Place} {steps : List String}
    (followed : t.follow here steps = .ok there) : there = steps.foldl Place.step here := by
  induction steps generalizing here with
  | nil => simpa [follow, eq_comm] using followed
  | cons step rest ih =>
    obtain ⟨next, entered, followed⟩ := follow_cons_eq_ok_iff.1 followed
    obtain ⟨-, -, rfl⟩ := enter_eq_ok_iff.1 entered
    exact ih followed

theorem follow_append_eq_ok_iff {here there : Place} {front rest : List String} :
    t.follow here (front ++ rest) = .ok there ↔
      ∃ next, t.follow here front = .ok next ∧ t.follow next rest = .ok there := by
  induction front generalizing here with
  | nil => simp [follow]
  | cons step front ih =>
    simp only [List.cons_append, follow_cons_eq_ok_iff, ih]
    grind

theorem follow_concat_eq_ok_iff {here there : Place} {front : List String} {step : String} :
    t.follow here (front ++ [step]) = .ok there ↔
      ∃ next, t.follow here front = .ok next ∧ t.enter next step = .ok there := by
  simp only [follow_append_eq_ok_iff, follow_cons_eq_ok_iff]
  simp [follow]

/-- Steps that can be taken can be taken as well where there are more directories. -/
theorem follow_of_directories
    (stay : ∀ place, t.get? place = some .directory → t'.get? place = some .directory)
    {here there : Place} {steps : List String} (followed : t.follow here steps = .ok there) :
    t'.follow here steps = .ok there := by
  induction steps generalizing here with
  | nil => exact followed
  | cons step rest ih =>
    obtain ⟨next, entered, followed⟩ := follow_cons_eq_ok_iff.1 followed
    obtain ⟨isDirectory, short, leads⟩ := enter_eq_ok_iff.1 entered
    have entered' := enter_eq_ok_iff.2 ⟨stay here isDirectory, short, leads⟩
    exact follow_cons_eq_ok_iff.2 ⟨next, entered', ih followed⟩

theorem origin_eq_ok_iff {path : Path} {start : Place} :
    t.origin path = .ok start ↔
      path.text.utf8ByteSize < pathLimit ∧ start = if path.isAbsolute then [] else t.home := by
  by_cases long : pathLimit ≤ path.text.utf8ByteSize
  · simp [origin, long, Nat.not_lt.2 long]
  · rw [origin, if_neg long, Except.ok.injEq, eq_comm]
    simp [Nat.not_le.1 long]

/-- The parts of a path lead as far as the path does. -/
theorem follow_parts_of_locate {path : Path} {place : Place} (located : t.locate path = .ok place) :
    t.follow (if path.isAbsolute then [] else t.home) path.parts = .ok place := by
  obtain ⟨start, begun, followed⟩ := bind_eq_ok_iff.1 located
  obtain ⟨-, rfl⟩ := origin_eq_ok_iff.1 begun
  by_cases slash : path.endsInSlash
  · rw [Path.steps, if_pos slash] at followed
    obtain ⟨next, followed, entered⟩ := follow_concat_eq_ok_iff.1 followed
    obtain ⟨-, -, rfl⟩ := enter_eq_ok_iff.1 entered
    simpa [Place.step] using followed
  · rwa [Path.steps, if_neg slash] at followed

/-- A path leads to the place that it names. -/
theorem place_of_locate {path : Path} {place : Place} (located : t.locate path = .ok place) :
    place = path.place t.home :=
  (place_of_follow (follow_parts_of_locate located)).trans (path.place_eq_foldl_parts t.home).symm

theorem short_of_locate {path : Path} {place : Place} (located : t.locate path = .ok place) :
    path.text.utf8ByteSize < pathLimit := by
  obtain ⟨start, begun, -⟩ := bind_eq_ok_iff.1 located
  exact (origin_eq_ok_iff.1 begun).1

theorem find_eq_ok_iff {path : Path} {place : Place} {node : Node} :
    t.find path = .ok (place, node) ↔ t.locate path = .ok place ∧ t.get? place = some node := by
  rw [find, bind_eq_ok_iff]
  constructor
  · rintro ⟨there, located, found⟩
    split at found
    · cases found
    · cases found
      exact ⟨located, ‹_›⟩
  · rintro ⟨located, present⟩
    exact ⟨place, located, by simp [present, pure, Except.pure]⟩

theorem place_of_find {path : Path} {place : Place} {node : Node} (found : t.find path = .ok (place, node)) :
    place = path.place t.home :=
  place_of_locate (find_eq_ok_iff.1 found).1

theorem slot_eq_ok {holder : Place} {name : String} {isName : IsFileName name} {slot : Slot t}
    (taken : t.slot holder isName = .ok slot) : slot.place = holder ++ [name] := by
  unfold FileTree.slot at taken
  split at taken
  · cases taken
  · cases taken
  · split at taken
    · cases taken
      rfl
    · cases taken

/-- The slot that a path leads to is at the place that the path names. -/
theorem place_of_slot {path : Path} {holder : Place} {name : String} (last : path.lastName? = some name)
    {slot : Slot t} (held : t.locateHolder path = .ok holder)
    (taken : t.slot holder (Path.isFileName_of_lastName? last) = .ok slot) :
    slot.place = path.place t.home := by
  obtain ⟨start, begun, followed⟩ := bind_eq_ok_iff.1 held
  obtain ⟨-, rfl⟩ := origin_eq_ok_iff.1 begun
  obtain ⟨ends, -⟩ := Option.filter_eq_some_iff.1 last
  obtain ⟨front, parts⟩ := List.getLast?_eq_some_iff.1 ends
  have stepped : holder = front.foldl Place.step (if path.isAbsolute then [] else t.home) := by
    simpa [parts, Place.step] using place_of_follow followed
  have leads := holder.step_name (Path.isFileName_of_lastName? last)
  rw [slot_eq_ok taken]
  simp [Path.place_eq_foldl_parts, parts, ← stepped, leads]

/-! ## Making directories -/

/-- A directory is made where nothing is. -/
theorem exists_of_makeDirectory {path : Path} (made : t.makeDirectory path = .ok t') :
    ∃ (slot : Slot t) (fits : slot.Fits .directory), t.get? slot.place = none ∧ t' = t.fill slot .directory fits := by
  obtain ⟨holder, held, made⟩ := bind_eq_ok_iff.1 made
  split at made
  · cases made
  · obtain ⟨slot, -, made⟩ := bind_eq_ok_iff.1 made
    split at made
    · cases made
    · cases made
      exact ⟨slot, fun _ => rfl, ‹_›, rfl⟩

theorem overlaid_of_makeDirectory {path : Path} (made : t.makeDirectory path = .ok t') : Overlaid t [] t' := by
  obtain ⟨slot, fits, absent, rfl⟩ := exists_of_makeDirectory made
  exact overlaid_fill_directory absent fits

theorem overlaid_of_ensureDirectory {path : Path} (ensured : t.ensureDirectory path = .ok t') :
    Overlaid t [] t' := by
  simp only [ensureDirectory] at ensured
  split at ensured
  · cases ensured
    exact overlaid_of_makeDirectory ‹_›
  · split at ensured
    · cases ensured
      exact .refl t
    · cases ensured

theorem overlaid_of_makeChain {paths : List Path} (made : t.makeChain paths = .ok t') : Overlaid t [] t' := by
  induction paths generalizing t' with
  | nil =>
    cases made
    exact .refl t
  | cons path above ih =>
    rw [makeChain] at made
    split at made
    · obtain ⟨between, madeAbove, ensured⟩ := bind_eq_ok_iff.1 made
      exact (ih madeAbove).trans (overlaid_of_ensureDirectory ensured) (by simp)
    · exact overlaid_of_ensureDirectory made

theorem overlaid_of_makeDirectories {path : Path} (made : t.makeDirectories path = .ok t') :
    Overlaid t [] t' :=
  overlaid_of_makeChain made

/-! ## Writing and reading -/

/-- A file is written to the place that its path names. -/
theorem exists_of_write {path : Path} {content : List UInt8} (written : t.write path content = .ok t') :
    ∃ (slot : Slot t) (executable : Bool) (fits : slot.Fits (.file content executable)),
      path.lastName?.isSome ∧ slot.place = path.place t.home ∧
      t' = t.fill slot (.file content executable) fits := by
  obtain ⟨holder, held, written⟩ := bind_eq_ok_iff.1 written
  split at written
  · cases written
  · rename_i name last
    by_cases slash : path.endsInSlash
    · rw [if_pos slash] at written
      cases written
    · rw [if_neg slash] at written
      obtain ⟨slot, taken, written⟩ := bind_eq_ok_iff.1 written
      have place := place_of_slot last held taken
      have named : path.lastName?.isSome := by rw [last, Option.isSome_some]
      split at written
      · cases written
      · cases written
        exact ⟨slot, _, _, named, place, rfl⟩
      · cases written
        exact ⟨slot, _, _, named, place, rfl⟩

/-- Writing changes the file to which the path leads. -/
theorem overlaid_of_write {path : Path} {content : List UInt8} (written : t.write path content = .ok t') :
    Overlaid t [(path.place t.home, content)] t' := by
  obtain ⟨slot, executable, fits, -, place, rfl⟩ := exists_of_write written
  rw [← place]
  exact overlaid_fill_file fits

/-- A path whose last part is a step is never written to. -/
theorem not_written_of_step {path : Path} (step : path.lastName? = none) (content : List UInt8) :
    t.write path content ≠ .ok t' := by
  intro written
  obtain ⟨-, -, -, named, -⟩ := exists_of_write written
  rw [step] at named
  cases named

theorem read_eq_ok_iff {path : Path} {content : List UInt8} :
    t.read path = .ok content ↔ ∃ place, t.locate path = .ok place ∧ t.content? place = some content := by
  rw [read, bind_eq_ok_iff]
  constructor
  · rintro ⟨⟨place, node⟩, found, read⟩
    obtain ⟨located, present⟩ := find_eq_ok_iff.1 found
    cases node with
    | directory => cases read
    | file kept executable =>
      cases read
      exact ⟨place, located, by simp [content?, present]⟩
  · rintro ⟨place, located, present⟩
    simp only [content?] at present
    split at present
    · cases present
      exact ⟨_, find_eq_ok_iff.2 ⟨located, ‹_›⟩, rfl⟩
    · cases present

theorem read_of_long {path : Path} (long : pathLimit ≤ path.text.utf8ByteSize) :
    t.read path = .error .nameTooLong := by
  have begun : t.origin path = .error .nameTooLong := by rw [origin, if_pos long]
  simp [read, find, locate, begun, bind, Except.bind]

/-- A file to which nothing was written reads as before. -/
theorem read_of_overlaid {outputs : List (Place × List UInt8)} (overlaid : Overlaid t outputs t')
    {path : Path} {content : List UInt8} (unwritten : path.place t.home ∉ outputs.map Prod.fst)
    (reads : t.read path = .ok content) : t'.read path = .ok content := by
  obtain ⟨place, located, present⟩ := read_eq_ok_iff.1 reads
  have same := place_of_locate located
  obtain ⟨start, begun, followed⟩ := bind_eq_ok_iff.1 located
  have begun' : t'.origin path = .ok start := by
    rw [← begun, origin, origin, overlaid.home]
  refine read_eq_ok_iff.2 ⟨place, ?_, ?_⟩
  · exact bind_eq_ok_iff.2 ⟨start, begun', follow_of_directories overlaid.directory followed⟩
  · rw [overlaid.kept place (same ▸ unwritten), present]

end ToraCompiler.FileTree
