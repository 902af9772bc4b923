import Mathlib.Control.Monad.Basic
import ToraCompiler.CommandLine.Build
import ToraCompiler.Proofs.Files.Walk

/-!
# What a build changes

A build reads every source as it was at the start, since no module takes the place of a source, and each
module has a place of its own.  So the files after a build are those from before with modules written over
them, one for each source up to the first that does not compile (`build_translates`).
-/

namespace ToraCompiler

open FileTree (Found Overlaid)

/-! ## Sources and modules -/

/-- Whether the name of a place is that of a source: its extension is `tora`, with something in front. -/
def IsSourcePlace (place : Place) : Prop :=
  ∃ folder stem, stem ≠ "" ∧ place = folder ++ [stem ++ "." ++ sourceExtension]

/-- The name of the module of a source, which differs in the extension. -/
def moduleName (source : String) : String :=
  (Path.splitExtension source).1 ++ "." ++ moduleExtension

/-- The place for the module of a source that a walk from `start` met behind these names: next to the
source, or behind the same names below another directory. -/
def modulePlace (home : Place) (outDir : Option Path) (start : Place) (names : List String) : Place :=
  let source := start ++ names
  let folder :=
    match outDir with
    | none => source.dropLast
    | some dir => dir.place home ++ names.dropLast
  folder ++ (source.getLast?.map moduleName).toList

/-- The sources at a root, which leads to `start`, and below it, in the order of a walk. -/
structure IsSourceList (t : FileTree) (root : Path) (start : Place) (sources : List Found) : Prop where
  /-- They come in the order of their places, and so each comes once. -/
  ordered : (sources.map fun found => start ++ found.names).Pairwise fun place later => place.before later
  /-- They are the files there that have the name of a source, each with the root and its names for a path. -/
  mem_iff : ∀ found, found ∈ sources ↔
    found.path = found.names.foldl Path.join root ∧
      (t.content? (start ++ found.names)).isSome ∧ IsSourcePlace (start ++ found.names)
  /-- What is read of a source is its content, unless its path is too long. -/
  read_iff : ∀ found ∈ sources, ∀ content, t.read found.path = .ok content ↔
    found.path.text.utf8ByteSize < FileTree.pathLimit ∧ t.content? (start ++ found.names) = some content

/-- The modules of some sources are delivered one after another, and none of the deliveries fails. -/
inductive Delivered (outDir : Option Path) : FileTree → List (Found × String) → FileTree → Prop
  | nil {files : FileTree} : Delivered outDir files [] files
  | cons {files between files' : FileTree} {found : Found} {text : String} {rest : List (Found × String)} :
    deliver files (destination outDir found) text = (between, .ok ()) →
    Delivered outDir between rest files' → Delivered outDir files ((found, text) :: rest) files'

theorem eq_of_succeeded {result : FileTree × Except Report Unit} (succeeded : result.2 = .ok ()) :
    result = (result.1, .ok ()) := by
  rw [← succeeded]

theorem Delivered.cons_of_succeeded {outDir : Option Path} {files files' : FileTree} {found : Found}
    {text : String} {rest : List (Found × String)}
    (succeeded : (deliver files (destination outDir found) text).2 = .ok ())
    (delivered : Delivered outDir (deliver files (destination outDir found) text).1 rest files') :
    Delivered outDir files ((found, text) :: rest) files' :=
  .cons (eq_of_succeeded succeeded) delivered

theorem splitExtension_of_source {name stem : String} :
    Path.splitExtension name = (stem, some sourceExtension) ↔
      name = stem ++ "." ++ sourceExtension ∧ stem ≠ "" := by
  have dotless : '.' ∉ sourceExtension.toList := by decide
  simp [Path.splitExtension_eq_iff, dotless]

theorem moduleName_source {stem : String} (present : stem ≠ "") :
    moduleName (stem ++ "." ++ sourceExtension) = stem ++ "." ++ moduleExtension := by
  rw [moduleName, splitExtension_of_source.2 ⟨rfl, present⟩]

theorem isFileName_module {stem : String} (isName : IsFileName (stem ++ "." ++ sourceExtension)) :
    IsFileName (stem ++ "." ++ moduleExtension) := by
  have long : ∀ step : String, step.length ≤ 2 → stem ++ "." ++ moduleExtension ≠ step := by
    rintro step short rfl
    simp only [String.length_append, moduleExtension, show ".".length = 1 from rfl,
      show "py".length = 2 from rfl] at short
    omega
  have slashless : '/' ∉ stem.toList := fun slash => isName.1.2 (by simp [slash])
  have isPart : IsPart (stem ++ "." ++ moduleExtension) :=
    ⟨long "" (by decide), by simp [slashless, moduleExtension]⟩
  exact ⟨isPart, long "." (by decide), long ".." (by decide)⟩

/-- Modules and sources have different names. -/
theorem moduleName_ne_source (stem other : String) (present : stem ≠ "") (present' : other ≠ "") :
    stem ++ "." ++ moduleExtension ≠ other ++ "." ++ sourceExtension := by
  intro same
  have split := Path.splitExtension_eq_iff.2
    ⟨rfl, present, (by decide : '.' ∉ moduleExtension.toList)⟩
  rw [same, splitExtension_of_source.2 ⟨rfl, present'⟩] at split
  simp [sourceExtension, moduleExtension] at split

theorem modulePlace_eq (home : Place) (outDir : Option Path) {start folder : Place} {names : List String}
    {stem : String} (present : stem ≠ "") (named : start ++ names = folder ++ [stem ++ "." ++ sourceExtension]) :
    modulePlace home outDir start names =
      (match outDir with
        | none => folder
        | some dir => dir.place home ++ names.dropLast) ++ [stem ++ "." ++ moduleExtension] := by
  cases outDir <;> simp [modulePlace, named, moduleName_source present]

theorem eq_dropLast_concat {start names folder : Place} {last : String}
    (named : start ++ names = folder ++ [last]) (further : names ≠ []) : names = names.dropLast ++ [last] := by
  have whole := List.dropLast_concat_getLast further
  rw [← whole, ← List.append_assoc] at named
  obtain ⟨-, same⟩ := List.append_inj' named rfl
  rw [← same, whole]

theorem destination_below (dir : Path) {found : Found} (further : found.names ≠ []) :
    destination (some dir) found = (found.names.foldl Path.join dir).withExtension moduleExtension := by
  cases names : found.names with
  | nil => exact absurd names further
  | cons first rest => simp [destination, names]

/-! ## Deliveries -/

theorem overlaid_of_prepareDirectory {files files' : FileTree} {path : Path}
    (prepared : prepareDirectory files path = .ok files') : Overlaid files [] files' := by
  simp only [prepareDirectory] at prepared
  split at prepared
  · cases prepared
    exact .refl files
  · split at prepared
    · cases prepared
      exact .refl files
    · split at prepared
      · cases prepared
        exact FileTree.overlaid_of_makeDirectories ‹_›
      · cases prepared

/-- What is delivered is written, and at most directories come with it. -/
theorem write_of_deliver {files files' : FileTree} {path : Path} {text : String}
    (delivered : deliver files path text = (files', .ok ())) :
    ∃ prepared, Overlaid files [] prepared ∧ prepared.write path (Utf8.encode text) = .ok files' := by
  cases made : prepareDirectory files path with
  | error report => simp [deliver, made] at delivered
  | ok prepared =>
    refine ⟨prepared, overlaid_of_prepareDirectory made, ?_⟩
    cases written : prepared.write path (Utf8.encode text) with
    | error fault => simp [deliver, made, written] at delivered
    | ok files'' =>
      obtain rfl : files'' = files' := by simpa [deliver, made, written] using delivered
      rfl

/-- A module is never delivered to a step. -/
theorem not_delivered_of_step {files files' : FileTree} {path : Path} {text : String}
    (step : path.lastName? = none) : deliver files path text ≠ (files', .ok ()) := by
  intro delivered
  obtain ⟨prepared, -, written⟩ := write_of_deliver delivered
  exact FileTree.not_written_of_step step _ written

/-- A delivery changes the file to which its path leads. -/
theorem overlaid_of_deliver {files files' : FileTree} {path : Path} {text : String}
    (delivered : deliver files path text = (files', .ok ())) :
    Overlaid files [(path.place files.home, Utf8.encode text)] files' := by
  obtain ⟨prepared, made, written⟩ := write_of_deliver delivered
  have overlaid := made.trans (FileTree.overlaid_of_write written) (by simp)
  rwa [made.home] at overlaid

/-! ## Files met on a walk -/

section Met

variable {t : FileTree} {root : Path} {start : Place} {node : Node} {found : Found}
  (rooted : t.find root = .ok (start, node)) (walked : found.path = found.names.foldl Path.join root)
  (met : (t.content? (start ++ found.names)).isSome)
include rooted walked met

/-- The sources of a build are those files met on its walk that have the name of a source. -/
theorem isSource_iff : isSource found ↔ IsSourcePlace (start ++ found.names) := by
  obtain ⟨folder, name, path, isName, place⟩ := FileTree.exists_join_met rooted met
  rw [isSource, walked, path, Path.extension?_join folder isName, decide_eq_true_iff, IsSourcePlace, place]
  constructor
  · intro extension
    obtain ⟨shape, present⟩ := splitExtension_of_source.1 (Prod.ext rfl extension)
    exact ⟨_, _, present, by rw [← shape]⟩
  · rintro ⟨folder', stem, present, same⟩
    obtain rfl : name = stem ++ "." ++ sourceExtension := by simpa using congrArg List.getLast? same
    rw [splitExtension_of_source.2 ⟨rfl, present⟩]

/-- A module goes to the directory that holds its place, under its name. -/
theorem exists_folder (outDir : Option Path) :
    ∃ (folder : Path) (name : String), IsFileName name ∧ (start ++ found.names).getLast? = some name ∧
      destination outDir found = (folder.join name).withExtension moduleExtension ∧
      modulePlace t.home outDir start found.names = folder.place t.home ++ [moduleName name] := by
  obtain ⟨folder, name, path, isName, place⟩ := FileTree.exists_join_met rooted met
  have last : (start ++ found.names).getLast? = some name := by simp [place]
  cases outDir with
  | none =>
    refine ⟨folder, name, isName, last, ?_, ?_⟩
    · simp only [destination]
      rw [walked, path]
    · simp [modulePlace, place]
  | some dir =>
    obtain itself | ⟨front, name', names⟩ := found.names.eq_nil_or_concat'
    · have file : found.path.fileName? = some name := by
        rw [walked, path, Path.fileName?_join folder isName.1 isName.2.1, if_neg isName.2.2]
      refine ⟨dir, name, isName, last, ?_, ?_⟩
      · simp [destination, itself, file]
      · simp only [modulePlace, last]
        simp [itself]
    · obtain rfl : name' = name := by simpa [names] using last
      have named : ∀ part ∈ front, IsFileName part := by
        obtain ⟨content, executable, present⟩ := FileTree.isSome_content?_iff.1 met
        exact fun part mem => (FileTree.named_of_get? present part (by simp [names, mem])).1
      refine ⟨front.foldl Path.join dir, name', isName, last, ?_, ?_⟩
      · rw [destination_below dir (by simp [names]), names, List.foldl_append]
        rfl
      · simp [modulePlace, names, Path.place_foldl_join t.home dir named]

/-- A source that is nothing but a dot and the extension behind another dot has no module: what its name
becomes is the step upwards. -/
theorem not_delivered_of_dot (outDir : Option Path) {folder : Place}
    (dot : start ++ found.names = folder ++ ["." ++ "." ++ sourceExtension]) {files files' : FileTree}
    {text : String} : deliver files (destination outDir found) text ≠ (files', .ok ()) := by
  obtain ⟨holder, name, isName, last, goes, -⟩ := exists_folder rooted walked met outDir
  obtain rfl : name = "." ++ "." ++ sourceExtension := by simpa [dot] using last.symm
  refine not_delivered_of_step ?_
  rw [goes, holder.withExtension_join_dot moduleExtension isName (splitExtension_of_source.2 ⟨rfl, by decide⟩),
    Path.lastName?, holder.parts_join (by decide)]
  simp

/-- A delivered module is at its place, and all other files are as before. -/
theorem overlaid_of_delivered_module (outDir : Option Path) (source : IsSourcePlace (start ++ found.names))
    {files files' : FileTree} (home : files.home = t.home) {text : String}
    (delivered : deliver files (destination outDir found) text = (files', .ok ())) :
    Overlaid files [(modulePlace t.home outDir start found.names, Utf8.encode text)] files' := by
  obtain ⟨folder, stem, present, named⟩ := source
  have moves : stem ≠ "." := by
    rintro rfl
    exact not_delivered_of_dot rooted walked met outDir named delivered
  obtain ⟨holder, name, isName, last, goes, place⟩ := exists_folder rooted walked met outDir
  obtain rfl : name = stem ++ "." ++ sourceExtension := by simpa [named] using last.symm
  have isModule := isFileName_module isName
  have leads : (destination outDir found).place files.home = modulePlace t.home outDir start found.names := by
    have split := splitExtension_of_source.2 ⟨rfl, present⟩
    rw [goes, holder.withExtension_join moduleExtension isName split moves,
      Path.place_join files.home holder isModule, place, moduleName_source present, home]
  rw [← leads]
  exact overlaid_of_deliver delivered

end Met

/-- A build takes the sources at its root and below it. -/
theorem isSourceList_sourcesBelow {t : FileTree} {root : Path} {start : Place} {node : Node}
    (rooted : t.find root = .ok (start, node)) {sources : List Found}
    (listed : sourcesBelow t root = .ok sources) : IsSourceList t root start sources := by
  have walked := FileTree.walk_of_find rooted
  rw [sourcesBelow, walked] at listed
  obtain rfl := Except.ok.inj listed
  have sublist := (List.filter_sublist (p := isSource)
    (l := t.entries.filterMap (FileTree.meet? root start))).map fun found => start ++ found.names
  have mem_iff : ∀ found, found ∈ (t.entries.filterMap (FileTree.meet? root start)).filter isSource ↔
      found.path = found.names.foldl Path.join root ∧
        (t.content? (start ++ found.names)).isSome ∧ IsSourcePlace (start ++ found.names) := by
    intro found
    rw [List.mem_filter, FileTree.mem_met_iff]
    constructor
    · rintro ⟨⟨walked, met⟩, source⟩
      exact ⟨walked, met, (isSource_iff rooted walked met).1 source⟩
    · rintro ⟨walked, met, source⟩
      exact ⟨⟨walked, met⟩, (isSource_iff rooted walked met).2 source⟩
  refine ⟨(FileTree.ordered_places root start).sublist sublist, mem_iff, ?_⟩
  intro found mem content
  obtain ⟨walked, met, -⟩ := (mem_iff found).1 mem
  rw [walked]
  exact FileTree.read_met_iff rooted met

/-! ## Places of modules -/

/-- Sources with the same place for their modules are the same. -/
theorem names_of_modulePlace {t : FileTree} (outDir : Option Path) {start : Place}
    {names names' : List String}
    (met : (t.content? (start ++ names)).isSome) (source : IsSourcePlace (start ++ names))
    (met' : (t.content? (start ++ names')).isSome) (source' : IsSourcePlace (start ++ names'))
    (same : modulePlace t.home outDir start names = modulePlace t.home outDir start names') :
    names = names' := by
  obtain ⟨folder, stem, present, named⟩ := source
  obtain ⟨folder', stem', present', named'⟩ := source'
  rw [modulePlace_eq t.home outDir present named, modulePlace_eq t.home outDir present' named'] at same
  obtain ⟨folders, lasts⟩ := List.append_inj' same rfl
  obtain rfl : stem = stem' := by simpa [String.append_left_inj] using lasts
  cases outDir with
  | none =>
    obtain rfl : folder = folder' := folders
    exact List.append_cancel_left (named.trans named'.symm)
  | some dir =>
    have fronts : names.dropLast = names'.dropLast := List.append_cancel_left folders
    by_cases itself : names = []
    · subst itself
      exact (FileTree.eq_nil_of_met_start (by simpa using met) met').symm
    · by_cases itself' : names' = []
      · subst itself'
        exact absurd (FileTree.eq_nil_of_met_start (by simpa using met') met) itself
      · rw [eq_dropLast_concat named itself, eq_dropLast_concat named' itself', fronts]

/-- No module takes the place of a source. -/
theorem modulePlace_ne_source (home : Place) (outDir : Option Path) {start : Place} {names names' : List String}
    (source : IsSourcePlace (start ++ names)) (source' : IsSourcePlace (start ++ names')) :
    modulePlace home outDir start names ≠ start ++ names' := by
  obtain ⟨folder, stem, present, named⟩ := source
  obtain ⟨folder', stem', present', named'⟩ := source'
  rw [modulePlace_eq home outDir present named, named']
  intro same
  obtain ⟨-, lasts⟩ := List.append_inj' same rfl
  exact moduleName_ne_source stem stem' present present' (List.singleton_inj.1 lasts)

/-! ## Runs -/

/-- What the text of a source's module leaves among the files. -/
def moduleFile (home : Place) (outDir : Option Path) (start : Place) (made : Found × String) :
    Place × List UInt8 :=
  (modulePlace home outDir start made.1.names, Utf8.encode made.2)

theorem buildFile_of_compiled (outDir : Option Path) {files : FileTree} {found : Found} {text : String}
    (compiled : moduleOf files found.path = .ok text) :
    buildFile outDir files found = deliver files (destination outDir found) text := by
  simp only [buildFile, compiled]

theorem buildFiles_cons_of_ok {outDir : Option Path} {files files' : FileTree} {found : Found}
    (built : buildFile outDir files found = (files', .ok ())) (rest : List Found) :
    buildFiles outDir files (found :: rest) = buildFiles outDir files' rest := by
  rw [buildFiles, built]

section Runs

variable {t : FileTree} {root : Path} {start : Place} {node : Node} {sources : List Found}
  (listed : IsSourceList t root start sources)
include listed

/-- No two sources have the same place for their modules. -/
theorem IsSourceList.nodup_modulePlaces (outDir : Option Path) :
    (sources.map fun found => modulePlace t.home outDir start found.names).Nodup := by
  have ordered := List.pairwise_map.1 listed.ordered
  refine List.pairwise_map.2 (ordered.imp_of_mem fun {found found'} mem mem' first same => ?_)
  refine Place.ne_of_before first ?_
  obtain ⟨-, met, source⟩ := (listed.mem_iff found).1 mem
  obtain ⟨-, met', source'⟩ := (listed.mem_iff found').1 mem'
  rw [names_of_modulePlace outDir met source met' source' same]

variable (rooted : t.find root = .ok (start, node))
include rooted

/-- Modules that were written leave every source as it was. -/
theorem IsSourceList.moduleOf_eq {outDir : Option Path} {written : List (Found × String)} {current : FileTree}
    (known : ∀ made ∈ written, made.1 ∈ sources)
    (overlaid : Overlaid t (written.map (moduleFile t.home outDir start)) current) {found : Found}
    (mem : found ∈ sources) : moduleOf current found.path = moduleOf t found.path := by
  obtain ⟨walked, met, source⟩ := (listed.mem_iff found).1 mem
  have unwritten : start ++ found.names ∉ (written.map (moduleFile t.home outDir start)).map Prod.fst := by
    simp only [List.map_map, List.mem_map, not_exists, not_and]
    intro made early
    obtain ⟨-, -, source'⟩ := (listed.mem_iff made.1).1 (known made early)
    exact modulePlace_ne_source t.home outDir source' source
  rw [moduleOf, walked, FileTree.read_met_of_overlaid rooted met overlaid unwritten, moduleOf]

/-- A build writes the modules of the sources one after another, as long as they compile. -/
theorem IsSourceList.buildFiles_of_delivered {outDir : Option Path} {before after : List (Found × String)}
    {current t' : FileTree} (delivered : Delivered outDir current after t')
    (known : ∀ made ∈ before ++ after, made.1 ∈ sources)
    (apart : ((before ++ after).map fun made => modulePlace t.home outDir start made.1.names).Nodup)
    (overlaid : Overlaid t (before.map (moduleFile t.home outDir start)) current)
    (compiled : ∀ made ∈ after, moduleOf t made.1.path = .ok made.2) :
    Overlaid t ((before ++ after).map (moduleFile t.home outDir start)) t' ∧
      ∀ rest, buildFiles outDir current (after.map Prod.fst ++ rest) = buildFiles outDir t' rest := by
  -- along the deliveries; what was written before is an overlay of the tree at the start
  induction delivered generalizing before with
  | nil => exact ⟨by simpa using overlaid, fun rest => rfl⟩
  | @cons current between t' found text after delivery _ ih =>
    have mem : found ∈ sources := known (found, text) (by simp)
    have early : ∀ made ∈ before, made.1 ∈ sources := fun made mem => known made (List.mem_append_left _ mem)
    obtain ⟨walked, met, source⟩ := (listed.mem_iff found).1 mem
    have written := overlaid_of_delivered_module rooted walked met outDir source overlaid.home delivery
    have own : moduleOf current found.path = .ok text :=
      (listed.moduleOf_eq rooted early overlaid mem).trans (compiled (found, text) (.head _))
    have built : buildFile outDir current found = (between, .ok ()) :=
      (buildFile_of_compiled outDir own).trans delivery
    have further : Overlaid t ((before ++ [(found, text)]).map (moduleFile t.home outDir start)) between := by
      rw [List.map_append]
      refine overlaid.trans written fun place earlier => ?_
      rw [List.map_append, List.map_cons, List.nodup_append] at apart
      obtain ⟨made, mem, rfl⟩ := List.mem_map.1 (by simpa only [List.map_map] using earlier)
      have differ := apart.2.2 _ (List.mem_map_of_mem mem) _ (.head _)
      simpa [moduleFile] using differ
    have grouped : before ++ (found, text) :: after = before ++ [(found, text)] ++ after := by simp
    rw [grouped] at known apart ⊢
    obtain ⟨whole, runs⟩ := ih known apart further fun made later => compiled made (.tail _ later)
    exact ⟨whole, fun rest => (buildFiles_cons_of_ok built _).trans (runs rest)⟩

end Runs

theorem exists_sourcesBelow {t : FileTree} {root : Path} {start : Place} {node : Node}
    (rooted : t.find root = .ok (start, node)) : ∃ sources, sourcesBelow t root = .ok sources :=
  ⟨_, by rw [sourcesBelow, FileTree.walk_of_find rooted]⟩

/-- A build translates the sources at its root and below it, and nothing else.  Each module has a place of
its own, which is not that of a source.  If the sources up to some place in their order compile and their
modules are delivered, then the files are those from before with these modules written over them.  If they
are all the sources, the build says how many there were; if the next source does not compile, the build
fails with its report. -/
theorem build_translates {t : FileTree} {root : Path} {start : Place} {node : Node} (outDir : Option Path)
    (rooted : t.find root = .ok (start, node)) :
    ∃ sources, sourcesBelow t root = .ok sources ∧ IsSourceList t root start sources ∧
      (sources.map fun found => modulePlace t.home outDir start found.names).Nodup ∧
      (∀ found ∈ sources, ∀ other ∈ sources,
        modulePlace t.home outDir start found.names ≠ start ++ other.names) ∧
      ∀ done rest t', sources = done.map Prod.fst ++ rest →
        (∀ made ∈ done, compileContent (t.read made.1.path) = .ok made.2) → Delivered outDir t done t' →
          Overlaid t (done.map (moduleFile t.home outDir start)) t' ∧
          (rest = [] →
            build t root outDir = (t', .ok ("Built " ++ toString sources.length ++ " file(s)\n"))) ∧
          ∀ next later fault, rest = next :: later → compileContent (t.read next.path) = .error fault →
            build t root outDir = (t', .error (fault.report next.path)) ∧
            (fault.report next.path).message = "failed to compile " ++ next.path.text := by
  obtain ⟨sources, taken⟩ := exists_sourcesBelow rooted
  have listed := isSourceList_sourcesBelow rooted taken
  have apart := listed.nodup_modulePlaces outDir
  refine ⟨sources, taken, listed, apart, ?_, ?_⟩
  · intro found mem other mem'
    obtain ⟨-, -, source⟩ := (listed.mem_iff found).1 mem
    obtain ⟨-, -, source'⟩ := (listed.mem_iff other).1 mem'
    exact modulePlace_ne_source t.home outDir source source'
  · intro done rest t' split compiled delivered
    have known : ∀ made ∈ [] ++ done, made.1 ∈ sources := fun made mem => by
      rw [split]
      exact List.mem_append_left _ (List.mem_map_of_mem mem)
    have apart' : (([] ++ done).map fun made : Found × String =>
        modulePlace t.home outDir start made.1.names).Nodup := by
      rw [split, List.map_append, List.map_map] at apart
      exact (List.nodup_append.1 apart).1
    have own : ∀ made ∈ done, moduleOf t made.1.path = .ok made.2 := fun made mem => by
      rw [moduleOf, compiled made mem]
    obtain ⟨overlaid, runs⟩ := listed.buildFiles_of_delivered rooted delivered known apart' (.refl t) own
    have built := runs rest
    rw [← split] at built
    refine ⟨overlaid, ?_, ?_⟩
    · rintro rfl
      simp only [build, taken, built, buildFiles]
    · rintro next later fault rfl failed
      have mem : next ∈ sources := by simp [split]
      have report : moduleOf t' next.path = .error (fault.report next.path) := by
        rw [listed.moduleOf_eq rooted known overlaid mem, moduleOf, failed]
      refine ⟨?_, rfl⟩
      simp only [build, taken, built, buildFiles, buildFile, report]

/-- A working directory with three sources, the last of which is no program, and a text. -/
def workshop : FileTree :=
  [(["work", "src", "a.tora"], "let x = 1;"), (["work", "src", "nested", "b.c.tora"], "print(2);"),
    (["work", "src", "notes.txt"], "let"), (["work", "src", "z.tora"], "let = 1;")].foldl
    (fun t (place, text) => t.plant place (.file (Utf8.encode text) false)) (FileTree.ofHome ["work"])

/-- The module of a source, and nothing for what is no program. -/
def moduleOrNothing (source : String) : String :=
  match compile source with
  | .ok text => text
  | .error _ => ""

/-- The sources in it that are programs, with their modules. -/
def workshopDone : List (Found × String) :=
  [(⟨⟨"src/a.tora"⟩, ["a.tora"]⟩, moduleOrNothing "let x = 1;"),
    (⟨⟨"src/nested/b.c.tora"⟩, ["nested", "b.c.tora"]⟩, moduleOrNothing "print(2);")]

/-- What is wrong with the one that is none. -/
def missingName : Diagnostic :=
  ⟨.grammatical, "Expected IDENTIFIER, got ASSIGN", some 1, some 5⟩

/-- Two sources are translated into a directory that is not there before, and the third ends the build. -/
theorem build_translates_workshop :
    workshop.find ⟨"src"⟩ = .ok (["work", "src"], .directory) ∧
      ∃ t', Overlaid workshop
          [(["work", "out", "a.py"], Utf8.encode (moduleOrNothing "let x = 1;")),
            (["work", "out", "nested", "b.c.py"], Utf8.encode (moduleOrNothing "print(2);"))] t' ∧
        build workshop ⟨"src"⟩ (some ⟨"out"⟩) =
          (t', .error ⟨"failed to compile src/z.tora", [missingName.render]⟩) := by
  have rooted : workshop.find ⟨"src"⟩ = .ok (["work", "src"], .directory) := by decide +kernel
  obtain ⟨sources, taken, -, -, -, effect⟩ := build_translates (some ⟨"out"⟩) rooted
  have listed : sourcesBelow workshop ⟨"src"⟩ = .ok
      [⟨⟨"src/a.tora"⟩, ["a.tora"]⟩, ⟨⟨"src/nested/b.c.tora"⟩, ["nested", "b.c.tora"]⟩,
        ⟨⟨"src/z.tora"⟩, ["z.tora"]⟩] := by decide +kernel
  obtain rfl := Except.ok.inj (taken.symm.trans listed)
  have compiled : ∀ made ∈ workshopDone, compileContent (workshop.read made.1.path) = .ok made.2 := by
    decide +kernel
  have firstPlace : modulePlace workshop.home (some ⟨"out"⟩) ["work", "src"] ["a.tora"] =
      ["work", "out", "a.py"] := by decide +kernel
  have secondPlace : modulePlace workshop.home (some ⟨"out"⟩) ["work", "src"] ["nested", "b.c.tora"] =
      ["work", "out", "nested", "b.c.py"] := by decide +kernel
  have failed : compileContent (workshop.read ⟨"src/z.tora"⟩) = .error (.rejected missingName) := by
    decide +kernel
  obtain ⟨t', delivered⟩ : ∃ t', Delivered (some ⟨"out"⟩) workshop workshopDone t' :=
    ⟨_, .cons_of_succeeded (by decide +kernel) (.cons_of_succeeded (by decide +kernel) .nil)⟩
  obtain ⟨overlaid, -, rejected⟩ :=
    effect workshopDone [⟨⟨"src/z.tora"⟩, ["z.tora"]⟩] t' rfl compiled delivered
  simp only [workshopDone, List.map_cons, List.map_nil, moduleFile, firstPlace, secondPlace] at overlaid
  exact ⟨rooted, t', overlaid, (rejected _ [] _ rfl failed).1⟩

end ToraCompiler
