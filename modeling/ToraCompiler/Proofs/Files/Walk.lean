import ToraCompiler.Proofs.Files.Effects

/-!
# What a walk meets

Every entry of a tree stands in a directory.  So the steps of a walk can be taken again, and a path that a walk
gives leads to the file that the walk met: each file at the root of the walk or below it is met
once, in the order of places, and it can be read unless its path is too long.
-/

namespace ToraCompiler

namespace FileTree

variable {t : FileTree}

/-! ## Entries -/

theorem ordered (t : FileTree) : (t.entries.map Prod.fst).Pairwise fun place later => place.before later :=
  List.pairwise_map.2 t.sorted

theorem get?_dropLast {place : Place} {node : Node} (present : t.get? place = some node) :
    t.get? place.dropLast = some .directory := by
  by_cases root : place = []
  · simp [root]
  · exact t.held _ ((get?_eq_some_iff root).1 present)

/-- All that is in front of something are directories. -/
theorem get?_front {front rest : Place} {node : Node} (present : t.get? (front ++ rest) = some node)
    (further : rest ≠ []) : t.get? front = some .directory := by
  induction rest generalizing front with
  | nil => exact absurd rfl further
  | cons name rest ih =>
    by_cases last : rest = []
    · subst last
      simpa using get?_dropLast present
    · have below : t.get? (front ++ [name]) = some .directory := ih (by simpa using present) last
      simpa using get?_dropLast below

/-- Names lead from a directory to what is below it. -/
theorem follow_names {here names : Place} {node : Node} (present : t.get? (here ++ names) = some node) :
    t.follow here names = .ok (here ++ names) := by
  induction names generalizing here with
  | nil => simp [follow]
  | cons name names ih =>
    obtain ⟨isName, short⟩ := named_of_get? present name (by simp)
    have isDirectory := get?_front present (List.cons_ne_nil name names)
    have entered : t.enter here name = .ok (here ++ [name]) :=
      enter_eq_ok_iff.2 ⟨isDirectory, short, (here.step_name isName).symm⟩
    have further : t.follow (here ++ [name]) names = .ok (here ++ [name] ++ names) :=
      ih (by simpa using present)
    exact follow_cons_eq_ok_iff.2 ⟨_, entered, by simpa using further⟩

/-! ## Walks -/

theorem below?_eq_some_iff {start place names : Place} :
    below? start place = some names ↔ place = start ++ names := by
  induction start generalizing place with
  | nil => simp [below?]
  | cons a start ih =>
    cases place with
    | nil => simp [below?]
    | cons b place =>
      by_cases same : a = b
      · simp [below?, same, ih]
      · simp [below?, same, Ne.symm same]

theorem meet?_eq_some_iff {root : Path} {start : Place} {entry : Place × Node} {found : Found} :
    meet? root start entry = some found ↔
      found.path = found.names.foldl Path.join root ∧
        ∃ content executable, entry = (start ++ found.names, .file content executable) := by
  obtain ⟨place, node⟩ := entry
  obtain ⟨path, names⟩ := found
  cases node with
  | directory => simp [meet?]
  | file content executable =>
    simp [meet?, below?_eq_some_iff]
    grind

theorem walk_of_find {root : Path} {start : Place} {node : Node} (rooted : t.find root = .ok (start, node)) :
    t.walk root = .ok (t.entries.filterMap (meet? root start)) :=
  bind_eq_ok_iff.2 ⟨_, rooted, rfl⟩

/-- A walk goes through the entries in order. -/
theorem places_sublist (root : Path) (start : Place) (entries : List (Place × Node)) :
    ((entries.filterMap (meet? root start)).map fun found => start ++ found.names).Sublist
      (entries.map Prod.fst) := by
  induction entries with
  | nil => simp
  | cons entry rest ih =>
    cases met : meet? root start entry with
    | none =>
      rw [List.filterMap_cons_none met]
      exact ih.cons _
    | some found =>
      obtain ⟨-, content, executable, rfl⟩ := meet?_eq_some_iff.1 met
      rw [List.filterMap_cons_some met]
      exact ih.cons_cons _

/-- A walk meets the files that are at its root or below it. -/
theorem mem_met_iff {root : Path} {start : Place} {found : Found} :
    found ∈ t.entries.filterMap (meet? root start) ↔
      found.path = found.names.foldl Path.join root ∧ (t.content? (start ++ found.names)).isSome := by
  have listed : (t.content? (start ++ found.names)).isSome ↔
      ∃ content executable, (start ++ found.names, .file content executable) ∈ t.entries := by
    rw [isSome_content?_iff]
    constructor
    · rintro ⟨content, executable, present⟩
      have below : start ++ found.names ≠ [] := fun root => by simp [root] at present
      exact ⟨content, executable, (get?_eq_some_iff below).1 present⟩
    · rintro ⟨content, executable, mem⟩
      exact ⟨content, executable, (get?_eq_some_iff (t.below _ mem)).2 mem⟩
  simp only [List.mem_filterMap, meet?_eq_some_iff, listed]
  grind

/-- What is met comes in the order of places. -/
theorem ordered_places (root : Path) (start : Place) :
    ((t.entries.filterMap (meet? root start)).map fun found => start ++ found.names).Pairwise
      fun place later => place.before later :=
  t.ordered.sublist (places_sublist root start t.entries)

/-- The path to a file is a name joined to the path of a directory. -/
theorem exists_join_of_file {root : Path} {start : Place} {content : List UInt8} {executable : Bool}
    (rooted : t.find root = .ok (start, .file content executable)) :
    ∃ (folder : Path) (name : String), root = folder.join name ∧ IsFileName name := by
  obtain ⟨located, isFile⟩ := find_eq_ok_iff.1 rooted
  have notDirectory : t.get? start ≠ some .directory := by simp [isFile]
  obtain ⟨origin, -, followed⟩ := bind_eq_ok_iff.1 located
  have plain : root.endsInSlash = false := by
    rw [← Bool.not_eq_true]
    intro slash
    rw [Path.steps, if_pos slash] at followed
    obtain ⟨next, -, entered⟩ := follow_concat_eq_ok_iff.1 followed
    obtain ⟨isDirectory, -, rfl⟩ := enter_eq_ok_iff.1 entered
    exact notDirectory (by simpa [Place.step] using isDirectory)
  have present : root.text ≠ "" := by
    intro empty
    have still : start = t.home := by
      simpa [Path.place_eq_foldl_parts, Path.parts, Path.isAbsolute, Path.splitSlashes, empty]
        using place_of_locate located
    exact notDirectory (still ▸ t.rooted)
  obtain ⟨folder, name, rfl, isPart⟩ := Path.exists_join present plain
  refine ⟨folder, name, rfl, isPart, ?_⟩
  rw [Path.steps_eq_parts plain, folder.parts_join isPart] at followed
  obtain ⟨next, -, entered⟩ := follow_concat_eq_ok_iff.1 followed
  obtain ⟨isDirectory, -, rfl⟩ := enter_eq_ok_iff.1 entered
  constructor
  · rintro rfl
    exact notDirectory (by simpa [Place.step] using isDirectory)
  · rintro rfl
    exact notDirectory (by simpa [Place.step] using get?_dropLast isDirectory)

/-- The path that a walk gives leads to what the walk met, unless it is too long. -/
theorem locate_met {root : Path} {start : Place} {node : Node} (rooted : t.find root = .ok (start, node))
    {names : List String} (met : (t.content? (start ++ names)).isSome)
    (short : (names.foldl Path.join root).text.utf8ByteSize < pathLimit) :
    t.locate (names.foldl Path.join root) = .ok (start ++ names) := by
  have located := (find_eq_ok_iff.1 rooted).1
  by_cases itself : names = []
  · simpa [itself] using located
  · obtain ⟨content, executable, present⟩ := isSome_content?_iff.1 met
    have isParts : ∀ name ∈ names, IsPart name := fun name mem =>
      (named_of_get? present name (List.mem_append_right start mem)).1.1
    refine bind_eq_ok_iff.2 ⟨_, origin_eq_ok_iff.2 ⟨short, rfl⟩, ?_⟩
    rw [Path.steps_eq_parts (Path.endsInSlash_foldl_join root isParts itself),
      Path.parts_foldl_join root isParts, Path.isAbsolute_foldl_join root isParts]
    exact follow_append_eq_ok_iff.2 ⟨start, follow_parts_of_locate located, follow_names present⟩

/-- What a walk met is read from where it was met, unless the path to it is too long. -/
theorem read_met_iff {root : Path} {start : Place} {node : Node} (rooted : t.find root = .ok (start, node))
    {names : List String} (met : (t.content? (start ++ names)).isSome) {content : List UInt8} :
    t.read (names.foldl Path.join root) = .ok content ↔
      (names.foldl Path.join root).text.utf8ByteSize < pathLimit ∧
        t.content? (start ++ names) = some content := by
  rw [read_eq_ok_iff]
  constructor
  · rintro ⟨place, located, present⟩
    have short := short_of_locate located
    obtain rfl : place = start ++ names :=
      Except.ok.inj (located.symm.trans (locate_met rooted met short))
    exact ⟨short, present⟩
  · rintro ⟨short, present⟩
    exact ⟨_, locate_met rooted met short, present⟩

/-- The path to a file that a walk met is a name joined to the path of a directory. -/
theorem exists_join_met {root : Path} {start : Place} {node : Node} (rooted : t.find root = .ok (start, node))
    {names : List String} (met : (t.content? (start ++ names)).isSome) :
    ∃ (folder : Path) (name : String), names.foldl Path.join root = folder.join name ∧
      IsFileName name ∧ start ++ names = folder.place t.home ++ [name] := by
  obtain ⟨content, executable, present⟩ := isSome_content?_iff.1 met
  have started := place_of_find rooted
  obtain rfl | ⟨front, name, rfl⟩ := names.eq_nil_or_concat'
  · obtain ⟨located, found⟩ := find_eq_ok_iff.1 rooted
    obtain rfl : node = .file content executable :=
      Option.some.inj (found.symm.trans (by simpa using present))
    obtain ⟨folder, name, rfl, isName⟩ := exists_join_of_file rooted
    exact ⟨folder, name, rfl, isName, by rw [List.append_nil, started, Path.place_join t.home folder isName]⟩
  · have named : ∀ part ∈ front ++ [name], IsFileName part := fun part mem =>
      (named_of_get? present part (List.mem_append_right start mem)).1
    refine ⟨front.foldl Path.join root, name, by simp, named name (by simp), ?_⟩
    rw [Path.place_foldl_join t.home root fun part mem => named part (List.mem_append_left _ mem), started,
      List.append_assoc]

/-- Nothing else is met below a root that is a file. -/
theorem eq_nil_of_met_start {start names : Place} (file : (t.content? start).isSome)
    (met : (t.content? (start ++ names)).isSome) : names = [] := by
  refine Decidable.byContradiction fun further => ?_
  obtain ⟨content, executable, isFile⟩ := isSome_content?_iff.1 file
  obtain ⟨content', executable', present⟩ := isSome_content?_iff.1 met
  rw [get?_front present further] at isFile
  cases isFile

/-- Files written at other places do not change what is read from where a walk met it. -/
theorem read_met_of_overlaid {t' : FileTree} {root : Path} {start : Place} {node : Node}
    (rooted : t.find root = .ok (start, node)) {names : List String}
    (met : (t.content? (start ++ names)).isSome) {outputs : List (Place × List UInt8)}
    (overlaid : Overlaid t outputs t') (unwritten : start ++ names ∉ outputs.map Prod.fst) :
    t'.read (names.foldl Path.join root) = t.read (names.foldl Path.join root) := by
  by_cases short : (names.foldl Path.join root).text.utf8ByteSize < pathLimit
  · obtain ⟨content, present⟩ := Option.isSome_iff_exists.1 met
    have reads := (read_met_iff rooted met).2 ⟨short, present⟩
    have place := place_of_locate (locate_met rooted met short)
    rw [reads]
    exact read_of_overlaid overlaid (place ▸ unwritten) reads
  · rw [read_of_long (Nat.not_lt.1 short), read_of_long (Nat.not_lt.1 short)]

end FileTree

end ToraCompiler
