import Mathlib.Data.List.Basic
import ToraCompiler.Files.Entries

/-!
# Paths to names

A path to something inside a directory is the path of the directory joined with a name.  The name is then
the file name of the path, and another extension changes nothing but the name.  The place that a path names
can be read off its text: a name leads down, and the other steps stay or lead up.
-/

namespace ToraCompiler

/-- The place to which a step leads. -/
def Place.step (here : Place) (step : String) : Place :=
  if step = "." then here
  else if step = ".." then here.dropLast
  else here ++ [step]

/-- A name leads down. -/
theorem Place.step_name (here : Place) {name : String} (isName : IsFileName name) :
    here.step name = here ++ [name] := by
  simp [Place.step, isName.2.1, isName.2.2]

/-- Names lead down one after another. -/
theorem Place.foldl_step_names (here : Place) {names : List String}
    (named : ∀ name ∈ names, IsFileName name) : names.foldl Place.step here = here ++ names := by
  induction names generalizing here with
  | nil => simp
  | cons name names ih =>
    obtain ⟨isName, named⟩ := List.forall_mem_cons.1 named
    simp [here.step_name isName, ih _ named]

namespace Path

/-! ## Parts -/

theorem splitSlashes_append (front rest : List Char) :
    splitSlashes (front ++ '/' :: rest) = splitSlashes front ++ splitSlashes rest := by
  induction front with
  | nil => simp [splitSlashes]
  | cons c front ih =>
    by_cases slash : c = '/'
    · simp [splitSlashes, slash, ih]
    · obtain ⟨part, parts, split⟩ := List.exists_cons_of_ne_nil (splitSlashes_ne_nil front)
      simp [splitSlashes, slash, ih, split]

theorem splitSlashes_of_notMem {cs : List Char} (slashless : '/' ∉ cs) : splitSlashes cs = [cs] := by
  induction cs with
  | nil => rfl
  | cons c cs ih =>
    simp only [List.mem_cons, not_or] at slashless
    simp [splitSlashes, Ne.symm slashless.1, ih slashless.2]

@[simp]
theorem parts_empty : parts ⟨""⟩ = [] := by
  simp [parts, splitSlashes]

theorem parts_of_isPart {name : String} (isPart : IsPart name) : parts ⟨name⟩ = [name] := by
  simp [parts, splitSlashes_of_notMem isPart.2, isPart.1]

theorem parts_append (front rest : String) :
    parts ⟨front ++ "/" ++ rest⟩ = parts ⟨front⟩ ++ parts ⟨rest⟩ := by
  simp [parts, splitSlashes_append]

theorem steps_eq_parts {p : Path} (plain : p.endsInSlash = false) : p.steps = p.parts := by
  simp [steps, plain]

/-- A step to the same place at the end of a path does not matter to its place. -/
theorem place_eq_foldl_parts (home : Place) (p : Path) :
    p.place home = p.parts.foldl Place.step (if p.isAbsolute then [] else home) := by
  by_cases slash : p.endsInSlash
  · rw [place, steps, if_pos slash, List.foldl_append]
    rfl
  · rw [place, steps, if_neg slash]
    rfl

/-! ## Joining -/

/-- What stands in front of the name in a joined path: the path, with a slash at its end. -/
def front (p : Path) : String :=
  if p.text = "" ∨ p.endsInSlash then p.text else p.text ++ "/"

theorem join_eq (p : Path) (name : String) : p.join name = ⟨p.front ++ name⟩ := by
  simp only [join, front]
  split <;> rfl

theorem front_cases (p : Path) : p.front = "" ∨ ∃ text, p.front = text ++ "/" := by
  by_cases empty : p.text = ""
  · exact .inl (by simp [front, empty])
  · by_cases ends : p.endsInSlash
    · obtain ⟨cs, chars⟩ := List.getLast?_eq_some_iff.1 (of_decide_eq_true ends)
      have shape : p.text = String.ofList cs ++ "/" := String.toList_inj.1 (by simpa using chars)
      exact .inr ⟨.ofList cs, by simp [front, ends, shape]⟩
    · exact .inr ⟨p.text, by simp [front, empty, ends]⟩

theorem parts_front (p : Path) : parts ⟨p.front⟩ = p.parts := by
  simp only [front]
  split
  · rfl
  · simpa using parts_append p.text ""

theorem isAbsolute_front (p : Path) : isAbsolute ⟨p.front⟩ = p.isAbsolute := by
  simp only [front]
  split
  · rfl
  · rename_i present
    obtain ⟨head, tail, chars⟩ :=
      List.exists_cons_of_ne_nil (mt String.toList_eq_nil_iff.1 (not_or.1 present).1)
    simp [isAbsolute, chars]

theorem parts_join (p : Path) {name : String} (isPart : IsPart name) :
    (p.join name).parts = p.parts ++ [name] := by
  have kept := p.parts_front
  rw [join_eq]
  obtain none | ⟨text, some⟩ := p.front_cases
  · rw [none, parts_empty] at kept
    simp [none, parts_of_isPart isPart, ← kept]
  · have same : parts ⟨text ++ "/"⟩ = parts ⟨text⟩ := by simpa using parts_append text ""
    rw [some, same] at kept
    rw [some, parts_append, parts_of_isPart isPart, kept]

theorem isAbsolute_join (p : Path) {name : String} (isPart : IsPart name) :
    (p.join name).isAbsolute = p.isAbsolute := by
  refine Eq.trans ?_ p.isAbsolute_front
  rw [join_eq]
  obtain none | ⟨text, some⟩ := p.front_cases
  · obtain ⟨first, rest, chars⟩ := List.exists_cons_of_ne_nil (mt String.toList_eq_nil_iff.1 isPart.1)
    have notSlash : first ≠ '/' := fun slash => isPart.2 (by simp [chars, slash])
    simp [none, isAbsolute, chars, notSlash]
  · cases chars : text.toList <;> simp [some, isAbsolute, chars]

theorem endsInSlash_join (p : Path) {name : String} (isPart : IsPart name) :
    (p.join name).endsInSlash = false := by
  have notSlash : name.toList.getLast? ≠ some '/' := fun slash => isPart.2 (List.mem_of_getLast? slash)
  simp [endsInSlash, join_eq, isPart.1, notSlash]

theorem place_join (home : Place) (p : Path) {name : String} (isName : IsFileName name) :
    (p.join name).place home = p.place home ++ [name] := by
  simp [place_eq_foldl_parts, parts_join p isName.1, isAbsolute_join p isName.1, Place.step_name _ isName]

theorem parts_foldl_join (p : Path) {names : List String} (named : ∀ name ∈ names, IsPart name) :
    (names.foldl join p).parts = p.parts ++ names := by
  induction names generalizing p with
  | nil => simp
  | cons name names ih =>
    obtain ⟨isPart, named⟩ := List.forall_mem_cons.1 named
    simp [ih (p.join name) named, parts_join p isPart]

theorem isAbsolute_foldl_join (p : Path) {names : List String} (named : ∀ name ∈ names, IsPart name) :
    (names.foldl join p).isAbsolute = p.isAbsolute := by
  induction names generalizing p with
  | nil => rfl
  | cons name names ih =>
    obtain ⟨isPart, named⟩ := List.forall_mem_cons.1 named
    rw [List.foldl_cons, ih (p.join name) named, isAbsolute_join p isPart]

/-- Names lead from the place of a path down to what is below it. -/
theorem place_foldl_join (home : Place) (p : Path) {names : List String}
    (named : ∀ name ∈ names, IsFileName name) :
    (names.foldl join p).place home = p.place home ++ names := by
  have isParts : ∀ name ∈ names, IsPart name := fun name mem => (named name mem).1
  rw [place_eq_foldl_parts, parts_foldl_join p isParts, isAbsolute_foldl_join p isParts, List.foldl_append,
    Place.foldl_step_names _ named, place_eq_foldl_parts]

theorem endsInSlash_foldl_join (p : Path) {names : List String} (named : ∀ name ∈ names, IsPart name)
    (present : names ≠ []) : (names.foldl join p).endsInSlash = false := by
  obtain rfl | ⟨front, last, rfl⟩ := names.eq_nil_or_concat'
  · exact absurd rfl present
  · rw [List.foldl_append]
    exact endsInSlash_join _ (named last (by simp))

theorem exists_last_part (cs : List Char) : ∃ front last, cs = front ++ last ∧ '/' ∉ last ∧
    (front = [] ∨ ∃ before, front = before ++ ['/']) := by
  induction cs with
  | nil => exact ⟨[], [], rfl, by simp, .inl rfl⟩
  | cons c cs ih =>
    obtain ⟨front, last, rfl, slashless, none | ⟨before, ends⟩⟩ := ih
    · by_cases slash : c = '/'
      · exact ⟨[c], last, by simp [none], slashless, .inr ⟨[], by simp [slash]⟩⟩
      · exact ⟨[], c :: last, by simp [none], by simp [slashless, Ne.symm slash], .inl rfl⟩
    · exact ⟨c :: front, last, rfl, slashless, .inr ⟨c :: before, by simp [ends]⟩⟩

/-- A path that has something behind its last slash is joined from what is in front of that and the rest. -/
theorem exists_join {p : Path} (present : p.text ≠ "") (plain : p.endsInSlash = false) :
    ∃ (folder : Path) (name : String), p = folder.join name ∧ IsPart name := by
  obtain ⟨front, last, chars, slashless, stops⟩ := exists_last_part p.text.toList
  have text : p.text = String.ofList front ++ String.ofList last := String.toList_inj.1 (by simpa using chars)
  have stays : (⟨String.ofList front⟩ : Path).front = String.ofList front := by
    obtain rfl | ⟨before, rfl⟩ := stops <;> simp [Path.front, endsInSlash]
  refine ⟨⟨String.ofList front⟩, String.ofList last, ?_, ?_, by simpa using slashless⟩
  · rw [join_eq, stays, ← text]
  · intro none
    obtain rfl | ⟨before, rfl⟩ := stops
    · exact present (by simp [text, none])
    · simp [endsInSlash, text, none] at plain

/-! ## Extensions -/

/-- The extension of a file name stands behind its last dot, with something in front of the dot. -/
theorem splitExtension_eq_iff {name stem extension : String} :
    splitExtension name = (stem, some extension) ↔
      name = stem ++ "." ++ extension ∧ stem ≠ "" ∧ '.' ∉ extension.toList := by
  constructor
  · intro split
    simp only [splitExtension] at split
    have whole := List.takeWhile_append_dropWhile (p := (· ≠ '.')) (l := name.toList.reverse)
    have taken := List.all_takeWhile (p := (· ≠ '.')) (l := name.toList.reverse)
    generalize name.toList.reverse.takeWhile (· ≠ '.') = behind at *
    cases rest : name.toList.reverse.dropWhile (· ≠ '.') with
    | nil =>
      rw [rest] at split
      simp at split
    | cons dot before =>
      have stopped := List.head_dropWhile_not (l := name.toList.reverse) (· ≠ '.')
        (rest ▸ List.cons_ne_nil dot before)
      obtain rfl : dot = '.' := by
        simp only [rest, List.head_cons] at stopped
        simpa using stopped
      rw [rest] at split whole
      by_cases none : before = []
      · simp [none] at split
      · simp only [none, if_false, Prod.mk.injEq, Option.some.injEq] at split
        obtain ⟨rfl, rfl⟩ := split
        have chars := congrArg List.reverse whole
        refine ⟨String.toList_inj.1 (by simpa using chars.symm), by simpa using none, ?_⟩
        simpa using List.all_eq_true.1 taken '.'
  · rintro ⟨rfl, present, dotless⟩
    have plain : ∀ c ∈ extension.toList.reverse, decide (c ≠ '.') = true := by
      intro c mem
      simpa using fun dot : c = '.' => dotless (dot ▸ List.mem_reverse.1 mem)
    have chars : (stem ++ "." ++ extension).toList.reverse =
        extension.toList.reverse ++ '.' :: stem.toList.reverse := by simp
    simp only [splitExtension, chars]
    rw [List.takeWhile_append_of_pos plain, List.dropWhile_append_of_pos plain]
    simp [present]

/-- The last component of a joined path is the name. -/
theorem fileName?_join (p : Path) {name : String} (isPart : IsPart name) (moves : name ≠ ".") :
    (p.join name).fileName? = if name = ".." then none else some name := by
  have last : (p.join name).components.getLast? = some name := by
    simp only [components, parts_join p isPart]
    cases p.parts with
    | nil => simp [moves]
    | cons first rest =>
      by_cases here : first = "." ∧ (p.join name).isAbsolute
      · simp [here, moves]
      · have moving := List.getLast?_concat (l := first :: rest.filter (· ≠ ".")) (a := name)
        simpa [here, moves] using moving
  rw [fileName?, last]
  by_cases up : name = ".." <;> simp [moves, up]

theorem extension?_join (p : Path) {name : String} (isName : IsFileName name) :
    (p.join name).extension? = (splitExtension name).2 := by
  simp [extension?, fileName?_join p isName.1 isName.2.1, isName.2.2]

/-- Cutting the extension off leaves the dot in front of it. -/
theorem cutExtension_join (p : Path) {name stem extension : String} (isName : IsFileName name)
    (split : splitExtension name = (stem, some extension)) :
    (p.join name).cutExtension = p.join (stem ++ ".") := by
  obtain ⟨rfl, -, -⟩ := splitExtension_eq_iff.1 split
  have text : (p.join (stem ++ "." ++ extension)).text = p.front ++ (stem ++ ".") ++ extension := by
    simp [join_eq, String.append_assoc]
  rw [cutExtension, extension?_join p isName, split]
  simp only [text, String.toList_append (s := _ ++ _), String.length_append (s := _ ++ _),
    Nat.add_sub_cancel, ← String.length_toList, List.take_left, String.ofList_toList]
  rw [join_eq]

theorem trimSlashes_concat_dot (cs : List Char) {c : Char} (notSlash : c ≠ '/') :
    trimSlashes (cs ++ [c, '.']) = cs ++ [c, '.'] := by
  have stays : trimSlashes.go ('.' :: c :: cs.reverse) = '.' :: c :: cs.reverse := by
    rw [trimSlashes.go] <;> simp [notSlash]
  simp [trimSlashes, stays]

/-- An extension takes the place behind a dot at the end of the name. -/
theorem setExtension_join (p : Path) {stem : String} (extension : String) (isPart : IsPart stem)
    (moves : stem ≠ ".") :
    (p.join (stem ++ ".")).setExtension extension = p.join (stem ++ "." ++ extension) := by
  have split : splitExtension (stem ++ ".") = (stem, some "") :=
    splitExtension_eq_iff.2 ⟨by simp, isPart.1, by simp⟩
  have dotted : IsPart (stem ++ ".") := ⟨by simp, by simpa using isPart.2⟩
  have named : (p.join (stem ++ ".")).fileName? = some (stem ++ ".") := by
    rw [fileName?_join p dotted fun here => isPart.1 (by simpa using congrArg String.toList here), if_neg]
    exact fun up => moves (String.append_left_inj "." |>.1 up)
  have trimmed : trimSlashes (p.join (stem ++ ".")).text.toList = p.front.toList ++ (stem ++ ".").toList := by
    obtain none | ⟨cs, c, chars⟩ := stem.toList.eq_nil_or_concat'
    · exact absurd (String.toList_eq_nil_iff.1 none) isPart.1
    · have notSlash : c ≠ '/' := fun slash => isPart.2 (by simp [chars, slash])
      simpa [join_eq, chars] using trimSlashes_concat_dot (p.front.toList ++ cs) notSlash
  have front : (p.front.toList ++ (stem ++ ".").toList).length - (stem ++ ".").length =
      p.front.toList.length := by
    rw [List.length_append, String.length_toList (s := stem ++ "."), Nat.add_sub_cancel]
  rw [setExtension, named]
  simp only [trimmed, split, front, List.take_left, String.ofList_toList]
  simp [join_eq, String.append_assoc]

/-- A name that is a step upwards takes no extension. -/
theorem setExtension_join_up (p : Path) (extension : String) :
    (p.join "..").setExtension extension = p.join ".." := by
  have isPart : IsPart ".." := by decide
  simp [setExtension, fileName?_join p isPart (by decide)]

/-- Another extension changes nothing but the name. -/
theorem withExtension_join (p : Path) {name stem old : String} (extension : String)
    (isName : IsFileName name) (split : splitExtension name = (stem, some old)) (moves : stem ≠ ".") :
    (p.join name).withExtension extension = p.join (stem ++ "." ++ extension) := by
  obtain ⟨rfl, present, -⟩ := splitExtension_eq_iff.1 split
  have isPart : IsPart stem := ⟨present, fun slash => isName.1.2 (by simp [slash])⟩
  rw [withExtension, cutExtension_join p isName split, setExtension_join p extension isPart moves]

/-- A name with nothing but a dot in front of its extension becomes a step upwards. -/
theorem withExtension_join_dot (p : Path) {name old : String} (extension : String)
    (isName : IsFileName name) (split : splitExtension name = (".", some old)) :
    (p.join name).withExtension extension = p.join ".." := by
  rw [withExtension, cutExtension_join p isName split]
  exact p.setExtension_join_up extension

end Path

end ToraCompiler
