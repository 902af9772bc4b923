import ToraCompiler.Files.Path

/-!
# Entries of a tree of files

A place in a tree is the list of the names that lead to it from the root.  The entries of a tree are kept in the
order of their places, a directory before what it holds, so going through them in order is a walk through the tree
that takes siblings by name.
-/

namespace ToraCompiler

/-! ## Places -/

/-- The place of a file or directory: the names that lead to it from the root. -/
abbrev Place := List String

/-- The place of a path, by its writing alone. -/
def Path.place (home : Place) (path : Path) : Place :=
  path.steps.foldl (fun place step =>
      if step = "." then place else if step = ".." then place.dropLast else place ++ [step])
    (if path.isAbsolute then [] else home)

namespace Place

/-- The order of places: by the first name in which they differ, and a directory before what it holds. -/
def before : Place → Place → Bool
  | _, [] => false
  | [], _ :: _ => true
  | a :: as, b :: bs => if a = b then before as bs else a < b

theorem not_before_self (place : Place) : ¬place.before place := by
  induction place with
  | nil => simp [before]
  | cons name place ih => simpa [before] using ih

theorem before_trans {a b c : Place} (first : a.before b) (second : b.before c) : a.before c := by
  induction a generalizing b c with
  | nil =>
    cases c with
    | nil => simp [before] at second
    | cons name c => rfl
  | cons name a ih =>
    cases b with
    | nil => simp [before] at first
    | cons name' b =>
      cases c with
      | nil => simp [before] at second
      | cons name'' c =>
        simp only [before] at first second ⊢
        by_cases same : name = name'
        · subst same
          by_cases same' : name = name''
          · simp only [same', if_true] at first second ⊢
            exact ih first second
          · simpa only [same', if_false] using second
        · by_cases same' : name' = name''
          · subst same'
            simpa only [same, if_false] using first
          · simp only [same, same', if_false, decide_eq_true_iff] at first second
            have below := String.lt_trans first second
            have differ : name ≠ name'' := fun equal => String.lt_irrefl _ (equal ▸ below)
            simpa only [differ, if_false, decide_eq_true_iff] using below

theorem ne_of_before {a b : Place} (first : a.before b) : a ≠ b := by
  rintro rfl
  exact a.not_before_self first

theorem before_or_before {a b : Place} (differ : a ≠ b) : a.before b ∨ b.before a := by
  induction a generalizing b with
  | nil =>
    cases b with
    | nil => exact absurd rfl differ
    | cons name b => exact .inl rfl
  | cons name a ih =>
    cases b with
    | nil => exact .inr rfl
    | cons name' b =>
      by_cases same : name = name'
      · subst same
        simpa [before] using ih fun equal => differ (equal ▸ rfl)
      · simp only [before, same, Ne.symm same, if_false, decide_eq_true_iff]
        by_cases first : name < name'
        · exact .inl first
        · refine .inr (String.not_le.1 fun below => same ?_)
          exact String.le_antisymm below (String.not_lt.1 first)

end Place

/-! ## Entries -/

/-- What can stand at a place. -/
inductive Node where
  /-- A file with its content. -/
  | file (content : List UInt8) (executable : Bool)
  /-- A directory. -/
  | directory
deriving DecidableEq, Repr

namespace Entries

/-- The node at a place.  The root is always there. -/
def get? (entries : List (Place × Node)) (place : Place) : Option Node :=
  if place = [] then some .directory else entries.lookup place

/-- Puts an entry into a list of entries, in place of one at the same place. -/
def insert (place : Place) (node : Node) : List (Place × Node) → List (Place × Node)
  | [] => [(place, node)]
  | entry :: rest =>
    if entry.1 = place then (place, node) :: rest
    else if place.before entry.1 then (place, node) :: entry :: rest
    else entry :: insert place node rest

/-- An entry at another place does not matter to a look-up. -/
theorem lookup_cons_of_ne {other here : Place} (node : Node) (rest : List (Place × Node))
    (differs : other ≠ here) : ((here, node) :: rest).lookup other = rest.lookup other := by
  simp [List.lookup_cons, beq_eq_false_iff_ne.2 differs]

/-- Looking up a place among the entries after one has been put there. -/
theorem lookup_insert (place other : Place) (node : Node) (entries : List (Place × Node)) :
    (insert place node entries).lookup other =
      if other = place then some node else entries.lookup other := by
  induction entries with
  | nil =>
    by_cases same : other = place
    · simp [insert, same]
    · simp [insert, same, lookup_cons_of_ne node [] same]
  | cons entry rest ih =>
    rcases entry with ⟨here, found⟩
    by_cases replaced : here = place
    · subst replaced
      by_cases same : other = here
      · simp [insert, same]
      · simp [insert, same, lookup_cons_of_ne _ _ same]
    · by_cases earlier : place.before here
      · by_cases same : other = place
        · simp [insert, replaced, earlier, same]
        · simp [insert, replaced, earlier, same, lookup_cons_of_ne node _ same]
      · by_cases same : other = here
        · subst same
          simp [insert, replaced, earlier]
        · simp [insert, replaced, earlier, lookup_cons_of_ne found _ same, ih]

/-- What was put at a place below the root is there, and everything else is as before. -/
theorem get?_insert {place : Place} (below : place ≠ []) (node : Node) (entries : List (Place × Node))
    (other : Place) :
    get? (insert place node entries) other = if other = place then some node else get? entries other := by
  by_cases root : other = []
  · subst root
    simp [get?, below.symm]
  · simp [get?, root, lookup_insert]

theorem mem_of_mem_insert {place : Place} {node : Node} {entries : List (Place × Node)}
    {entry : Place × Node} (mem : entry ∈ insert place node entries) :
    entry = (place, node) ∨ entry ∈ entries := by
  induction entries with
  | nil => simpa [insert] using mem
  | cons first rest ih =>
    rw [insert] at mem
    split at mem
    · grind
    · split at mem <;> grind

/-- An entry is put where it belongs. -/
theorem sorted_insert (place : Place) (node : Node) {entries : List (Place × Node)}
    (sorted : entries.Pairwise fun entry later => entry.1.before later.1) :
    (insert place node entries).Pairwise fun entry later => entry.1.before later.1 := by
  induction entries with
  | nil => simp [insert]
  | cons first rest ih =>
    obtain ⟨least, sorted⟩ := List.pairwise_cons.1 sorted
    rw [insert]
    split
    · rename_i same
      exact List.pairwise_cons.2 ⟨fun later mem => same ▸ least later mem, sorted⟩
    · rename_i other
      split
      · rename_i earlier
        refine List.pairwise_cons.2 ⟨?_, List.pairwise_cons.2 ⟨least, sorted⟩⟩
        intro later mem
        obtain rfl | mem := List.mem_cons.1 mem
        · exact earlier
        · exact Place.before_trans earlier (least later mem)
      · rename_i notEarlier
        have behind : first.1.before place := (Place.before_or_before other).resolve_right notEarlier
        refine List.pairwise_cons.2 ⟨?_, ih sorted⟩
        intro later mem
        obtain rfl | mem := mem_of_mem_insert mem
        · exact behind
        · exact least later mem

theorem lookup_eq_some_iff_of_nodup {entries : List (Place × Node)} (apart : (entries.map Prod.fst).Nodup)
    {place : Place} {node : Node} : entries.lookup place = some node ↔ (place, node) ∈ entries := by
  induction entries with
  | nil => simp
  | cons entry rest ih =>
    obtain ⟨here, found⟩ := entry
    obtain ⟨notLater, apart⟩ := List.nodup_cons.1 apart
    by_cases same : place = here
    · subst same
      have alone : (place, node) ∉ rest := fun later => notLater (List.mem_map.2 ⟨_, later, rfl⟩)
      simp [alone, eq_comm]
    · rw [lookup_cons_of_ne found rest same, ih apart]
      simp [same]

end Entries

end ToraCompiler
