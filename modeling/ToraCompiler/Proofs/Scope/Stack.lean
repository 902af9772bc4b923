import ToraCompiler.Scope.Basic

/-!
# Scopes by their depth

A stack of scopes as a list, the innermost first, and what each scope of it has.  A scope is known by the
number of scopes inside it, so the innermost has depth 0, opening a scope moves the others one further out,
and closing one moves them back.
-/

namespace ToraCompiler

namespace Scopes

variable {α : Type}

/-! ## Stacks of scopes as lists -/

theorem toList_eq_cons (s : Scopes α) : s.toList = s.innermost :: s.toList.tail := by
  rcases s with ⟨_ | ⟨scope, outer⟩, globals⟩ <;> rfl

theorem toList_modifyInnermost (s : Scopes α) (f : α → α) :
    (s.modifyInnermost f).toList = f s.innermost :: s.toList.tail := by
  rcases s with ⟨_ | ⟨scope, outer⟩, globals⟩ <;> rfl

theorem toList_pop {s : Scopes α} (inner : s.locals ≠ []) : s.pop.toList = s.toList.tail := by
  rcases s with ⟨_ | ⟨scope, outer⟩, globals⟩
  · exact (inner rfl).elim
  · rfl

theorem length_locals_modifyInnermost (s : Scopes α) (f : α → α) :
    (s.modifyInnermost f).locals.length = s.locals.length := by
  rcases s with ⟨_ | ⟨scope, outer⟩, globals⟩ <;> rfl

end Scopes

namespace SymbolTable

/-! ## Symbols -/

/-- What `name` stands for in the scope with `depth` more inside it. -/
def lookupAt (t : SymbolTable) (depth : Nat) (name : String) : Option Symbol :=
  t.toList[depth]?.bind (·.lookup name)

theorem lookupAt_zero (t : SymbolTable) (name : String) :
    t.lookupAt 0 name = t.lookupInnermost name := by
  unfold lookupAt
  rw [Scopes.toList_eq_cons]
  rfl

theorem lookupAt_push (t : SymbolTable) (depth : Nat) (name : String) :
    lookupAt (t.push []) depth name = if depth = 0 then none else t.lookupAt (depth - 1) name := by
  cases depth <;> rfl

theorem lookupAt_pop {t : SymbolTable} (inner : t.locals ≠ []) (depth : Nat) (name : String) :
    lookupAt t.pop depth name = t.lookupAt (depth + 1) name := by
  unfold lookupAt
  rw [Scopes.toList_pop inner, List.getElem?_tail]

theorem lookupAt_modifyInnermost (t : SymbolTable) (name other : String) (symbol : Symbol)
    (depth : Nat) :
    lookupAt (t.modifyInnermost ((name, symbol) :: ·)) depth other =
      if depth = 0 ∧ other = name then some symbol else t.lookupAt depth other := by
  unfold lookupAt
  rw [Scopes.toList_modifyInnermost, Scopes.toList_eq_cons t]
  cases depth with
  | succ depth => simp
  | zero =>
    by_cases same : other = name
    · simp [same]
    · have differs : (other == name) = false := by simpa using same
      simp [same, List.lookup_cons, differs]

/-- A name stands for what the innermost scope says that has it, and for what the catalog says if none
has it. -/
theorem lookup_cases (t : SymbolTable) (name : String) :
    ((∀ depth, t.lookupAt depth name = none) ∧ t.lookup name = Catalog.symbol? name) ∨
      ∃ depth symbol, t.lookupAt depth name = some symbol ∧
        (∀ inner, inner < depth → t.lookupAt inner name = none) ∧ t.lookup name = some symbol := by
  unfold lookup lookupAt
  cases found : t.toList.findSome? (·.lookup name) with
  | none =>
    refine .inl ⟨fun depth => ?_, rfl⟩
    cases at_ : t.toList[depth]? with
    | none => rfl
    | some scope => exact List.findSome?_eq_none_iff.1 found scope (List.mem_of_getElem? at_)
  | some symbol =>
    obtain ⟨inner, scope, outer, split, here, notInside⟩ := List.findSome?_eq_some_iff.1 found
    refine .inr ⟨inner.length, symbol, ?_, fun depth less => ?_, rfl⟩
    · rw [split, List.getElem?_append_right (Nat.le_refl _), Nat.sub_self]
      exact here
    · rw [split, List.getElem?_append_left less, List.getElem?_eq_getElem less]
      exact notInside _ (List.getElem_mem less)

theorem lookup_of_nowhere {t : SymbolTable} {name : String}
    (nowhere : ∀ depth, t.lookupAt depth name = none) : t.lookup name = Catalog.symbol? name := by
  rcases t.lookup_cases name with ⟨-, builtin⟩ | ⟨depth, symbol, found, -⟩
  · exact builtin
  · rw [nowhere] at found
    cases found

theorem lookup_of_lookupAt {t : SymbolTable} {name : String} {depth : Nat} {symbol : Symbol}
    (found : t.lookupAt depth name = some symbol)
    (notInside : ∀ inner, inner < depth → t.lookupAt inner name = none) :
    t.lookup name = some symbol := by
  rcases t.lookup_cases name with ⟨nowhere, -⟩ | ⟨depth', symbol', found', notInside', same⟩
  · rw [nowhere] at found
    cases found
  · rcases Nat.lt_trichotomy depth depth' with less | rfl | greater
    · rw [notInside' _ less] at found
      cases found
    · rw [same, ← found', found]
    · rw [notInside _ greater] at found'
      cases found'

end SymbolTable

namespace Scopes

/-! ## Sets of names -/

/-- The scope with `depth` more inside it has the name. -/
def HasAt (names : Scopes (List String)) (depth : Nat) (name : String) : Prop :=
  ∃ scope, names.toList[depth]? = some scope ∧ name ∈ scope

variable {names : Scopes (List String)} {depth : Nat} {name : String}

theorem hasAt_push (scope : List String) :
    HasAt (names.push scope) depth name ↔
      if depth = 0 then name ∈ scope else names.HasAt (depth - 1) name := by
  cases depth with
  | zero => simp [HasAt]
  | succ depth => simp [HasAt]

theorem hasAt_pop (inner : names.locals ≠ []) :
    HasAt names.pop depth name ↔ names.HasAt (depth + 1) name := by
  unfold HasAt
  rw [toList_pop inner, List.getElem?_tail]

theorem hasAt_insert (other : String) :
    HasAt (names.modifyInnermost (·.insert other)) depth name ↔
      depth = 0 ∧ name = other ∨ names.HasAt depth name := by
  unfold HasAt
  rw [toList_modifyInnermost, toList_eq_cons names]
  cases depth with
  | zero => simp
  | succ depth => simp

end Scopes

end ToraCompiler
