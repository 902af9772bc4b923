import Mathlib.Data.String.Basic

/-!
# Cutting a text by octets

A part of a text is named by the octets where it starts and where it ends.  There is no such part if the
numbers are out of order, beyond the end, or inside a character.
-/

namespace ToraCompiler

/-- The octets of a text from `low` up to `high`, if these are in order and no character lies across them. -/
def slice? (text : String) (low high : Nat) : Option String :=
  if low ≤ high ∧ String.Pos.Raw.IsValid text ⟨low⟩ ∧ String.Pos.Raw.IsValid text ⟨high⟩ then
    some (String.Pos.Raw.extract text ⟨low⟩ ⟨high⟩)
  else none

/-- What stands between two other texts starts behind the octets of the first one. -/
theorem slice?_append (before inside behind : List Char) :
    slice? (String.ofList (before ++ inside ++ behind)) (String.ofList before).utf8ByteSize
        ((String.ofList before).utf8ByteSize + (String.ofList inside).utf8ByteSize) =
      some (String.ofList inside) := by
  have valid : ∀ cs ds : List Char,
      String.Pos.Raw.IsValid (String.ofList (cs ++ ds)) ⟨(String.ofList cs).utf8ByteSize⟩ := fun cs ds =>
    String.Pos.Raw.isValid_iff_exists_append.2
      ⟨String.ofList cs, String.ofList ds, String.ofList_append, rfl⟩
  have starts := valid before (inside ++ behind)
  have ends := valid (before ++ inside) behind
  rw [← List.append_assoc] at starts
  rw [@String.ofList_append before inside, String.utf8ByteSize_append] at ends
  unfold slice?
  rw [if_pos ⟨Nat.le_add_right _ _, starts, ends⟩, String.utf8ByteSize_ofList,
    String.utf8ByteSize_ofList, String.extract_of_valid]

theorem octets_single (c : Char) : (String.ofList [c]).utf8ByteSize = c.utf8Size := by
  rw [String.utf8ByteSize_ofList]
  exact Nat.zero_add _

/-- What stands between a first and a last character of one octet each. -/
theorem slice?_inside {text : String} {c d : Char} {inside : List Char} (first : c.utf8Size = 1)
    (last : d.utf8Size = 1) (stands : text.toList = c :: (inside ++ [d])) :
    slice? text 1 (text.utf8ByteSize - 1) = some (String.ofList inside) := by
  have split : text = String.ofList ([c] ++ inside ++ [d]) := by
    rw [← String.ofList_toList (s := text), stands]
    rfl
  have size : text.utf8ByteSize - 1 = (String.ofList [c]).utf8ByteSize + (String.ofList inside).utf8ByteSize := by
    rw [split, String.ofList_append, String.ofList_append, String.utf8ByteSize_append,
      String.utf8ByteSize_append, octets_single d, last, Nat.add_sub_cancel]
  have cut := slice?_append [c] inside [d]
  rwa [← size, ← split, octets_single, first] at cut

/-- What stands behind a first character of one octet. -/
theorem slice?_behind {text : String} {c : Char} {behind : List Char} (first : c.utf8Size = 1)
    (stands : text.toList = c :: behind) : slice? text 1 text.utf8ByteSize = some (String.ofList behind) := by
  have split : text = String.ofList ([c] ++ behind ++ []) := by
    rw [← String.ofList_toList (s := text), stands, List.append_nil]
    rfl
  have size : text.utf8ByteSize = (String.ofList [c]).utf8ByteSize + (String.ofList behind).utf8ByteSize := by
    rw [split, List.append_nil, String.ofList_append, String.utf8ByteSize_append]
  have cut := slice?_append [c] behind []
  rwa [← size, ← split, octets_single, first] at cut

end ToraCompiler
