import ToraCompiler.Proofs.Token.Lexemes

/-!
# No backslash without a character behind it

`unescape` keeps a backslash at the end of a text as it stands.  `unescape?` is the same recursion without that
case (`unescape_of_unescape?`).  The scan takes the character behind a backslash into the string with it, pair by
pair from the left, and `unescape?` goes over the same pairs, so no string of a source lacks a value
(`unescape?_of_body`).
-/

namespace ToraCompiler

/-- Resolves the escapes of a text, unless it comes to a backslash with nothing behind it. -/
def unescape? : List Char → Option (List Char)
  | [] => some []
  | c :: cs =>
    if c = '\\' then
      match cs with
      | [] => none
      | d :: ds =>
        match escapeValue? d with
        | some value => (unescape? ds).map fun rest => value :: rest
        | none => (unescape? ds).map fun rest => c :: d :: rest
    else (unescape? cs).map fun rest => c :: rest

theorem unescape_of_unescape? {cs resolved : List Char} (h : unescape? cs = some resolved) :
    unescape cs = resolved := by
  fun_induction unescape? cs generalizing resolved with
  | case1 => exact Option.some.inj h
  | case2 => cases h
  | case3 d ds value means ih =>
    obtain ⟨rest, found, rfl⟩ := Option.map_eq_some_iff.1 h
    simp [unescape, means, ih found]
  | case4 d ds means ih =>
    obtain ⟨rest, found, rfl⟩ := Option.map_eq_some_iff.1 h
    simp [unescape, means, ih found]
  | case5 c cs plain ih =>
    obtain ⟨rest, found, rfl⟩ := Option.map_eq_some_iff.1 h
    rw [unescape.eq_def]
    simp only [plain, if_false, ih found]

/-- The pairs of a string are those that are resolved. -/
theorem exists_unescape?_of_body {body : List Char} (h : StringBody body) :
    ∃ resolved, unescape? body = some resolved := by
  induction h with
  | nil => exact ⟨[], rfl⟩
  | @plain c cs _ notSlash _ ih =>
    obtain ⟨resolved, found⟩ := ih
    refine ⟨c :: resolved, ?_⟩
    rw [unescape?.eq_def]
    simp only [notSlash, if_false, found, Option.map_some]
  | @escape c cs _ _ ih =>
    obtain ⟨resolved, found⟩ := ih
    cases means : escapeValue? c with
    | some value => exact ⟨value :: resolved, by simp [unescape?, means, found]⟩
    | none => exact ⟨'\\' :: c :: resolved, by simp [unescape?, means, found]⟩

theorem unescape?_of_body {body : List Char} (h : StringBody body) :
    unescape? body = some (unescape body) := by
  obtain ⟨resolved, found⟩ := exists_unescape?_of_body h
  rw [found, unescape_of_unescape? found]

end ToraCompiler
