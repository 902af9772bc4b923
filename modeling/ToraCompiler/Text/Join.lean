/-!
# Joined texts

Texts in a row, with a separator between neighbours.
-/

namespace ToraCompiler

/-- The texts in order, with `separator` between each two of them. -/
def joinWith (separator : String) : List String → String
  | [] => ""
  | [text] => text
  | text :: next :: rest => text ++ separator ++ joinWith separator (next :: rest)

/-- The texts as lines, without a line end after the last one. -/
def joinLines (lines : List String) : String :=
  joinWith "\n" lines

theorem joinWith_cons (separator : String) {text : String} {texts : List String} (more : texts ≠ []) :
    joinWith separator (text :: texts) = text ++ separator ++ joinWith separator texts := by
  cases texts with
  | nil => exact (more rfl).elim
  | cons next rest => rfl

/-- Between two joined rows stands one separator. -/
theorem joinWith_append (separator : String) {texts texts' : List String} (left : texts ≠ []) (right : texts' ≠ []) :
    joinWith separator (texts ++ texts') = joinWith separator texts ++ separator ++ joinWith separator texts' := by
  induction texts with
  | nil => exact (left rfl).elim
  | cons text texts ih =>
    cases texts with
    | nil => exact joinWith_cons separator right
    | cons next rest =>
      have more : next :: rest ≠ [] := List.cons_ne_nil _ _
      rw [List.cons_append, joinWith_cons separator (by simp), ih more, joinWith_cons separator more]
      simp only [String.append_assoc]

end ToraCompiler
