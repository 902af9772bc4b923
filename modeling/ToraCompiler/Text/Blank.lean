import ToraCompiler.Text.CodePoints

/-!
# Blanks

White space in the sense of the Unicode property White_Space, and trimming by it.
-/

namespace ToraCompiler

/-- The 25 code points with the property White_Space. -/
def CodePoints.blank : CodePoints where
  ranges := [
    (0x9, 0xD), (0x20, 0x20), (0x85, 0x85), (0xA0, 0xA0), (0x1680, 0x1680),
    (0x2000, 0x200A), (0x2028, 0x2029), (0x202F, 0x202F), (0x205F, 0x205F), (0x3000, 0x3000)]

/-- Whether `c` is white space. -/
def isBlank (c : Char) : Bool :=
  CodePoints.blank.has c

/-- The characters without the white space at their end. -/
def trimBlankEnd (cs : List Char) : List Char :=
  (cs.reverse.dropWhile isBlank).reverse

/-- The characters without the white space at either end. -/
def trimBlank (cs : List Char) : List Char :=
  trimBlankEnd (cs.dropWhile isBlank)

end ToraCompiler
