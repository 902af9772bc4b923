/-!
# UTF-8

Texts as octets and back.  Octets that are no text are read in one of two ways: not at all, or with the
replacement character for every piece that cannot be the start of a character.
-/

namespace ToraCompiler.Utf8

/-- The octets of a text. -/
def encode (text : String) : List UInt8 :=
  text.toList.flatMap String.utf8EncodeChar

/-- What the first octet of a character says: how many more follow, its share of the value, and the range
of the second octet. -/
structure Lead where
  /-- How many octets follow. -/
  more : Nat
  /-- The high bits of the value. -/
  bits : Nat
  /-- The least second octet. -/
  low : Nat
  /-- The greatest second octet. -/
  high : Nat
deriving DecidableEq, Repr

/-- The lead that an octet is, if a character can start with it.  The ranges of the second octet leave
out the overlong forms, the surrogates and what lies beyond the last code point. -/
def lead? (octet : Nat) : Option Lead :=
  if octet < 0x80 then some ⟨0, octet, 0x80, 0xBF⟩
  else if octet < 0xC2 then none
  else if octet < 0xE0 then some ⟨1, octet - 0xC0, 0x80, 0xBF⟩
  else if octet = 0xE0 then some ⟨2, 0, 0xA0, 0xBF⟩
  else if octet = 0xED then some ⟨2, 0xD, 0x80, 0x9F⟩
  else if octet < 0xF0 then some ⟨2, octet - 0xE0, 0x80, 0xBF⟩
  else if octet = 0xF0 then some ⟨3, 0, 0x90, 0xBF⟩
  else if octet < 0xF4 then some ⟨3, octet - 0xF0, 0x80, 0xBF⟩
  else if octet = 0xF4 then some ⟨3, 4, 0x80, 0x8F⟩
  else none

/-- Reads the octets after the first, `taken` octets having been taken: the character, if they complete
one, and how many octets belong together. -/
def follow (value taken low high : Nat) : Nat → List UInt8 → Option Char × Nat
  | 0, _ => (some (Char.ofNat value), taken)
  | _ + 1, [] => (none, taken)
  | more + 1, octet :: rest =>
    if low ≤ octet.toNat ∧ octet.toNat ≤ high then
      follow (value * 64 + (octet.toNat - 0x80)) (taken + 1) 0x80 0xBF more rest
    else (none, taken)

/-- The character that starts with an octet, if there is one, and how many octets belong together. -/
def first (octet : UInt8) (rest : List UInt8) : Option Char × Nat :=
  match lead? octet.toNat with
  | none => (none, 1)
  | some lead => follow lead.bits 1 lead.low lead.high lead.more rest

/-- The characters in a row of octets, the first `pending` of which belong to a character already found,
with nothing for each piece that is none. -/
def pieces (pending : Nat) : List UInt8 → List (Option Char)
  | [] => []
  | octet :: rest =>
    match pending with
    | n + 1 => pieces n rest
    | 0 =>
      let (char?, taken) := first octet rest
      char? :: pieces (taken - 1) rest

/-- The text that the octets are, if they are one. -/
def decode? (octets : List UInt8) : Option String :=
  ((pieces 0 octets).mapM id).map String.ofList

/-- The text that the octets are, with the replacement character where they are none. -/
def decodeLossy (octets : List UInt8) : String :=
  String.ofList ((pieces 0 octets).map (·.getD '\uFFFD'))

end ToraCompiler.Utf8
