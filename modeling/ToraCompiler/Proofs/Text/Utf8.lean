import ToraCompiler.Text.Utf8

/-!
# Texts survive their octets

Decoding is the inverse of encoding: the octets of a character are read as that character, whatever stands
behind them, and so the octets of a text are read as the text (`Utf8.decode?_encode`).  An octet below 128
stands for the character of that number only, so a line end among the octets is a line end in the text.
-/

namespace ToraCompiler.Utf8

/-! ## One character -/

/-- One more octet of a character. -/
theorem follow_next {value taken low high more n : Nat} (small : n < 256) (above : low ≤ n) (below : n ≤ high)
    (rest : List UInt8) :
    follow value taken low high (more + 1) (UInt8.ofNat n :: rest) =
      follow (value * 64 + (n - 0x80)) (taken + 1) 0x80 0xBF more rest := by
  rw [follow, UInt8.toNat_ofNat_of_lt' small, if_pos ⟨above, below⟩]

theorem first_of_lead {n : Nat} (small : n < 256) {lead : Lead} (leads : lead? n = some lead)
    (rest : List UInt8) :
    first (UInt8.ofNat n) rest = follow lead.bits 1 lead.low lead.high lead.more rest := by
  unfold first
  rw [UInt8.toNat_ofNat_of_lt' small, leads]

theorem first_single {v : Nat} (le : v ≤ 0x7F) (rest : List UInt8) :
    first (UInt8.ofNat v) rest = (some (Char.ofNat v), 1) := by
  have lead : lead? v = some ⟨0, v, 0x80, 0xBF⟩ := if_pos (by omega)
  rw [first_of_lead (by omega) lead, follow]

theorem first_double {v : Nat} (gt : 0x7F < v) (le : v ≤ 0x7FF) (rest : List UInt8) :
    first (UInt8.ofNat (v / 64 % 32 + 192)) (UInt8.ofNat (v % 64 + 128) :: rest) = (some (Char.ofNat v), 2) := by
  have bits : v / 64 % 32 + 192 - 0xC0 = v / 64 := by omega
  have lead : lead? (v / 64 % 32 + 192) = some ⟨1, v / 64, 0x80, 0xBF⟩ := by
    unfold lead?
    rw [if_neg (by omega), if_neg (by omega), if_pos (by omega), bits]
  have value : v / 64 * 64 + (v % 64 + 128 - 0x80) = v := by omega
  have second : 0x80 ≤ v % 64 + 128 ∧ v % 64 + 128 ≤ 0xBF := by omega
  rw [first_of_lead (by omega) lead, follow_next (by omega) second.1 second.2, value, follow]

/-- The second octet of three is in the range that the first one allows. -/
theorem lead_triple {v : Nat} (gt : 0x7FF < v) (le : v ≤ 0xFFFF) (valid : v < 0xD800 ∨ 0xDFFF < v) :
    ∃ low high, lead? (v / 4096 % 16 + 224) = some ⟨2, v / 4096, low, high⟩ ∧
      low ≤ v / 64 % 64 + 128 ∧ v / 64 % 64 + 128 ≤ high := by
  have bits : v / 4096 % 16 + 224 - 0xE0 = v / 4096 := by omega
  unfold lead?
  rw [if_neg (by omega), if_neg (by omega), if_neg (by omega)]
  by_cases shortest : v / 4096 % 16 + 224 = 0xE0
  · rw [if_pos shortest, show v / 4096 = 0 by omega]
    exact ⟨_, _, rfl, by omega, by omega⟩
  by_cases surrogate : v / 4096 % 16 + 224 = 0xED
  · rw [if_neg shortest, if_pos surrogate, show v / 4096 = 0xD by omega]
    exact ⟨_, _, rfl, by omega, by omega⟩
  · rw [if_neg shortest, if_neg surrogate, if_pos (by omega), bits]
    exact ⟨_, _, rfl, by omega, by omega⟩

theorem first_triple {v : Nat} (gt : 0x7FF < v) (le : v ≤ 0xFFFF) (valid : v < 0xD800 ∨ 0xDFFF < v)
    (rest : List UInt8) :
    first (UInt8.ofNat (v / 4096 % 16 + 224))
      (UInt8.ofNat (v / 64 % 64 + 128) :: UInt8.ofNat (v % 64 + 128) :: rest) = (some (Char.ofNat v), 3) := by
  obtain ⟨low, high, lead, above, below⟩ := lead_triple gt le valid
  have value : (v / 4096 * 64 + (v / 64 % 64 + 128 - 0x80)) * 64 + (v % 64 + 128 - 0x80) = v := by omega
  rw [first_of_lead (by omega) lead, follow_next (by omega) above below,
    follow_next (by omega) (by omega) (by omega), value, follow]

/-- The second octet of four is in the range that the first one allows. -/
theorem lead_quadruple {v : Nat} (gt : 0xFFFF < v) (le : v ≤ 0x10FFFF) :
    ∃ low high, lead? (v / 262144 % 8 + 240) = some ⟨3, v / 262144, low, high⟩ ∧
      low ≤ v / 4096 % 64 + 128 ∧ v / 4096 % 64 + 128 ≤ high := by
  have bits : v / 262144 % 8 + 240 - 0xF0 = v / 262144 := by omega
  unfold lead?
  rw [if_neg (by omega), if_neg (by omega), if_neg (by omega), if_neg (by omega), if_neg (by omega),
    if_neg (by omega)]
  by_cases shortest : v / 262144 % 8 + 240 = 0xF0
  · rw [if_pos shortest, show v / 262144 = 0 by omega]
    exact ⟨_, _, rfl, by omega, by omega⟩
  by_cases last : v / 262144 % 8 + 240 = 0xF4
  · rw [if_neg shortest, if_neg (by omega), if_pos last, show v / 262144 = 4 by omega]
    exact ⟨_, _, rfl, by omega, by omega⟩
  · rw [if_neg shortest, if_pos (by omega), bits]
    exact ⟨_, _, rfl, by omega, by omega⟩

theorem first_quadruple {v : Nat} (gt : 0xFFFF < v) (le : v ≤ 0x10FFFF) (rest : List UInt8) :
    first (UInt8.ofNat (v / 262144 % 8 + 240))
      (UInt8.ofNat (v / 4096 % 64 + 128) :: UInt8.ofNat (v / 64 % 64 + 128) :: UInt8.ofNat (v % 64 + 128) ::
        rest) = (some (Char.ofNat v), 4) := by
  obtain ⟨low, high, lead, above, below⟩ := lead_quadruple gt le
  have value : ((v / 262144 * 64 + (v / 4096 % 64 + 128 - 0x80)) * 64 + (v / 64 % 64 + 128 - 0x80)) * 64 +
      (v % 64 + 128 - 0x80) = v := by omega
  rw [first_of_lead (by omega) lead, follow_next (by omega) above below,
    follow_next (by omega) (by omega) (by omega), follow_next (by omega) (by omega) (by omega), value, follow]

/-- The number of a character is in the range that its kind of row allows. -/
theorem val_le (c : Char) : c.val.toNat ≤ 0x10FFFF ∧ (c.val.toNat < 0xD800 ∨ 0xDFFF < c.val.toNat) := by
  have valid := c.valid
  simp only [UInt32.isValidChar, Nat.isValidChar] at valid
  omega

theorem pieces_pending (taken rest : List UInt8) : pieces taken.length (taken ++ rest) = pieces 0 rest := by
  induction taken with
  | nil => rfl
  | cons octet taken ih => exact ih

theorem pieces_of_first {octet : UInt8} {more rest : List UInt8} {c : Char}
    (found : first octet (more ++ rest) = (some c, more.length + 1)) :
    pieces 0 (octet :: more ++ rest) = some c :: pieces 0 rest := by
  rw [List.cons_append, pieces, found]
  exact congrArg _ (pieces_pending more rest)

/-- The octets of a character are read as the character. -/
theorem pieces_encodeChar (c : Char) (rest : List UInt8) :
    pieces 0 (String.utf8EncodeChar c ++ rest) = some c :: pieces 0 rest := by
  obtain ⟨le, valid⟩ := val_le c
  have same : Char.ofNat c.val.toNat = c := Char.ofNat_toNat c
  unfold String.utf8EncodeChar
  simp only
  split
  · next single => exact pieces_of_first ((first_single single _).trans (by rw [same]; rfl))
  split
  · next more double =>
    exact pieces_of_first ((first_double (Nat.lt_of_not_le more) double _).trans (by rw [same]; rfl))
  split
  · next more triple =>
    exact pieces_of_first ((first_triple (Nat.lt_of_not_le more) triple valid _).trans (by rw [same]; rfl))
  · next more =>
    exact pieces_of_first ((first_quadruple (Nat.lt_of_not_le more) le _).trans (by rw [same]; rfl))

/-- An octet of a character has the character's number, or is at least 128. -/
theorem mem_encodeChar {c : Char} {octet : UInt8} (member : octet ∈ String.utf8EncodeChar c) :
    octet.toNat = c.val.toNat ∨ 128 ≤ octet.toNat := by
  obtain ⟨le, -⟩ := val_le c
  have high : ∀ n, 128 ≤ n → n < 256 → 128 ≤ (UInt8.ofNat n).toNat := by
    intro n above below
    rwa [UInt8.toNat_ofNat_of_lt' below]
  unfold String.utf8EncodeChar at member
  simp only at member
  split at member
  · next single =>
    rw [List.mem_singleton.1 member, UInt8.toNat_ofNat_of_lt' (by omega : c.val.toNat < 256)]
    exact .inl rfl
  right
  split at member
  · simp only [List.mem_cons, List.not_mem_nil, or_false] at member
    rcases member with rfl | rfl <;> exact high _ (by omega) (by omega)
  split at member
  · simp only [List.mem_cons, List.not_mem_nil, or_false] at member
    rcases member with rfl | rfl | rfl <;> exact high _ (by omega) (by omega)
  · simp only [List.mem_cons, List.not_mem_nil, or_false] at member
    rcases member with rfl | rfl | rfl | rfl <;> exact high _ (by omega) (by omega)

/-- A line end among the octets of a character is the whole character. -/
theorem eq_newline_of_mem_encodeChar {c : Char} (member : 10 ∈ String.utf8EncodeChar c) : c = '\n' := by
  rcases mem_encodeChar member with same | high
  · exact Char.ext (UInt32.toNat_inj.1 same.symm)
  · exact absurd high (by decide)

/-! ## Texts -/

theorem pieces_flatMap (cs : List Char) (rest : List UInt8) :
    pieces 0 (cs.flatMap String.utf8EncodeChar ++ rest) = cs.map some ++ pieces 0 rest := by
  induction cs with
  | nil => rfl
  | cons c cs ih =>
    rw [List.flatMap_cons, List.append_assoc, pieces_encodeChar, ih]
    rfl

/-- The octets of a text are read as the text. -/
theorem decode?_encode (text : String) : decode? (encode text) = some text := by
  have read := pieces_flatMap text.toList []
  have whole : ∀ cs : List Char, (cs.map some).mapM id = some cs := by
    intro cs
    induction cs with
    | nil => rfl
    | cons c cs ih => simp [List.mapM_cons, ih]
  rw [List.append_nil, show pieces 0 [] = [] from rfl, List.append_nil] at read
  unfold decode? encode
  rw [read, whole, Option.map_some, String.ofList_toList]

theorem lineEnd_notMem_encode {text : String} (oneLine : '\n' ∉ text.toList) : 10 ∉ encode text := by
  intro member
  obtain ⟨c, inText, inOctets⟩ := List.mem_flatMap.1 member
  obtain rfl := eq_newline_of_mem_encodeChar inOctets
  exact oneLine inText

@[simp]
theorem encode_append (text other : String) : encode (text ++ other) = encode text ++ encode other := by
  unfold encode
  rw [String.toList_append, List.flatMap_append]

end ToraCompiler.Utf8
