import ToraCompiler.Proofs.Token.Escapes
import ToraCompiler.Proofs.Tree.Confinement

/-!
# Literals of a source can be read

A parser cuts the quotes off a string token and the minus off a number token, resolves the escapes of the one and
reads the other as a number.  It takes for granted that all this can be done, and the scan makes only tokens with
which it can (`Token.string_of_scan`, `Token.number_of_scan`).

So a walk over the tokens of a source always gives a result (`Walk.walk?_eq`).  It never says that a number is
invalid, because a number is refused only where one has no value (`Program.message_ne_invalidNumber`).
-/

namespace ToraCompiler

/-! ## Literals of a scan -/

namespace Token

variable {source : String} {t : Token}

/-- A string of a scan has a body between its quotes.  The body can be cut out, and no backslash in it is left
without a character. -/
theorem string_of_scan (member : t ∈ (Scan.ofText source).tokens) (isString : t.kind = .string) :
    ∃ body, t.text.toList = '"' :: (body ++ ['"']) ∧ StringBody body ∧
      slice? t.text 1 (t.text.utf8ByteSize - 1) = some (String.ofList body) ∧
      unescape? body = some (unescape body) := by
  have lexeme := lexeme_of_scan member (by rw [isString]; decide)
  rw [isString] at lexeme
  obtain ⟨body, isBody, text⟩ := lexeme.quoted
  exact ⟨body, text, isBody, slice?_inside (by decide) (by decide) text, unescape?_of_body isBody⟩

/-- A number of a scan is a numeral.  Its minus can be cut off, and what is left is a numeral without one. -/
theorem number_of_scan (member : t ∈ (Scan.ofText source).tokens) (isNumber : t.kind = .number) :
    IsNumeral t.text.toList ∧ (t.isNegativeNumber → IsMagnitude t.dropFirst.text.toList ∧
      slice? t.text 1 t.text.utf8ByteSize = some t.dropFirst.text) := by
  have lexeme := lexeme_of_scan member (by rw [isNumber]; decide)
  rw [isNumber] at lexeme
  refine ⟨lexeme.numeral, fun negative => ⟨?_, slice?_dropFirst negative⟩⟩
  rw [dropFirst, String.toList_ofList]
  exact lexeme.numeral.magnitude negative.2

end Token

/-! ## What is said about a source -/

theorem head?_append_of_head? {before : String} {c : Char} (starts : before.toList.head? = some c)
    (after : String) : (before ++ after).toList.head? = some c := by
  rw [String.toList_append, List.head?_append, starts, Option.some_or]

/-- The words for an invalid number start unlike all others. -/
theorem ne_invalidNumber {words : String} {c : Char} (starts : words.toList.head? = some c) (other : c ≠ 'I')
    (text : String) : words ≠ "Invalid number literal '" ++ text ++ "'" := by
  rintro rfl
  rw [String.append_assoc, head?_append_of_head? (c := 'I') rfl] at starts
  exact other (Option.some.inj starts).symm

/-- Only a refusal of a number says that a number is invalid. -/
theorem Refusal.message_ne_invalidNumber {reason : Refusal}
    (other : ∀ text place, reason ≠ badNumber text place) (text : String) :
    reason.message ≠ "Invalid number literal '" ++ text ++ "'" := by
  cases reason with
  | expected kind found =>
    have starts : ("Expected " ++ kind.label).toList.head? = some 'E' := head?_append_of_head? rfl _
    exact ne_invalidNumber (head?_append_of_head? (head?_append_of_head? starts _) _) (by decide) text
  | expectedType found => exact ne_invalidNumber (head?_append_of_head? rfl _) (by decide) text
  | unexpected found =>
    cases found with
    | none => exact ne_invalidNumber (c := 'U') rfl (by decide) text
    | some t => exact ne_invalidNumber (head?_append_of_head? rfl _) (by decide) text
  | badNumber text place => exact absurd rfl (other text place)

/-- No fault of a scan says so. -/
theorem ScanFault.message_ne_invalidNumber (fault : ScanFault) (text : String) :
    fault.message ≠ "Invalid number literal '" ++ text ++ "'" := by
  cases fault with
  | unterminatedString => exact ne_invalidNumber (c := 'U') rfl (by decide) text
  | unexpected c =>
    exact ne_invalidNumber (head?_append_of_head? (head?_append_of_head? rfl _) _) (by decide) text

namespace Walk

/-- The tokens in the row of a source are well spelled. -/
theorem wellSpelled_of_row {source : String} {ts : List Token} (scanned : tokensOf source = .ok ts) :
    ∀ t ∈ tokensBeforeEnd (Row.ofTokens ts).tokens, t.WellSpelled := by
  intro t member
  rw [Row.tokensBeforeEnd_ofTokens] at member
  exact wellSpelled_of_tokensOf scanned t (List.takeWhile_subset _ member)

/-- So the walk over the program tracks its reader. -/
theorem program_tracks_of_tokensOf {source : String} {ts : List Token} (scanned : tokensOf source = .ok ts)
    (n : Nat) : Tracks (Row.ofTokens ts) n (Row.ofTokens ts).program Reader.program :=
  program_tracks (fun t member => (wellSpelled_of_row scanned t member).string) n

/-- A walk over a source is never without a result, and the result is the program that the source spells. -/
theorem walk?_eq (source : String) : Program.walk? source = some (Program.ofSource source) := by
  unfold Program.walk? Program.ofSource
  cases scanned : tokensOf source with
  | error d => rfl
  | ok ts =>
    rcases read : (Input.ofTokens ts).read .program with ⟨outcome, left⟩
    rw [← Row.input_ofTokens] at read
    obtain ⟨walked, -, -⟩ := Tracks.reads (program_tracks_of_tokensOf scanned) (Nat.zero_le _) read
    rw [Row.input_ofTokens] at read
    show ((Row.ofTokens ts).program.result? 0).map _ = some (Program.ofTokens ts)
    rw [walked]
    unfold Program.ofTokens
    rw [read]
    rfl

/-- No number of a source is refused. -/
theorem ne_badNumber_of_tokensOf {source : String} {ts : List Token} (scanned : tokensOf source = .ok ts)
    {reason : Refusal} {rest : List Token} (refused : Reader.program (tokensBeforeEnd ts) = .refuse reason rest)
    (text : String) (place : Position) : reason ≠ .badNumber text place := by
  intro isNumber
  rw [← Row.tokensBeforeEnd_ofTokens] at refused
  have tracks := program_tracks_of_tokensOf scanned _ 0 (Nat.zero_le _) (Nat.lt_succ_self _)
  obtain ⟨t, member, noValue⟩ := tracks.grounded reason rest refused text place isNumber
  exact noValue (wellSpelled_of_row scanned t member).hasValue

end Walk

/-- A source that is not cut into tokens has a fault, which is what is said. -/
theorem exists_fault_of_tokensOf {source : String} {d : Diagnostic} (faulty : tokensOf source = .error d) :
    ∃ fault : ScanFault, d.message = fault.message := by
  unfold tokensOf Scan.diagnostic? at faulty
  cases stopped : (Scan.ofText source).fault with
  | none =>
    simp only [stopped, Option.map_none] at faulty
    cases faulty
  | some stop =>
    simp only [stopped, Option.map_some] at faulty
    obtain rfl := Except.error.inj faulty
    exact ⟨stop.1, rfl⟩

theorem Program.message_ne_invalidNumber {source : String} {d : Diagnostic} (refused : ofSource source = .error d)
    (text : String) : d.message ≠ "Invalid number literal '" ++ text ++ "'" := by
  unfold ofSource at refused
  cases scanned : tokensOf source with
  | error d' =>
    rw [scanned] at refused
    obtain rfl : d' = d := Except.error.inj refused
    obtain ⟨fault, said⟩ := exists_fault_of_tokensOf scanned
    rw [said]
    exact fault.message_ne_invalidNumber text
  | ok ts =>
    rw [scanned] at refused
    obtain ⟨reason, rest, stopped, rfl⟩ := Program.ofTokens_eq_error_iff.1 refused
    exact reason.message_ne_invalidNumber (Walk.ne_badNumber_of_tokensOf scanned stopped) text

/-- The tokens of a source are as a parser takes them to be.  Every string that the scan finds has a body between
its quotes, which can be cut out and has a character behind every backslash that starts an escape.  Every number
is a numeral, and its minus can be cut off.  So the source can be read by position, and whatever is said about it,
it is not that a number is invalid. -/
theorem Walk.source_fits (source : String) :
    (∀ t ∈ (Scan.ofText source).tokens,
      (t.kind = .string → ∃ body, t.text.toList = '"' :: (body ++ ['"']) ∧ StringBody body ∧
        slice? t.text 1 (t.text.utf8ByteSize - 1) = some (String.ofList body) ∧
        unescape? body = some (unescape body)) ∧
      (t.kind = .number → IsNumeral t.text.toList ∧ (t.isNegativeNumber → IsMagnitude t.dropFirst.text.toList ∧
        slice? t.text 1 t.text.utf8ByteSize = some t.dropFirst.text))) ∧
      Program.walk? source = some (Program.ofSource source) ∧
      ∀ d text, Program.ofSource source = .error d → d.message ≠ "Invalid number literal '" ++ text ++ "'" :=
  ⟨fun _ member => ⟨Token.string_of_scan member, Token.number_of_scan member⟩, walk?_eq source,
    fun _ text refused => Program.message_ne_invalidNumber refused text⟩

/-- A string that is a quote, and a number with the minus that it is subtracted by. -/
def escapedTokens : List Token :=
  [⟨.printKeyword, "print", ⟨1, 1⟩⟩, ⟨.openParen, "(", ⟨1, 6⟩⟩, ⟨.string, "\"\\\"\"", ⟨1, 7⟩⟩,
    ⟨.number, "-1.5", ⟨1, 12⟩⟩, ⟨.closeParen, ")", ⟨1, 16⟩⟩, ⟨.semicolon, ";", ⟨1, 17⟩⟩, ⟨.endOfInput, "", ⟨1, 0⟩⟩]

/-- The backslash has the quote behind it, and the number without its minus is the right operand. -/
theorem Walk.source_fits_escaped :
    tokensOf "print(\"\\\"\" -1.5);" = .ok escapedTokens ∧ unescape? ['\\', '"'] = some ['"'] ∧
      slice? "-1.5" 1 4 = some "1.5" ∧
      Program.walk? "print(\"\\\"\" -1.5);" =
        some (.ok [.print (.binary .sub (.str "\"") (.number (.float (.ofScientific false 15 (-1))))) false]) := by
  obtain ⟨literals, result, -⟩ := source_fits "print(\"\\\"\" -1.5);"
  have scanned : tokensOf "print(\"\\\"\" -1.5);" = .ok escapedTokens := by decide +kernel
  rw [tokensOf_eq_ok_iff.1 scanned] at literals
  obtain ⟨body, text, -, -, resolved⟩ := (literals ⟨.string, "\"\\\"\"", ⟨1, 7⟩⟩ (by decide)).1 rfl
  obtain rfl : ['\\', '"'] = body := List.append_cancel_right (List.cons.inj text).2
  have number := (literals ⟨.number, "-1.5", ⟨1, 12⟩⟩ (by decide)).2 rfl
  refine ⟨scanned, resolved, (number.2 (by decide)).2, ?_⟩
  rw [result]
  unfold Program.ofSource
  rw [scanned]
  rfl

end ToraCompiler
