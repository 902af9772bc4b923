import Mathlib.Data.List.DropRight
import ToraCompiler.Interpreter.Frame
import ToraCompiler.Proofs.Text.Numeral
import ToraCompiler.Proofs.Text.Utf8

/-!
# Replies that are sent are read

What an interpreter sends for an output and a status line is read as that output and as the status that the
line says after the white space at its end has been taken off (`Frame.readReply_reply`).  A line is found by its
first line end, so the output may hold anything, and only the status has to be one line.

Taking off white space is not harmless.  The words that announce an exception end in a blank, and if nothing
but white space follows, that blank goes too: `Frame.status_exception` tells what becomes of each message.
-/

namespace ToraCompiler

/-! ## White space at the end -/

theorem trimBlankEnd_append_blank {cs blanks : List Char} (blank : blanks.all isBlank) :
    trimBlankEnd (cs ++ blanks) = trimBlankEnd cs := by
  show (cs ++ blanks).rdropWhile isBlank = cs.rdropWhile isBlank
  induction blanks using List.reverseRecOn with
  | nil => rw [List.append_nil]
  | append_singleton blanks c ih =>
    rw [List.all_append, Bool.and_eq_true] at blank
    rw [← List.append_assoc, List.rdropWhile_concat_pos _ _ _ (by simpa using blank.2), ih blank.1]

theorem trimBlankEnd_append {cs ds : List Char} (visible : ds.all isBlank = false) :
    trimBlankEnd (cs ++ ds) = cs ++ trimBlankEnd ds := by
  show (cs ++ ds).rdropWhile isBlank = cs ++ ds.rdropWhile isBlank
  induction ds using List.reverseRecOn with
  | nil => cases visible
  | append_singleton ds d ih =>
    by_cases blank : isBlank d
    · have earlier : ds.all isBlank = false := by simpa [blank] using visible
      rw [← List.append_assoc, List.rdropWhile_concat_pos _ _ _ blank,
        List.rdropWhile_concat_pos _ _ _ blank, ih earlier]
    · rw [← List.append_assoc, List.rdropWhile_concat_neg _ _ _ blank,
        List.rdropWhile_concat_neg _ _ _ blank, List.append_assoc]

theorem trimBlankEnd_eq_self_iff {cs : List Char} :
    trimBlankEnd cs = cs ↔ ∀ c ∈ cs.getLast?, isBlank c = false := by
  refine (List.rdropWhile_eq_self_iff (p := isBlank)).trans ⟨fun last c isLast => ?_, fun last nonempty => ?_⟩
  · obtain ⟨nonempty, rfl⟩ := List.mem_getLast?_eq_getLast isLast
    simpa using last nonempty
  · simpa using last _ (List.getLast?_eq_getLast_of_ne_nil nonempty)

/-! ## Lengths -/

theorem isBlank_of_isDigit {c : Char} (digit : c.isDigit) : isBlank c = false := by
  have bounds : 48 ≤ c.toNat ∧ c.toNat ≤ 57 := by
    simpa [Char.isDigit, UInt32.le_iff_toNat_le] using digit
  cases blank : isBlank c with
  | false => rfl
  | true =>
    simp only [isBlank, CodePoints.has, CodePoints.blank, List.any_cons, List.any_nil, Bool.or_eq_true,
      Bool.and_eq_true, decide_eq_true_eq, Bool.false_eq_true, or_false] at blank
    omega

/-- A number is written without white space. -/
theorem trimBlankEnd_toString (n : Nat) : trimBlankEnd (toString n).toList = (toString n).toList :=
  trimBlankEnd_eq_self_iff.2 fun _ last => isBlank_of_isDigit (isDigit_of_mem_toString (List.mem_of_getLast? last))

theorem lineEnd_notMem_encode_toString (n : Nat) : 10 ∉ Utf8.encode (toString n) :=
  Utf8.lineEnd_notMem_encode fun member => absurd (isDigit_of_mem_toString member) (by decide)

namespace Frame

/-- The octets of a reply with this output and this status line. -/
def reply (output : List UInt8) (status : String) : List UInt8 :=
  Utf8.encode (toString output.length) ++ lineEnd :: (output ++ (Utf8.encode status ++ [lineEnd]))

theorem splitLine_append {line : List UInt8} (oneLine : lineEnd ∉ line) (rest : List UInt8) :
    splitLine (line ++ lineEnd :: rest) = (line ++ [lineEnd], rest) := by
  have before : ∀ octet ∈ line, decide (octet ≠ lineEnd) = true := fun octet member =>
    decide_eq_true fun same => oneLine (same ▸ member)
  unfold splitLine
  rw [List.takeWhile_append_of_pos before, List.dropWhile_append_of_pos before]
  simp

theorem lineText_encode (line : String) :
    lineText (Utf8.encode line ++ [lineEnd]) = .ok (String.ofList (trimBlankEnd line.toList)) := by
  have ended : Utf8.encode line ++ [lineEnd] = Utf8.encode (line ++ "\n") := (Utf8.encode_append line "\n").symm
  unfold lineText
  rw [ended, Utf8.decode?_encode]
  simp only [String.toList_append]
  rw [trimBlankEnd_append_blank rfl]

/-- The line that announces a length. -/
theorem lineText_length {n : Nat} (short : n ≤ lengthLimit) :
    lineText (Utf8.encode (toString n) ++ [lineEnd]) = .ok (toString n) ∧ length (toString n) = .ok n ∧
      lineEnd ∉ Utf8.encode (toString n) := by
  have small : n < Nat.pow 2 64 := Nat.lt_of_le_of_lt short (by decide)
  refine ⟨?_, ?_, lineEnd_notMem_encode_toString n⟩
  · rw [lineText_encode, trimBlankEnd_toString, String.ofList_toList]
  · unfold length
    rw [Numeral.word64?_toString small]

/-- What is sent is read, up to the white space at the end of the status. -/
theorem readReply_reply {output : List UInt8} (short : output.length ≤ lengthLimit) {line : String}
    (oneLine : '\n' ∉ line.toList) (later : List UInt8) :
    readReply (reply output line ++ later) =
      (status (String.ofList (trimBlankEnd line.toList))).map fun error =>
        ({ output := Utf8.decodeLossy output, error }, later) := by
  obtain ⟨announced, number, noEnd⟩ := lineText_length short
  have row : reply output line ++ later = Utf8.encode (toString output.length) ++
      lineEnd :: (output ++ (Utf8.encode line ++ lineEnd :: later)) := by simp [reply]
  have header := splitLine_append noEnd (output ++ (Utf8.encode line ++ lineEnd :: later))
  have statusLine := splitLine_append (Utf8.lineEnd_notMem_encode oneLine) later
  have enough : ¬ (output ++ (Utf8.encode line ++ lineEnd :: later)).length < output.length := by
    rw [List.length_append]
    omega
  unfold readReply
  rw [row]
  simp only [header, announced, number, statusLine, lineText_encode, List.take_left, List.drop_left, enough,
    if_neg (Nat.not_lt.2 short), bind, Except.bind, pure, Except.pure, if_false, List.append_eq_nil_iff,
    List.cons_ne_nil, and_false]
  cases status (String.ofList (trimBlankEnd line.toList)) <;> rfl

theorem status_of_message (message : List Char) :
    status (String.ofList ("err ".toList ++ message)) = .ok (some (String.ofList message)) := by
  have notOk : String.ofList ("err ".toList ++ message) ≠ "ok" := by
    intro same
    have cs := congrArg String.toList same
    rw [String.toList_ofList] at cs
    exact absurd (List.cons.inj cs).1 (by decide)
  unfold status
  rw [if_neg notOk, if_pos (by simp), String.toList_ofList]
  rfl

/-- What becomes of the message of an exception.  One that is all white space is not recognised. -/
theorem status_exception (message : String) :
    status (String.ofList (trimBlankEnd ("err " ++ message).toList)) =
      if message.toList.all isBlank then .error (.badStatus "err")
      else .ok (some (String.ofList (trimBlankEnd message.toList))) := by
  rw [String.toList_append]
  cases blank : message.toList.all isBlank with
  | true =>
    rw [trimBlankEnd_append_blank blank, if_pos rfl]
    decide
  | false =>
    rw [trimBlankEnd_append blank, status_of_message]
    rfl

end Frame

end ToraCompiler
