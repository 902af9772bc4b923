import ToraCompiler.Proofs.Shell.InStep

/-!
# Lines and entries

The shell keeps the lines of an unfinished entry, and whether it keeps any decides how it takes the next line: as
the start of an entry, where a command or a blank line means something, or as one more line of the entry.  So what
it reads falls into parts, one after another: commands, groups of lines that make up an entry each, and lines that
an interrupt takes back (`Shell.Part`).  The kept lines are always the beginning of a group (`Shell.Waiting`), a
line extends or ends it (`Shell.takeLine_waiting`), and a run does what its parts ask for, each once and in their
order (`Shell.run_groups`).
-/

namespace ToraCompiler.Shell

/-- Lines that wait for others: the first is no command, and none of their beginnings is an entry. -/
structure Waiting (lines : List String) : Prop where
  first : ∀ line ∈ lines.head?, Command.ofLine? line = none
  incomplete : ∀ before, before <+: lines → before ≠ [] → Entry.isComplete (joinLines before) = false

/-- Lines that make up an entry together, and did not before the last one. -/
structure Group (lines : List String) : Prop where
  nonempty : lines ≠ []
  first : ∀ line ∈ lines.head?, Command.ofLine? line = none
  complete : Entry.isComplete (joinLines lines) = true
  incomplete : ∀ before, before <+: lines → before ≠ [] → before ≠ lines →
    Entry.isComplete (joinLines before) = false

/-- What is read together: a command on a line of its own, the lines of an entry, or lines that wait and an
interrupt that takes them back. -/
inductive Part where
  | command (line : String) (command : Command)
  | group (lines : List String)
  | interrupted (lines : List String)

namespace Part

/-- What is read for a part. -/
def readings : Part → List Reading
  | command line _ => [.line line]
  | group lines => lines.map .line
  | interrupted lines => lines.map .line ++ [.interrupt]

/-- Whether the part is what its lines say, and leaves the shell running. -/
def Proper : Part → Prop
  | command line word => Command.ofLine? line = some word ∧ word ≠ .quit
  | group lines => Group lines
  | interrupted lines => Waiting lines

/-- What comes of a part. -/
def perform (launcher : Launcher) (shell : Shell) : Part → Step
  | command _ word => shell.obey launcher word
  | group lines => .ofExcept (shell.evaluate launcher (joinLines lines))
  | interrupted lines => .next (interruption lines) shell

end Part

/-- Parts performed in order, each once, from the first shell to the last, with all that they show. -/
inductive Performs (launcher : Launcher) : Shell → List Part → String → Shell → Prop
  | nil {shell : Shell} : Performs launcher shell [] "" shell
  | cons {first second last : Shell} {part : Part} {parts : List Part} {shown later : String} :
    part.perform launcher first = .next shown second → Performs launcher second parts later last →
    Performs launcher first (part :: parts) (shown ++ later) last

/-- How a run ends, given the lines that wait then, what is not read any more, and what is shown: at the end of the
input, or at a line that quits. -/
inductive Ending : List String → List Reading → String → Prop
  | endOfInput {unfinished : List String} : Waiting unfinished → Ending unfinished [] "\n"
  | quit {line : String} {later : List Reading} :
    Command.ofLine? line = some .quit → Ending [] (.line line :: later) ""

variable {launcher : Launcher} {shell shell' : Shell} {line shown entry : String} {reading : Reading}

/-! ## One line -/

theorem Waiting.nil : Waiting [] :=
  ⟨nofun, fun _ begins nonempty => (nonempty (List.prefix_nil.1 begins)).elim⟩

/-- A first line that is no command, or any line behind those that wait. -/
theorem Waiting.first_concat {lines : List String} (waiting : Waiting lines)
    (noCommand : lines = [] → Command.ofLine? line = none) :
    ∀ first ∈ (lines ++ [line]).head?, Command.ofLine? first = none := by
  intro first member
  cases lines with
  | nil =>
    obtain rfl := Option.some.inj member
    exact noCommand rfl
  | cons other lines => exact waiting.first first member

/-- A line is a command where no lines wait, or makes a group of the lines that wait, or waits with them. -/
theorem takeLine_waiting (launcher : Launcher) (waiting : Waiting shell.pending) (line : String) :
    (∃ word, shell.pending = [] ∧ Command.ofLine? line = some word ∧
      shell.takeLine launcher line = shell.obey launcher word) ∨
    (Group (shell.pending ++ [line]) ∧ shell.takeLine launcher line =
      .ofExcept (shell.evaluate launcher (joinLines (shell.pending ++ [line])))) ∨
    Waiting (shell.pending ++ [line]) ∧
      shell.takeLine launcher line = .next "" { shell with pending := shell.pending ++ [line] } := by
  by_cases command : shell.pending = [] ∧ (Command.ofLine? line).isSome
  · obtain ⟨word, isWord⟩ := Option.isSome_iff_exists.1 command.2
    exact .inl ⟨word, command.1, isWord, takeLine_of_command command.1 isWord⟩
  · have noCommand : shell.pending = [] → Command.ofLine? line = none := fun first => by simpa [first] using command
    have taken : shell.takeLine launcher line = shell.extend launcher line := by
      unfold takeLine
      split
      · next first => rw [noCommand first]
      · rfl
    have first := waiting.first_concat noCommand
    rw [taken, extend]
    by_cases complete : Entry.isComplete (joinLines (shell.pending ++ [line]))
    · refine .inr (.inl ⟨⟨by simp, first, complete, fun before begins nonempty shorter => ?_⟩, if_pos complete⟩)
      rcases List.prefix_concat_iff.1 begins with whole | earlier
      · exact (shorter whole).elim
      · exact waiting.incomplete before earlier nonempty
    · refine .inr (.inr ⟨⟨first, fun before begins nonempty => ?_⟩, if_neg complete⟩)
      rcases List.prefix_concat_iff.1 begins with rfl | earlier
      · exact Bool.eq_false_iff.2 complete
      · exact waiting.incomplete before earlier nonempty

/-! ## What is left of an entry -/

theorem pending_of_restart (restarted : shell.restart launcher = .ok shell') : shell'.pending = [] := by
  unfold restart at restarted
  split at restarted
  · cases restarted
    rfl
  · cases restarted

/-- No line waits behind an entry. -/
theorem pending_of_evaluate (evaluated : shell.evaluate launcher entry = .ok (shown, shell')) :
    shell'.pending = [] := by
  rcases evaluate_cases evaluated with ⟨_, -, rfl⟩ | ⟨_, _, _, _, _, -, -, rfl⟩ | ⟨_, _, _, _, _, -, -, restarted⟩
  · rfl
  · rfl
  · exact pending_of_restart restarted

theorem pending_of_obey {word : Command} (first : shell.pending = [])
    (obeyed : shell.obey launcher word = .next shown shell') : shell'.pending = [] := by
  cases word with
  | blank =>
    cases obeyed
    exact first
  | quit => cases obeyed
  | help =>
    cases obeyed
    exact first
  | reset =>
    obtain ⟨fresh, restarted, same⟩ := bind_eq_ok_iff.1 (ofExcept_eq_next.1 obeyed)
    cases same
    exact pending_of_restart restarted

theorem performs_singleton {part : Part} {first : Shell} (rest : shell'.pending = [])
    (performed : part.perform launcher first = .next shown shell') :
    Performs launcher first [part] shown { shell' with pending := [] } := by
  have same : { shell' with pending := [] } = shell' := by rw [← rest]
  have alone := Performs.cons performed .nil
  rwa [String.append_empty, ← same] at alone

/-- A line that the shell takes extends the lines that wait, or completes a part with them and has it performed. -/
theorem takeLine_performs (waiting : Waiting shell.pending)
    (taken : shell.takeLine launcher line = .next shown shell') :
    Waiting shell'.pending ∧ ∃ parts, (∀ part ∈ parts, Part.Proper part) ∧
      shell.pending.map .line ++ [.line line] = parts.flatMap Part.readings ++ shell'.pending.map .line ∧
      Performs launcher { shell with pending := [] } parts shown { shell' with pending := [] } := by
  rcases takeLine_waiting launcher waiting line with ⟨word, first, isWord, obeyed⟩ | ⟨group, evaluated⟩ |
    ⟨waits, kept⟩
  · rw [obeyed] at taken
    have rest := pending_of_obey first taken
    have notQuit : word ≠ .quit := by
      rintro rfl
      cases taken
    have same : { shell with pending := [] } = shell := by rw [← first]
    refine ⟨rest ▸ .nil, [.command line word], List.forall_mem_singleton.2 ⟨isWord, notQuit⟩, ?_,
      performs_singleton rest ?_⟩
    · rw [first, rest]
      rfl
    · rw [same]
      exact taken
  · rw [evaluated] at taken
    have rest := pending_of_evaluate (ofExcept_eq_next.1 taken)
    refine ⟨rest ▸ .nil, [.group (shell.pending ++ [line])], List.forall_mem_singleton.2 group, ?_,
      performs_singleton rest taken⟩
    rw [rest]
    simp [Part.readings]
  · rw [kept] at taken
    cases taken
    exact ⟨waits, [], nofun, by simp, .nil⟩

/-- What the shell reads extends the lines that wait, or completes a part with them and has it performed. -/
theorem take_performs (waiting : Waiting shell.pending)
    (taken : shell.take launcher reading = .next shown shell') :
    Waiting shell'.pending ∧ ∃ parts, (∀ part ∈ parts, Part.Proper part) ∧
      shell.pending.map .line ++ [reading] = parts.flatMap Part.readings ++ shell'.pending.map .line ∧
      Performs launcher { shell with pending := [] } parts shown { shell' with pending := [] } := by
  cases reading with
  | line line => exact takeLine_performs waiting taken
  | interrupt =>
    cases taken
    exact ⟨.nil, [.interrupted shell.pending], List.forall_mem_singleton.2 waiting, by simp [Part.readings],
      performs_singleton rfl rfl⟩
  | failed cause => cases taken

/-- Only a command ends the shell without a fault, and only where no lines wait. -/
theorem takeLine_eq_quit (waiting : Waiting shell.pending) (taken : shell.takeLine launcher line = .quit) :
    shell.pending = [] ∧ Command.ofLine? line = some .quit := by
  have goesOn : ∀ outcome : Except Collapse (String × Shell), Step.ofExcept outcome ≠ .quit := by
    rintro (collapse | result) <;> nofun
  rcases takeLine_waiting launcher waiting line with ⟨word, first, isWord, obeyed⟩ | ⟨-, evaluated⟩ | ⟨-, kept⟩
  · refine ⟨first, ?_⟩
    rw [obeyed] at taken
    cases word with
    | quit => exact isWord
    | reset => exact (goesOn _ taken).elim
    | blank => cases taken
    | help => cases taken
  · rw [evaluated] at taken
    exact (goesOn _ taken).elim
  · rw [kept] at taken
    cases taken

/-! ## Runs -/

theorem Performs.append {first second last : Shell} {parts parts' : List Part} {shown later : String}
    (earlier : Performs launcher first parts shown second) (others : Performs launcher second parts' later last) :
    Performs launcher first (parts ++ parts') (shown ++ later) last := by
  induction earlier with
  | nil => rwa [String.empty_append]
  | cons performed _ ih =>
    rw [String.append_assoc]
    exact .cons performed (ih others)

/-- A shell ends without a fault only at a command, where no lines wait. -/
theorem take_eq_quit (waiting : Waiting shell.pending) (taken : shell.take launcher reading = .quit) :
    ∃ line, reading = .line line ∧ shell.pending = [] ∧ Command.ofLine? line = some .quit := by
  cases reading with
  | line line => exact ⟨line, rfl, takeLine_eq_quit waiting taken⟩
  | interrupt => cases taken
  | failed cause => cases taken

/-- The lines that wait and what is read fall into parts, and the run performs these. -/
theorem takeAll_groups {readings : List Reading} (waiting : Waiting shell.pending)
    (clean : (shell.takeAll launcher readings).fault = none) :
    ∃ parts unfinished unread shown last ending,
      shell.pending.map .line ++ readings =
        parts.flatMap Part.readings ++ unfinished.map .line ++ unread ∧
      (∀ part ∈ parts, Part.Proper part) ∧ Ending unfinished unread ending ∧
      Performs launcher { shell with pending := [] } parts shown last ∧
      shell.takeAll launcher readings = ⟨shown ++ ending, none, last.finish⟩ := by
  induction readings generalizing shell with
  | nil => exact ⟨[], shell.pending, [], "", _, "\n", by simp, nofun, .endOfInput waiting, .nil, rfl⟩
  | cons reading rest ih =>
    rw [takeAll] at clean ⊢
    cases taken : shell.take launcher reading with
    | quit =>
      obtain ⟨line, rfl, first, isQuit⟩ := take_eq_quit waiting taken
      exact ⟨[], [], .line line :: rest, "", _, "", by simp [first], nofun, .quit isQuit, .nil, rfl⟩
    | fail fault scene =>
      rw [taken] at clean
      cases clean
    | next shown shell' =>
      rw [taken] at clean
      obtain ⟨waiting', parts, proper, split, performed⟩ := take_performs waiting taken
      obtain ⟨parts', unfinished, unread, shown', last, ending, splitRest, properRest, ends, performedRest, run⟩ :=
        ih waiting' clean
      refine ⟨parts ++ parts', unfinished, unread, shown ++ shown', last, ending, ?_,
        List.forall_mem_append.2 ⟨proper, properRest⟩, ends, performed.append performedRest, ?_⟩
      · rw [← List.singleton_append, ← List.append_assoc, split, List.append_assoc, splitRest, List.flatMap_append]
        simp only [List.append_assoc]
      · simp only [run, Transcript.after, String.append_assoc]

theorem pending_of_start {scene : Scene} (started : start launcher scene = .ok shell) : shell.pending = [] := by
  unfold start at started
  split at started
  · cases started
    rfl
  · cases started

/-- A run that meets no fault reads in order, up to the first line that quits where an entry would start.  What it has
read are commands, entries and interrupts with the lines that they take back, one after another, and perhaps the
beginning of one more entry; and the run performs them in that order, each once.  Without an interrupt no line is
taken back. -/
theorem run_groups {files : FileTree} {readings : List Reading}
    (clean : (run launcher files readings).fault = none) :
    ∃ first parts unfinished unread shown last ending,
      readings = parts.flatMap Part.readings ++ unfinished.map .line ++ unread ∧
      (∀ part ∈ parts, Part.Proper part) ∧
      (.interrupt ∉ readings → ∀ lines, .interrupted lines ∉ parts) ∧ Ending unfinished unread ending ∧
      start launcher { files } = .ok first ∧ Performs launcher first parts shown last ∧
      run launcher files readings = ⟨banner ++ (shown ++ ending), none, last.finish⟩ := by
  unfold run at clean ⊢
  cases started : start launcher { files } with
  | error collapse =>
    rw [started] at clean
    cases clean
  | ok first =>
    rw [started] at clean
    have fresh := pending_of_start started
    have same : { first with pending := [] } = first := by rw [← fresh]
    obtain ⟨parts, unfinished, unread, shown, last, ending, split, proper, ends, performed, taken⟩ :=
      takeAll_groups (fresh ▸ .nil) clean
    rw [fresh, List.map_nil, List.nil_append] at split
    rw [same] at performed
    refine ⟨first, parts, unfinished, unread, shown, last, ending, split, proper, ?_, ends, rfl, performed, ?_⟩
    · intro quiet lines member
      refine quiet (split ▸ List.mem_append_left _ (List.mem_append_left _ ?_))
      exact List.mem_flatMap.2 ⟨_, member, by simp [Part.readings]⟩
    · simp only [taken, Transcript.after]

/-- A blank line, an entry with a blank line and a command word in it, a line that is taken back, the end, and a line
that is not read. -/
def quittingReadings : List Reading :=
  [.line " ", .line "[", .line "exit", .line "", .line "];", .line "(", .interrupt, .line "quit", .line "1"]

theorem run_groups_quitting :
    (run quietLauncher .bare quittingReadings).fault = none ∧
      ∃ first parts unfinished unread shown last ending,
        quittingReadings = parts.flatMap Part.readings ++ unfinished.map .line ++ unread ∧
        (∀ part ∈ parts, Part.Proper part) ∧ Ending unfinished unread ending ∧
        start quietLauncher { files := .bare } = .ok first ∧ Performs quietLauncher first parts shown last ∧
        banner ++ "Error: semantic error: Variable 'exit' not declared at line 2, column 1\n^C\n" =
          banner ++ (shown ++ ending) := by
  have clean : (run quietLauncher .bare quittingReadings).fault = none := by decide +kernel
  have text : (run quietLauncher .bare quittingReadings).shown =
      banner ++ "Error: semantic error: Variable 'exit' not declared at line 2, column 1\n^C\n" := by
    decide +kernel
  obtain ⟨first, parts, unfinished, unread, shown, last, ending, split, proper, -, ends, started, performed, taken⟩ :=
    run_groups clean
  rw [taken] at text
  exact ⟨clean, first, parts, unfinished, unread, shown, last, ending, split, proper, ends, started, performed,
    text.symm⟩

end ToraCompiler.Shell
