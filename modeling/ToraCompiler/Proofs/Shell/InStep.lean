import ToraCompiler.Proofs.Compilation.Batch
import ToraCompiler.Proofs.Interpreter.Conversation
import ToraCompiler.Shell.Loop

/-!
# The session stays in step with the interpreter

The shell keeps two records of what was declared: its session, and the state of the running process, which it
cannot see.  They belong together when the session is the one that some entries lead to, and the process has
received the prologue and the outputs of these entries, and nothing else (`Shell.InStep`).  A line that the
shell takes keeps that: a rejected entry touches neither, an executed one extends both, and an interpreter that
is replaced comes with an empty session (`Shell.InStep.takeLine`).  An interrupt touches neither.
-/

namespace ToraCompiler

namespace Session

/-- One more fragment that is accepted. -/
theorem run_concat {s s' : Session} {fragments : List String} {fragment text : String}
    (compiled : (s.after fragments).compile fragment = .ok (text, s')) :
    s.accepted (fragments ++ [fragment]) = s.accepted fragments ++ [(fragment, text)] ∧
      s.after (fragments ++ [fragment]) = s' := by
  induction fragments generalizing s with
  | nil =>
    rw [after] at compiled
    simp only [List.nil_append, accepted, after, compiled, and_self]
  | cons first fragments ih =>
    rw [after] at compiled
    cases result : s.compile first with
    | error d =>
      simp only [result] at compiled
      simpa only [List.cons_append, accepted, after, result] using ih compiled
    | ok outcome =>
      obtain ⟨firstText, s₁⟩ := outcome
      simp only [result] at compiled
      obtain ⟨run, last⟩ := ih compiled
      simp only [List.cons_append, accepted, after, result, run, last, and_self]

end Session

namespace Shell

/-- The entry that a line completes, if it is no command and completes one. -/
def submission? (shell : Shell) (line : String) : Option String :=
  if shell.pending = [] ∧ (Command.ofLine? line).isSome then none
  else
    let entry := joinLines (shell.pending ++ [line])
    if Entry.isComplete entry then some entry else none

/-- The states that the shell goes through: what it has read so far, the entries that lines completed, what has
been shown, and the state. -/
inductive Reached (launcher : Launcher) (files : FileTree) :
    List Reading → List String → String → Shell → Prop
  | start {shell : Shell} : start launcher { files } = .ok shell → Reached launcher files [] [] "" shell
  | line {readings : List Reading} {entries : List String} {before shown line : String} {shell shell' : Shell} :
    Reached launcher files readings entries before shell → shell.takeLine launcher line = .next shown shell' →
    Reached launcher files (readings ++ [.line line]) (entries ++ (shell.submission? line).toList)
      (before ++ shown) shell'
  | interrupt {readings : List Reading} {entries : List String} {before : String} {shell : Shell} :
    Reached launcher files readings entries before shell →
    Reached launcher files (readings ++ [.interrupt]) entries (before ++ interruption shell.pending)
      { shell with pending := [] }

/-- The session is the one after these entries, all accepted, and the process has served the prologue and
their outputs. -/
structure InStep (shell : Shell) (entries : List String) : Prop where
  accepted : (({} : Session).accepted entries).map Prod.fst = entries
  session : shell.session = ({} : Session).after entries
  served : shell.link.Served (Host.prologue :: (({} : Session).accepted entries).map Prod.snd)

variable {launcher : Launcher} {shell shell' : Shell} {entries : List String} {entry line shown : String}

/-! ## Lines -/

theorem takeLine_of_command {command : Command} (first : shell.pending = [])
    (isCommand : Command.ofLine? line = some command) :
    shell.takeLine launcher line = shell.obey launcher command := by
  unfold takeLine
  rw [if_pos first, isCommand]

/-- A line is a command, completes an entry, or waits for more lines. -/
theorem takeLine_cases (launcher : Launcher) (shell : Shell) (line : String) :
    (∃ command, shell.pending = [] ∧ Command.ofLine? line = some command ∧
      shell.submission? line = none ∧ shell.takeLine launcher line = shell.obey launcher command) ∨
    (∃ entry, shell.submission? line = some entry ∧
      shell.takeLine launcher line = .ofExcept (shell.evaluate launcher entry)) ∨
    shell.submission? line = none ∧
      shell.takeLine launcher line = .next "" { shell with pending := shell.pending ++ [line] } := by
  by_cases command : shell.pending = [] ∧ (Command.ofLine? line).isSome
  · obtain ⟨word, isWord⟩ := Option.isSome_iff_exists.1 command.2
    exact .inl ⟨word, command.1, isWord, if_pos command, takeLine_of_command command.1 isWord⟩
  · have taken : shell.takeLine launcher line = shell.extend launcher line := by
      unfold takeLine
      by_cases first : shell.pending = []
      · have noWord : Command.ofLine? line = none := by simpa [first] using command
        rw [if_pos first, noWord]
      · rw [if_neg first]
    unfold submission?
    rw [taken, if_neg command]
    by_cases complete : Entry.isComplete (joinLines (shell.pending ++ [line]))
    · exact .inr (.inl ⟨_, if_pos complete, if_pos complete⟩)
    · exact .inr (.inr ⟨if_neg complete, if_neg complete⟩)

theorem takeLine_of_submission (submits : shell.submission? line = some entry) :
    shell.takeLine launcher line = .ofExcept (shell.evaluate launcher entry) := by
  rcases takeLine_cases launcher shell line with ⟨_, -, -, none, -⟩ | ⟨_, some, taken⟩ | ⟨none, -⟩
  · rw [none] at submits
    cases submits
  · rw [some] at submits
    cases submits
    exact taken
  · rw [none] at submits
    cases submits

/-! ## What a line does to the session and the interpreter -/

/-- A new interpreter and an empty session are in step. -/
theorem inStep_of_launch {scene scene' : Scene} {link : Link}
    (launched : launcher.start scene = (.ok link, scene')) (after : Scene) :
    InStep { session := {}, link, scene := after, pending := [] } [] :=
  ⟨rfl, rfl, Link.served_of_start launched⟩

theorem inStep_of_restart (restarted : shell.restart launcher = .ok shell') : shell'.InStep [] := by
  unfold restart at restarted
  rcases launched : launcher.start shell.scene with ⟨outcome, scene⟩
  rw [launched] at restarted
  cases outcome with
  | error fault => cases restarted
  | ok link =>
    cases restarted
    exact inStep_of_launch launched _

theorem inStep_of_start {scene : Scene} (started : start launcher scene = .ok shell) : shell.InStep [] := by
  unfold start at started
  rcases launched : launcher.start scene with ⟨outcome, scene'⟩
  rw [launched] at started
  cases outcome with
  | error fault => cases started
  | ok link =>
    cases started
    exact inStep_of_launch launched _

theorem evaluate_of_reject {d : Diagnostic} (rejected : shell.session.compile entry = .error d) :
    shell.evaluate launcher entry = .ok ("Error: " ++ d.render ++ "\n", { shell with pending := [] }) := by
  unfold evaluate
  rw [rejected]

theorem evaluate_of_reply {code : String} {session : Session} {reply : Frame.Reply} {link : Link}
    {scene : Scene} (compiled : shell.session.compile entry = .ok (code, session))
    (executed : shell.link.execute shell.scene code = (.ok reply, link, scene)) :
    shell.evaluate launcher entry = .ok (Shell.shown reply, { session, link, scene, pending := [] }) := by
  unfold evaluate
  simp only [compiled, executed]

/-- A fault replaces the interpreter, or ends the shell. -/
theorem evaluate_of_fault {code : String} {session : Session} {fault : LinkFault} {link : Link}
    {scene : Scene} (compiled : shell.session.compile entry = .ok (code, session))
    (executed : shell.link.execute shell.scene code = (.error fault, link, scene)) :
    shell.evaluate launcher entry =
      if fault = .oversized then .error ⟨.oversized, link.close scene⟩
      else (restart launcher { shell with link, scene }).map fun fresh => (notice fault, fresh) := by
  unfold evaluate
  cases fault <;> simp only [compiled, executed] <;> rfl

/-- An entry is rejected, or executed, or costs the interpreter. -/
theorem evaluate_cases (evaluated : shell.evaluate launcher entry = .ok (shown, shell')) :
    (∃ d, shell.session.compile entry = .error d ∧ shell' = { shell with pending := [] }) ∨
    (∃ code session reply link scene, shell.session.compile entry = .ok (code, session) ∧
      shell.link.execute shell.scene code = (.ok reply, link, scene) ∧
      shell' = { session, link, scene, pending := [] }) ∨
    ∃ code session fault link scene, shell.session.compile entry = .ok (code, session) ∧
      shell.link.execute shell.scene code = (.error fault, link, scene) ∧
      { shell with link, scene }.restart launcher = .ok shell' := by
  cases compiled : shell.session.compile entry with
  | error d =>
    rw [evaluate_of_reject compiled] at evaluated
    cases evaluated
    exact .inl ⟨d, rfl, rfl⟩
  | ok result =>
    obtain ⟨code, session⟩ := result
    rcases executed : shell.link.execute shell.scene code with ⟨outcome, link, scene⟩
    cases outcome with
    | ok reply =>
      rw [evaluate_of_reply compiled executed] at evaluated
      cases evaluated
      exact .inr (.inl ⟨code, session, reply, link, scene, rfl, executed, rfl⟩)
    | error fault =>
      rw [evaluate_of_fault compiled executed] at evaluated
      split at evaluated
      · cases evaluated
      · cases restarted : { shell with link, scene }.restart launcher with
        | error collapse =>
          rw [restarted] at evaluated
          cases evaluated
        | ok fresh =>
          rw [restarted] at evaluated
          cases evaluated
          exact .inr (.inr ⟨code, session, fault, link, scene, rfl, executed, restarted⟩)

theorem ofExcept_eq_next {outcome : Except Collapse (String × Shell)} :
    Step.ofExcept outcome = .next shown shell' ↔ outcome = .ok (shown, shell') := by
  cases outcome with
  | error collapse => simp [Step.ofExcept]
  | ok result => simp [Step.ofExcept, Prod.ext_iff]

/-- What a line can do: leave the session and the interpreter alone, have an accepted entry executed, or
replace the interpreter. -/
theorem takeLine_eq_next (taken : shell.takeLine launcher line = .next shown shell') :
    (shell'.session = shell.session ∧ shell'.link = shell.link) ∨
    (∃ entry code reply, shell.submission? line = some entry ∧
      shell.session.compile entry = .ok (code, shell'.session) ∧
      shell.link.execute shell.scene code = (.ok reply, shell'.link, shell'.scene)) ∨
    ∃ old : Shell, old.restart launcher = .ok shell' := by
  rcases takeLine_cases launcher shell line with ⟨command, -, -, -, obeyed⟩ | ⟨entry, submits, evaluated⟩ |
    ⟨-, waits⟩
  · rw [obeyed] at taken
    cases command with
    | blank =>
      cases taken
      exact .inl ⟨rfl, rfl⟩
    | quit => cases taken
    | help =>
      cases taken
      exact .inl ⟨rfl, rfl⟩
    | reset =>
      obtain ⟨fresh, restarted, same⟩ := bind_eq_ok_iff.1 (ofExcept_eq_next.1 taken)
      cases same
      exact .inr (.inr ⟨shell, restarted⟩)
  · rw [evaluated] at taken
    rcases evaluate_cases (ofExcept_eq_next.1 taken) with ⟨d, -, rfl⟩ |
      ⟨code, session, reply, link, scene, compiled, executed, rfl⟩ |
      ⟨code, session, fault, link, scene, -, -, restarted⟩
    · exact .inl ⟨rfl, rfl⟩
    · exact .inr (.inl ⟨entry, code, reply, submits, compiled, executed⟩)
    · exact .inr (.inr ⟨_, restarted⟩)
  · rw [waits] at taken
    cases taken
    exact .inl ⟨rfl, rfl⟩

/-- A line keeps the session in step.  The entries stay, or get the submitted one behind them, or are
forgotten. -/
theorem InStep.takeLine (inStep : shell.InStep entries)
    (taken : shell.takeLine launcher line = .next shown shell') :
    ∃ entries', entries'.Sublist (entries ++ (shell.submission? line).toList) ∧ shell'.InStep entries' := by
  rcases takeLine_eq_next taken with ⟨sameSession, sameLink⟩ |
    ⟨entry, code, reply, submits, compiled, executed⟩ | ⟨old, restarted⟩
  · refine ⟨entries, List.sublist_append_left _ _, inStep.accepted, ?_, ?_⟩
    · rw [sameSession, inStep.session]
    · rw [sameLink]
      exact inStep.served
  · -- The entry was compiled by the session that the earlier ones lead to, so it extends their run.
    have served := inStep.served.execute executed
    rw [inStep.session] at compiled
    obtain ⟨run, last⟩ := Session.run_concat compiled
    refine ⟨entries ++ [entry], ?_, ?_, last.symm, ?_⟩
    · rw [submits]
      exact List.Sublist.refl _
    · rw [run, List.map_append, inStep.accepted]
      rfl
    · rw [run, List.map_append]
      exact served
  · exact ⟨[], List.nil_sublist _, inStep_of_restart restarted⟩

/-! ## Runs -/

variable {files : FileTree} {readings : List Reading} {submitted : List String} {before : String}

/-- The states that are reached are the ones that the loop goes through. -/
theorem run_of_reached (reached : Reached launcher files readings submitted before shell) (rest : List Reading) :
    run launcher files (readings ++ rest) = ((shell.takeAll launcher rest).after before).after banner := by
  induction reached generalizing rest with
  | start started =>
    unfold run
    rw [List.nil_append, started]
    rfl
  | line _ taken ih =>
    rw [List.append_assoc, List.singleton_append, ih, takeAll, take, taken]
    simp only [Transcript.after, String.append_assoc]
  | interrupt _ ih =>
    rw [List.append_assoc, List.singleton_append, ih, takeAll, take]
    simp only [Transcript.after, String.append_assoc]

theorem inStep_of_reached (reached : Reached launcher files readings submitted before shell) :
    ∃ entries, entries.Sublist submitted ∧ shell.InStep entries := by
  induction reached with
  | start started => exact ⟨[], List.nil_sublist _, inStep_of_start started⟩
  | line _ taken ih =>
    obtain ⟨entries, earlier, inStep⟩ := ih
    obtain ⟨entries', later, inStep'⟩ := inStep.takeLine taken
    exact ⟨entries', later.trans (earlier.append_right _), inStep'⟩
  | interrupt _ ih =>
    obtain ⟨entries, earlier, accepted, session, served⟩ := ih
    exact ⟨entries, earlier, accepted, session, served⟩

/-- Whatever is read and whatever the interpreters do, the session and the process stay in step in every state that
the loop goes through.  A rejected entry sends nothing.  An interpreter that is replaced, after a fault or on
request, starts with an empty session and the prologue alone. -/
theorem session_in_step (reached : Reached launcher files readings submitted before shell) :
    (∀ rest, run launcher files (readings ++ rest) =
      ((shell.takeAll launcher rest).after before).after banner) ∧
    (∃ entries, entries.Sublist submitted ∧ shell.InStep entries) ∧
    (∀ line entry d, shell.submission? line = some entry → shell.session.compile entry = .error d →
      shell.takeLine launcher line =
        .next ("Error: " ++ d.render ++ "\n") { shell with pending := [] }) ∧
    (∀ line entry code session fault link scene, shell.submission? line = some entry →
      shell.session.compile entry = .ok (code, session) →
      shell.link.execute shell.scene code = (.error fault, link, scene) →
      ∀ shown shell', shell.takeLine launcher line = .next shown shell' → shell'.InStep []) ∧
    ∀ line, shell.pending = [] → Command.ofLine? line = some .reset →
      ∀ shown shell', shell.takeLine launcher line = .next shown shell' → shell'.InStep [] := by
  refine ⟨run_of_reached reached, inStep_of_reached reached, ?_, ?_, ?_⟩
  · intro line entry d submits rejected
    rw [takeLine_of_submission submits, evaluate_of_reject rejected]
    rfl
  · intro line entry code session fault link scene submits compiled executed shown shell' taken
    rw [takeLine_of_submission submits] at taken
    rcases evaluate_cases (ofExcept_eq_next.1 taken) with ⟨d, rejected, -⟩ |
      ⟨code', session', reply, link', scene', compiled', executed', -⟩ | ⟨_, _, _, _, _, -, -, restarted⟩
    · rw [compiled] at rejected
      cases rejected
    · rw [compiled] at compiled'
      cases compiled'
      rw [executed] at executed'
      cases executed'
    · exact inStep_of_restart restarted
  · intro line first isReset shown shell' taken
    rw [takeLine_of_command first isReset] at taken
    obtain ⟨fresh, restarted, same⟩ := bind_eq_ok_iff.1 (ofExcept_eq_next.1 taken)
    cases same
    exact inStep_of_restart restarted

/-! ## Steps of a run -/

theorem submission?_of_alone (first : shell.pending = []) (noCommand : Command.ofLine? line = none)
    (complete : Entry.isComplete line = true) : shell.submission? line = some line := by
  have alone : joinLines (shell.pending ++ [line]) = line := by
    rw [first]
    rfl
  unfold submission?
  rw [noCommand, alone, if_neg (by simp)]
  exact if_pos complete

namespace Reached

variable {code : String} {session : Session} {link : Link} {scene : Scene}

theorem submit (reached : Reached launcher files readings submitted before shell)
    (submits : shell.submission? line = some entry)
    (evaluated : shell.evaluate launcher entry = .ok (shown, shell')) :
    Reached launcher files (readings ++ [.line line]) (submitted ++ [entry]) (before ++ shown) shell' := by
  have taken : shell.takeLine launcher line = .ofExcept (shell.evaluate launcher entry) :=
    takeLine_of_submission submits
  rw [evaluated] at taken
  have next := reached.line taken
  rwa [submits] at next

/-- A line that waits for others. -/
theorem wait (reached : Reached launcher files readings submitted before shell)
    (noCommand : Command.ofLine? line = none)
    (incomplete : Entry.isComplete (joinLines (shell.pending ++ [line])) = false) :
    Reached launcher files (readings ++ [.line line]) submitted before
      { shell with pending := shell.pending ++ [line] } := by
  rcases takeLine_cases launcher shell line with ⟨word, -, isWord, -⟩ | ⟨entry, submits, -⟩ | ⟨none, waits⟩
  · rw [noCommand] at isWord
    cases isWord
  · unfold submission? at submits
    simp only [noCommand, incomplete, Option.isSome_none, Bool.false_eq_true, and_false, if_false] at submits
    cases submits
  · have next := reached.line waits
    rwa [none, Option.toList_none, List.append_nil, String.append_empty] at next

/-- A line that asks for a new interpreter. -/
theorem reset (reached : Reached launcher files readings submitted before shell) (first : shell.pending = [])
    (isReset : Command.ofLine? line = some .reset) (restarted : shell.restart launcher = .ok shell') :
    Reached launcher files (readings ++ [.line line]) submitted (before ++ "Session reset\n") shell' := by
  have taken : shell.takeLine launcher line = shell.obey launcher .reset := takeLine_of_command first isReset
  unfold obey at taken
  rw [restarted] at taken
  have next := reached.line taken
  have none : shell.submission? line = none := if_pos ⟨first, by rw [isReset]; rfl⟩
  rwa [none, Option.toList_none, List.append_nil] at next

end Reached

/-! ## A run with steps of all kinds -/

/-- A process that takes everything without a word, and ends at the third request. -/
def quietConduct : Conduct := fun turns =>
  let files := (turns.getLast?.map Turn.files).getD .bare
  if turns.length = 3 then { stdout := [], stderr := [], files, status := some (.code 0), unheard := 0 }
  else { stdout := [48, 10, 111, 107, 10], stderr := [], files, status := none, unheard := 0 }

/-- The way to start such processes. -/
def quietLauncher : Launcher where
  interpreter := "quiet"
  process _ := .ok quietConduct

/-- A link to a quiet process that has taken so many requests and waits for the next one. -/
structure QuietLink (link : Link) (taken : Nat) : Prop where
  quiet : link.conduct = quietConduct
  running : link.ended = false
  read : link.unread = []
  length : link.turns.length = taken

namespace QuietLink

variable {link : Link} {taken : Nat} {code : String} {session : Session}

theorem answerTo (quiet : QuietLink link taken) (scene : Scene) (code : String) :
    link.answerTo scene code =
      if taken + 1 = 3 then
        { stdout := [], stderr := [], files := scene.files, status := some (.code 0), unheard := 0 }
      else { stdout := [48, 10, 111, 107, 10], stderr := [], files := scene.files, status := none, unheard := 0 } := by
  simp only [Link.answerTo, quiet.quiet, quietConduct, List.getLast?_concat, Option.map_some, Option.getD_some,
    List.length_append, List.length_singleton, quiet.length]

theorem execute (quiet : QuietLink link taken) (scene : Scene) (early : taken + 1 ≠ 3) :
    ∃ link', link.execute scene code = (.ok ⟨"", none⟩, link', link.sceneAfter scene code) ∧
      QuietLink link' (taken + 1) ∧ link'.requests = link.requests ++ [code] := by
  have answer := quiet.answerTo scene code
  rw [if_neg early] at answer
  have unread : (link.told scene code).unread = [48, 10, 111, 107, 10] := by
    rw [Link.told, quiet.read, answer]
    rfl
  have reply : Frame.readReply [48, 10, 111, 107, 10] = .ok (⟨"", none⟩, []) := by decide +kernel
  have heard : (link.answerTo scene code).isDeaf = false := by
    rw [answer]
    rfl
  refine ⟨{ link.told scene code with unread := [] }, ?_, ⟨quiet.quiet, ?_, rfl, ?_⟩, rfl⟩
  · rw [Link.execute_of_running quiet.running, heard, unread, reply]
    rfl
  · simp only [Link.told, answer]
    rfl
  · simp only [Link.told, List.length_append, List.length_singleton, quiet.length]

/-- Nothing comes back for the third request. -/
theorem execute_third (quiet : QuietLink link 2) (scene : Scene) :
    link.execute scene code = (.error .exited, link.told scene code, link.sceneAfter scene code) := by
  have answer := quiet.answerTo scene code
  rw [if_pos rfl] at answer
  have unread : (link.told scene code).unread = [] := by
    rw [Link.told, quiet.read, answer]
    rfl
  have heard : (link.answerTo scene code).isDeaf = false := by
    rw [answer]
    rfl
  rw [Link.execute_of_running quiet.running, heard, unread]
  rfl

theorem start (scene : Scene) :
    ∃ link scene', quietLauncher.start scene = (.ok link, scene') ∧ QuietLink link 1 ∧
      link.requests = [Host.prologue] := by
  have fresh : QuietLink { conduct := quietConduct } 0 := ⟨rfl, rfl, rfl, rfl⟩
  obtain ⟨link, executed, quiet, requests⟩ := @fresh.execute _ _ Host.prologue scene (by decide)
  refine ⟨link, Link.sceneAfter { conduct := quietConduct } scene Host.prologue, ?_, quiet, ?_⟩
  · unfold Launcher.start Link.start quietLauncher
    simp only
    rw [executed]
  · rwa [List.nil_append] at requests

theorem restart (shell : Shell) :
    ∃ link scene, shell.restart quietLauncher = .ok { session := {}, link, scene, pending := [] } ∧
      QuietLink link 1 ∧ link.requests = [Host.prologue] := by
  obtain ⟨link, scene, started, quiet, requests⟩ := start shell.scene
  refine ⟨link, shell.link.close scene, ?_, quiet, requests⟩
  unfold Shell.restart
  rw [started]

/-- An entry for a quiet process. -/
theorem evaluate {shell : Shell} (quiet : QuietLink shell.link taken) (early : taken + 1 ≠ 3)
    (compiled : shell.session.compile entry = .ok (code, session)) :
    ∃ link scene, shell.evaluate quietLauncher entry = .ok ("", { session, link, scene, pending := [] }) ∧
      QuietLink link (taken + 1) ∧ link.requests = shell.link.requests ++ [code] := by
  obtain ⟨link, executed, quiet', requests⟩ := quiet.execute shell.scene early
  exact ⟨link, _, evaluate_of_reply compiled executed, quiet', requests⟩

/-- An entry at which a quiet process ends. -/
theorem evaluate_third {shell : Shell} (quiet : QuietLink shell.link 2)
    (compiled : shell.session.compile entry = .ok (code, session)) :
    ∃ link scene, shell.evaluate quietLauncher entry =
        .ok (notice .exited, { session := {}, link, scene, pending := [] }) ∧
      QuietLink link 1 ∧ link.requests = [Host.prologue] := by
  obtain ⟨link, scene, restarted, quiet', requests⟩ := restart
    { shell with link := shell.link.told shell.scene code, scene := shell.link.sceneAfter shell.scene code }
  refine ⟨link, scene, ?_, quiet', requests⟩
  rw [evaluate_of_fault compiled (quiet.execute_third shell.scene), if_neg nofun, restarted]
  rfl

end QuietLink

/-- An entry that is executed, one that is rejected, one that is interrupted, one that costs the interpreter, one for
the next interpreter, a request for another interpreter, and an entry for that. -/
def mixedReadings : List Reading :=
  [.line "let x=1;", .line "y;", .line "[", .interrupt, .line "let z=2;", .line "let y=3;", .line ".reset",
    .line "let x=4;"]

/-- The entries among them. -/
def mixedEntries : List String :=
  ["let x=1;", "y;", "let z=2;", "let y=3;", "let x=4;"]

theorem mixed_submission (member : entry ∈ mixedEntries) (first : shell.pending = []) :
    shell.submission? entry = some entry := by
  have alone : ∀ entry ∈ mixedEntries, Command.ofLine? entry = none ∧ Entry.isComplete entry = true := by
    decide +kernel
  exact submission?_of_alone first (alone entry member).1 (alone entry member).2

theorem session_in_step_quiet :
    ∃ shown shell, Reached quietLauncher .bare mixedReadings mixedEntries shown shell ∧
      shell.session = ⟨[("x", .variable none)], ["x"]⟩ ∧ shell.link.requests = [Host.prologue, "x = 4"] ∧
      ∃ entries, entries.Sublist mixedEntries ∧ shell.InStep entries := by
  have opens : Command.ofLine? "[" = none ∧ Entry.isComplete "[" = false := by decide +kernel
  have isReset : Command.ofLine? ".reset" = some .reset := by decide +kernel
  have one : ({} : Session).compile "let x=1;" = .ok ("x = 1", ⟨[("x", .variable none)], ["x"]⟩) := by
    decide +kernel
  have unknown : Session.compile ⟨[("x", .variable none)], ["x"]⟩ "y;" =
      .error (Misuse.diagnostic (.unknownVariable ⟨"y", ⟨1, 1⟩⟩)) := by decide +kernel
  have two : Session.compile ⟨[("x", .variable none)], ["x"]⟩ "let z=2;" =
      .ok ("z = 2", ⟨[("z", .variable none), ("x", .variable none)], ["z", "x"]⟩) := by decide +kernel
  have three : ({} : Session).compile "let y=3;" = .ok ("y = 3", ⟨[("y", .variable none)], ["y"]⟩) := by
    decide +kernel
  have four : ({} : Session).compile "let x=4;" = .ok ("x = 4", ⟨[("x", .variable none)], ["x"]⟩) := by
    decide +kernel
  -- The first interpreter, up to the entry at which it ends.
  obtain ⟨link₀, scene₀, launched, quiet₀, -⟩ := QuietLink.start { files := .bare }
  let shell₀ : Shell := { session := {}, link := link₀, scene := scene₀, pending := [] }
  have started : start quietLauncher { files := .bare } = .ok shell₀ := by
    unfold start
    rw [launched]
  obtain ⟨link₁, scene₁, evaluated₁, quiet₁, -⟩ := @QuietLink.evaluate _ _ _ _ shell₀ quiet₀ (by decide) one
  let shell₁ : Shell := { session := ⟨[("x", .variable none)], ["x"]⟩, link := link₁, scene := scene₁, pending := [] }
  have executed := (Reached.start started).submit (mixed_submission (by simp [mixedEntries]) rfl) evaluated₁
  have rejected := executed.submit (mixed_submission (by simp [mixedEntries]) rfl) (evaluate_of_reject unknown)
  have interrupted := (rejected.wait opens.1 opens.2).interrupt
  obtain ⟨link₂, scene₂, evaluated₂, quiet₂, -⟩ := @QuietLink.evaluate_third _ _ _ shell₁ quiet₁ two
  -- The one that replaces it.
  let shell₂ : Shell := { session := {}, link := link₂, scene := scene₂, pending := [] }
  have replaced := interrupted.submit (mixed_submission (by simp [mixedEntries]) rfl) evaluated₂
  obtain ⟨link₃, scene₃, evaluated₃, -⟩ := @QuietLink.evaluate _ _ _ _ shell₂ quiet₂ (by decide) three
  let shell₃ : Shell := { session := ⟨[("y", .variable none)], ["y"]⟩, link := link₃, scene := scene₃, pending := [] }
  have further := replaced.submit (mixed_submission (by simp [mixedEntries]) rfl) evaluated₃
  -- The one that is asked for.
  obtain ⟨link₄, scene₄, restarted, quiet₄, requests₄⟩ := QuietLink.restart shell₃
  let shell₄ : Shell := { session := {}, link := link₄, scene := scene₄, pending := [] }
  have reset := further.reset rfl isReset restarted
  obtain ⟨link₅, scene₅, evaluated₅, -, requests₅⟩ := @QuietLink.evaluate _ _ _ _ shell₄ quiet₄ (by decide) four
  have last := reset.submit (mixed_submission (by simp [mixedEntries]) rfl) evaluated₅
  rw [requests₄] at requests₅
  exact ⟨_, _, last, rfl, requests₅, (session_in_step last).2.1⟩

end Shell

end ToraCompiler
