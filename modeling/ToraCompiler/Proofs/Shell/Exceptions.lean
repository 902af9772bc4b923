import ToraCompiler.Proofs.Interpreter.Replies
import ToraCompiler.Proofs.Shell.InStep

/-!
# Exceptions in the shell

An exception in the code of an entry is told by the interpreter on the status line of its reply.  If there is
something to see in the message, the shell shows it, without the white space at its end, and goes on with the
session and the process that it has.  A message of white space alone is not recognised as a message: the reply
counts as broken, and the shell gives up the process and its session for it.
-/

namespace ToraCompiler

namespace Link

variable {link : Link} {scene : Scene} {code message : String} {output : List UInt8}

/-- What comes of code whose execution the interpreter answers by an exception. -/
theorem execute_exception (running : link.ended = false) (read : link.unread = [])
    (heard : (link.answerTo scene code).isDeaf = false)
    (answered : (link.answerTo scene code).stdout = Frame.reply output ("err " ++ message))
    (short : output.length ≤ Frame.lengthLimit) (oneLine : '\n' ∉ message.toList) :
    link.execute scene code =
      if message.toList.all isBlank then
        (.error (.badStatus "err"), link.told scene code, link.sceneAfter scene code)
      else
        (.ok ⟨Utf8.decodeLossy output, some (String.ofList (trimBlankEnd message.toList))⟩,
          { link.told scene code with unread := [] }, link.sceneAfter scene code) := by
  have line : '\n' ∉ ("err " ++ message).toList := by
    rw [String.toList_append, List.mem_append]
    exact fun member => member.elim (by decide) oneLine
  have reply := Frame.readReply_reply short line []
  rw [List.append_nil, Frame.status_exception] at reply
  have unread : (link.told scene code).unread = Frame.reply output ("err " ++ message) := by
    rw [told, read, answered]
    rfl
  rw [execute_of_running running, heard, unread, reply]
  cases message.toList.all isBlank <;> rfl

end Link

namespace Shell

variable {launcher : Launcher} {shell : Shell} {entry code message : String} {session : Session}
  {output : List UInt8}

/-- An exception whose message shows something costs nothing: the message is shown, without white space at its
end, and the session and the process stay.  One whose message shows nothing costs both. -/
theorem evaluate_exception (compiled : shell.session.compile entry = .ok (code, session))
    (running : shell.link.ended = false) (read : shell.link.unread = [])
    (heard : (shell.link.answerTo shell.scene code).isDeaf = false)
    (answered : (shell.link.answerTo shell.scene code).stdout = Frame.reply output ("err " ++ message))
    (short : output.length ≤ Frame.lengthLimit) (oneLine : '\n' ∉ message.toList) :
    (message.toList.all isBlank = false →
      ∃ kept link, shell.link.execute shell.scene code =
          (.ok ⟨Utf8.decodeLossy output, some kept⟩, link, shell.link.sceneAfter shell.scene code) ∧
        link.conduct = shell.link.conduct ∧ link.turns = (shell.link.told shell.scene code).turns ∧
        shell.evaluate launcher entry =
          .ok (Shell.shown ⟨Utf8.decodeLossy output, some kept⟩,
            { session, link, scene := shell.link.sceneAfter shell.scene code, pending := [] }) ∧
        kept = String.ofList (trimBlankEnd message.toList) ∧
        (kept = message ↔ ∀ c ∈ message.toList.getLast?, isBlank c = false)) ∧
    (message.toList.all isBlank = true →
      shell.evaluate launcher entry =
        (restart launcher { shell with
          link := shell.link.told shell.scene code,
          scene := shell.link.sceneAfter shell.scene code }).map fun fresh =>
            (notice (.badStatus "err"), fresh)) := by
  have executed := Link.execute_exception running read heard answered short oneLine
  refine ⟨fun visible => ?_, fun blank => ?_⟩
  · rw [visible] at executed
    refine ⟨_, _, executed, rfl, rfl, evaluate_of_reply compiled executed, rfl, ?_⟩
    rw [← trimBlankEnd_eq_self_iff, ← String.toList_inj, String.toList_ofList]
  · rw [blank] at executed
    rw [evaluate_of_fault compiled executed]
    rfl

/-- A shell whose interpreter answers everything by an exception with this message. -/
def raisingShell (message : String) : Shell where
  session := {}
  link := { conduct := fun _ => ⟨Frame.reply [] ("err " ++ message), [], .bare, none, 0⟩ }
  scene := { files := .bare }
  pending := []

/-- A message that is shown, and an empty one for which the declaration of `x` is lost. -/
theorem evaluate_exception_shown_and_lost :
    (∃ link scene, (raisingShell "no").evaluate quietLauncher "let x=1;" =
      .ok ("Runtime Error: no\n",
        { session := ⟨[("x", .variable none)], ["x"]⟩, link, scene, pending := [] })) ∧
    ∃ fresh, (raisingShell "").evaluate quietLauncher "let x=1;" =
      .ok (notice (.badStatus "err"), fresh) ∧ fresh.session = {} := by
  have compiled : ({} : Session).compile "let x=1;" =
      .ok ("x = 1", ⟨[("x", .variable none)], ["x"]⟩) := by decide +kernel
  have outcome := fun message oneLine => @evaluate_exception quietLauncher (raisingShell message)
    "let x=1;" "x = 1" message _ [] compiled rfl rfl rfl rfl (Nat.zero_le _) oneLine
  constructor
  · obtain ⟨kept, link, -, -, -, evaluated, -, whole⟩ := (outcome "no" (by decide)).1 (by decide)
    have noBlankEnd : ∀ c ∈ "no".toList.getLast?, isBlank c = false := by
      rintro c ⟨⟩
      rfl
    obtain rfl := whole.2 noBlankEnd
    exact ⟨link, _, evaluated⟩
  · have lost := (outcome "" (by decide)).2 (by decide)
    obtain ⟨link, scene, restarted, -⟩ := QuietLink.restart { raisingShell "" with
      link := (raisingShell "").link.told (raisingShell "").scene "x = 1",
      scene := (raisingShell "").link.sceneAfter (raisingShell "").scene "x = 1" }
    rw [restarted] at lost
    exact ⟨_, lost, rfl⟩

end Shell

end ToraCompiler
