import ToraCompiler.Interpreter.Link

/-!
# Conversations with an interpreter

A link has served a row of requests when each of them has been delivered as a turn of its own, in order, and
each turn has been answered by a reply (`Link.Served`).  Executing code extends the row by one, unless the link
fails (`Link.Served.execute`).

Nothing has to be known of the process for that.  It may answer early, break the framing, or end.  What is sent to
a process that has ended does not reach it, but then nobody is there to read it, which fails.
-/

namespace ToraCompiler

/-! ## Answered turns -/

/-- Each turn has been answered by a reply, and the octets are what has been written beyond the replies. -/
inductive Conduct.Answers (conduct : Conduct) : List Turn → List Frame.Reply → List UInt8 → Prop
  | none : Answers conduct [] [] []
  | turn {turns : List Turn} {replies : List Frame.Reply} {unread rest : List UInt8} {t : Turn}
      {reply : Frame.Reply} :
    Answers conduct turns replies unread →
    Frame.readReply (unread ++ (conduct (turns ++ [t])).stdout) = .ok (reply, rest) →
    Answers conduct (turns ++ [t]) (replies ++ [reply]) rest

/-! ## Links -/

namespace Link

/-- The process has received these requests, each once and in this order, and has answered each. -/
structure Served (link : Link) (requests : List String) : Prop where
  received : link.requests = requests
  delivered : link.turns.map Turn.octets = requests.map Frame.request
  answered : ∃ replies, link.conduct.Answers link.turns replies link.unread

variable {link link' : Link} {scene scene' : Scene} {code : String} {reply : Frame.Reply}

/-- How the process answers a request that is delivered now. -/
def answerTo (link : Link) (scene : Scene) (code : String) : Answer :=
  link.conduct (link.turns ++ [{ octets := Frame.request code, last := false, files := scene.files }])

/-- The link after a request has been delivered, before anything has been read. -/
def told (link : Link) (scene : Scene) (code : String) : Link where
  conduct := link.conduct
  turns := link.turns ++ [{ octets := Frame.request code, last := false, files := scene.files }]
  requests := link.requests ++ [code]
  unread := link.unread ++ (link.answerTo scene code).stdout
  ended := (link.answerTo scene code).status.isSome

/-- What the processes share after a request has been delivered. -/
def sceneAfter (link : Link) (scene : Scene) (code : String) : Scene where
  files := (link.answerTo scene code).files
  complaints := scene.complaints ++ (link.answerTo scene code).stderr

/-- Executing code on a process that is there delivers it, unless it is too much to wait for a process that
does not read, and then reads a reply. -/
theorem execute_of_running (running : link.ended = false) :
    link.execute scene code =
      if (link.answerTo scene code).isDeaf then
        (.error (.broken .brokenPipe), link.told scene code, link.sceneAfter scene code)
      else
        match Frame.readReply (link.told scene code).unread with
        | .ok (reply, rest) =>
          (.ok reply, { link.told scene code with unread := rest }, link.sceneAfter scene code)
        | .error fault => (.error fault, link.told scene code, link.sceneAfter scene code) := by
  have sent : link.send scene code =
      (if (link.answerTo scene code).isDeaf then .error (.broken .brokenPipe) else .ok (),
        link.told scene code, link.sceneAfter scene code) := by
    unfold send
    rw [running]
    rfl
  unfold execute
  rw [sent]
  cases (link.answerTo scene code).isDeaf <;> rfl

/-- Nobody reads what is sent to a process that has ended. -/
theorem execute_of_ended (ended : link.ended = true) :
    link.execute scene code = (.error (.broken .brokenPipe), link, scene) := by
  unfold execute send
  rw [ended]
  rfl

/-- A reply to code comes from a process that is there and has received the code. -/
theorem execute_eq_ok (done : link.execute scene code = (.ok reply, link', scene')) :
    ∃ rest, Frame.readReply (link.told scene code).unread = .ok (reply, rest) ∧
      link' = { link.told scene code with unread := rest } := by
  cases running : link.ended with
  | true =>
    rw [execute_of_ended running] at done
    cases done
  | false =>
    rw [execute_of_running running] at done
    split at done
    · cases done
    · cases read : Frame.readReply (link.told scene code).unread with
      | error fault =>
        rw [read] at done
        cases done
      | ok result =>
        obtain ⟨reply', rest⟩ := result
        rw [read] at done
        cases done
        exact ⟨rest, rfl, rfl⟩

/-- Code that is executed has been received and answered, behind all that was before. -/
theorem Served.execute {requests : List String} (served : link.Served requests)
    (done : link.execute scene code = (.ok reply, link', scene')) : link'.Served (requests ++ [code]) := by
  obtain ⟨replies, answers⟩ := served.answered
  obtain ⟨rest, read, rfl⟩ := execute_eq_ok done
  refine ⟨?_, ?_, _, answers.turn read⟩
  · rw [told, served.received]
  · rw [told, List.map_append, served.delivered, List.map_append]
    rfl

/-- A link that has been started has served the prologue. -/
theorem served_of_start {interpreter : String} {launched : Except SystemFault Conduct}
    (started : Link.start interpreter launched scene = (.ok link, scene')) : link.Served [Host.prologue] := by
  unfold Link.start at started
  cases launched with
  | error cause => cases started
  | ok conduct =>
    have fresh : Served { conduct } [] := ⟨rfl, rfl, [], .none⟩
    rcases executed : Link.execute { conduct } scene Host.prologue with ⟨outcome, link₁, scene₁⟩
    simp only [executed] at started
    cases outcome with
    | error fault => cases started
    | ok reply =>
      simp only at started
      cases failed : reply.error with
      | some reason =>
        simp only [failed] at started
        cases started
      | none =>
        simp only [failed] at started
        cases started
        exact fresh.execute executed

end Link

end ToraCompiler
