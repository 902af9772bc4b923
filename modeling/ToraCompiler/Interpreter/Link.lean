import ToraCompiler.Host.Prologue
import ToraCompiler.Interpreter.Frame
import ToraCompiler.Interpreter.Process

/-!
# Links to running interpreters

An interpreter is a process at the other end of two streams.  All that matters here is what it writes in
answer to the requests that it has received, what it leaves behind, and when it ends.
-/

namespace ToraCompiler

/-- What all processes share. -/
structure Scene where
  /-- The files. -/
  files : FileTree
  /-- What the processes have complained about. -/
  complaints : List UInt8 := []

/-- A link to a running process. -/
structure Link where
  /-- How the process behaves. -/
  conduct : Conduct
  /-- The turns that it has had, in order. -/
  turns : List Turn := []
  /-- The requests that it has received, in order. -/
  requests : List String := []
  /-- What it has written and nobody has read. -/
  unread : List UInt8 := []
  /-- Whether it has ended. -/
  ended : Bool := false

namespace Link

/-- Gives the process something to read, and lets it go on until it waits again or has ended. -/
def step (link : Link) (scene : Scene) (octets : List UInt8) (last : Bool) : Answer × Link × Scene :=
  let turns := link.turns ++ [{ octets, last, files := scene.files }]
  let answer := link.conduct turns
  (answer,
    { link with turns, unread := link.unread ++ answer.stdout, ended := answer.status.isSome },
    { files := answer.files, complaints := scene.complaints ++ answer.stderr })

/-- Sends a request.  Nobody reads what is sent to a process that has ended. -/
def send (link : Link) (scene : Scene) (code : String) : Except LinkFault Unit × Link × Scene :=
  if link.ended then (.error (.broken .brokenPipe), link, scene)
  else
    let (answer, link', scene') := link.step scene (Frame.request code) false
    (if answer.isDeaf then .error (.broken .brokenPipe) else .ok (),
      { link' with requests := link.requests ++ [code] }, scene')

/-- Sends code and reads what came of it.  After a fault the link is of no use. -/
def execute (link : Link) (scene : Scene) (code : String) :
    Except LinkFault Frame.Reply × Link × Scene :=
  match link.send scene code with
  | (.error fault, sent, scene') => (.error fault, sent, scene')
  | (.ok (), sent, scene') =>
    match Frame.readReply sent.unread with
    | .ok (reply, unread) => (.ok reply, { sent with unread }, scene')
    | .error fault => (.error fault, sent, scene')

/-- Ends the input of the process, and waits for its end. -/
def close (link : Link) (scene : Scene) : Scene :=
  if link.ended then scene else (link.step scene [] true).2.2

/-- Starts a process and has it run the prologue.  A process that does not get that far is closed. -/
def start (interpreter : String) (launched : Except SystemFault Conduct) (scene : Scene) :
    Except LinkFault Link × Scene :=
  match launched with
  | .error cause => (.error (.notStarted interpreter cause), scene)
  | .ok conduct =>
    match Link.execute { conduct } scene Host.prologue with
    | (.error fault, link, scene') => (.error fault, link.close scene')
    | (.ok reply, link, scene') =>
      match reply.error with
      | some reason => (.error (.prologueFailed reason), link.close scene')
      | none => (.ok link, scene')

end Link

end ToraCompiler
