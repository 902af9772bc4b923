import ToraCompiler.Proofs.Interpreter.Conversation
import ToraCompiler.Proofs.Interpreter.Replies

/-!
# Conversations are transparent

Both directions of a conversation are streams of octets without marks between the frames: what is sent next
begins where the last frame ends.  So each side has to stop reading at exactly that place, whatever the code and
the outputs hold.

The server reads requests by `Host.readRequests`, which follows its program: a header line, as many octets as it
says, and the text that they are.  A row of requests is read as the codes that were sent
(`Host.readRequests_flatMap`).  A reply that is sent is read as its output and its message, and what stands
behind it stays (`Frame.readReply_sent`).  `Link.Abreast` carries that through a conversation: the replies that
have been read and the octets that have not are together what the process has written.
-/

namespace ToraCompiler

/-! ## Requests, as the server reads them -/

namespace Host

/-- Reads a request: a header line with a length, and the text that follows in as many octets.  A server fails
on a header that is no number, and on octets that are no text. -/
def readRequest (octets : List UInt8) : Option (String × List UInt8) :=
  let (header, body) := Frame.splitLine octets
  match (Utf8.decode? header).bind fun line => Numeral.natural? (trimBlank line.toList) with
  | none => none
  | some length => (Utf8.decode? (body.take length)).map fun code => (code, body.drop length)

/-- Reading a request takes at least its header. -/
theorem length_lt_of_readRequest {octets rest : List UInt8} {code : String} (nonempty : octets ≠ [])
    (read : readRequest octets = some (code, rest)) : rest.length < octets.length := by
  have header : (Frame.splitLine octets).2.length < octets.length := by
    have split := congrArg List.length (List.takeWhile_append_dropWhile
      (p := fun octet : UInt8 => decide (octet ≠ Frame.lineEnd)) (l := octets))
    rw [List.length_append] at split
    have positive := List.length_pos_iff.2 nonempty
    unfold Frame.splitLine
    cases behind : octets.dropWhile fun octet => decide (octet ≠ Frame.lineEnd) with
    | nil => exact positive
    | cons newline later =>
      rw [behind, List.length_cons] at split
      dsimp only
      omega
  unfold readRequest at read
  dsimp only at read
  split at read
  · cases read
  · obtain ⟨text, -, same⟩ := Option.map_eq_some_iff.1 read
    obtain ⟨-, rfl⟩ := Prod.mk.inj same
    rw [List.length_drop]
    omega

/-- Reads requests until the stream ends where a header is due. -/
def readRequests (octets : List UInt8) : Option (List String) :=
  if _ : octets = [] then some []
  else
    match _ : readRequest octets with
    | none => none
    | some (code, rest) => (readRequests rest).map (code :: ·)
termination_by octets.length
decreasing_by exact length_lt_of_readRequest ‹octets ≠ []› ‹_›

/-- A request is read as the code in it, and what stands behind it stays. -/
theorem readRequest_request (code : String) (later : List UInt8) :
    readRequest (Frame.request code ++ later) = some (code, later) := by
  have row : Frame.request code ++ later = Utf8.encode (toString (Utf8.encode code).length) ++
      Frame.lineEnd :: (Utf8.encode code ++ later) := by simp [Frame.request]
  have header := Frame.splitLine_append (lineEnd_notMem_encode_toString (Utf8.encode code).length)
    (Utf8.encode code ++ later)
  have line : Utf8.encode (toString (Utf8.encode code).length) ++ [Frame.lineEnd] =
      Utf8.encode (toString (Utf8.encode code).length ++ "\n") := (Utf8.encode_append _ "\n").symm
  have length : Numeral.natural? (trimBlank (toString (Utf8.encode code).length ++ "\n").toList) =
      some (Utf8.encode code).length := by
    generalize (Utf8.encode code).length = n
    have starts : ((toString n).toList ++ "\n".toList).dropWhile isBlank = (toString n).toList ++ "\n".toList := by
      cases digits : (toString n).toList with
      | nil => exact absurd digits (toString_ne_nil n)
      | cons c cs =>
        have digit : c.isDigit := isDigit_of_mem_toString (by rw [digits]; exact List.mem_cons_self)
        simp [isBlank_of_isDigit digit]
    have newline : ("\n".toList).all isBlank = true := by decide
    rw [String.toList_append, trimBlank, starts, trimBlankEnd_append_blank newline, trimBlankEnd_toString,
      Numeral.natural?_toString]
  unfold readRequest
  rw [row, header]
  simp only [line, Utf8.decode?_encode, Option.bind_some, length, List.take_left, List.drop_left, Option.map_some]

/-- A row of requests is read as the codes in it, and nothing is left over. -/
theorem readRequests_flatMap (codes : List String) :
    readRequests (codes.flatMap Frame.request) = some codes := by
  induction codes with
  | nil =>
    rw [readRequests]
    rfl
  | cons code codes ih =>
    have nonempty : Frame.request code ++ codes.flatMap Frame.request ≠ [] := by simp [Frame.request]
    rw [List.flatMap_cons, readRequests, dif_neg nonempty]
    split
    · next nothing =>
      rw [readRequest_request] at nothing
      cases nothing
    · next code' rest read =>
      rw [readRequest_request] at read
      cases read
      rw [ih]
      rfl

end Host

/-! ## Replies, as they are sent -/

namespace Frame

/-- A reply before it is sent.  A message is one line with something to see at its end, and no output is
longer than the longest row of octets that there can be. -/
structure Sent where
  /-- What the code printed, in any octets. -/
  output : List UInt8
  /-- The message of the exception that ended the code, if one did. -/
  error : Option String
  short : output.length ≤ lengthLimit
  oneLine : ∀ message ∈ error, '\n' ∉ message.toList
  visible : ∀ message ∈ error, ∃ c ∈ message.toList.getLast?, isBlank c = false

namespace Sent

/-- The status line. -/
def statusLine (s : Sent) : String :=
  match s.error with
  | none => "ok"
  | some message => "err " ++ message

/-- The octets that are sent. -/
def octets (s : Sent) : List UInt8 :=
  reply s.output s.statusLine

/-- What is to be read: the output as text, and the message. -/
def reading (s : Sent) : Reply where
  output := Utf8.decodeLossy s.output
  error := s.error

theorem statusLine_oneLine (s : Sent) : '\n' ∉ s.statusLine.toList := by
  unfold statusLine
  cases failed : s.error with
  | none => decide
  | some message =>
    simp only
    rw [String.toList_append, List.mem_append]
    rintro (inWord | inMessage)
    · exact absurd inWord (by decide)
    · exact s.oneLine message failed inMessage

theorem status_statusLine (s : Sent) :
    status (String.ofList (trimBlankEnd s.statusLine.toList)) = .ok s.error := by
  unfold statusLine
  cases failed : s.error with
  | none => decide
  | some message =>
    obtain ⟨c, last, notBlank⟩ := s.visible message failed
    have someVisible : message.toList.all isBlank = false := by
      cases all : message.toList.all isBlank with
      | false => rfl
      | true =>
        have blank := List.all_eq_true.1 all c (List.mem_of_getLast? last)
        rw [notBlank] at blank
        cases blank
    have whole : trimBlankEnd message.toList = message.toList := by
      refine trimBlankEnd_eq_self_iff.2 fun d isLast => ?_
      obtain rfl : c = d := Option.some.inj (last.symm.trans isLast)
      exact notBlank
    simp only
    rw [status_exception, someVisible, whole, String.ofList_toList]
    rfl

end Sent

/-- A reply that is sent is read as it is, and what stands behind it stays. -/
theorem readReply_sent (s : Sent) (later : List UInt8) :
    readReply (s.octets ++ later) = .ok (s.reading, later) := by
  rw [Sent.octets, readReply_reply s.short s.statusLine_oneLine, s.status_statusLine]
  rfl

end Frame

/-! ## Streams of replies -/

namespace Conduct

/-- All that a process has written in these turns. -/
def written (conduct : Conduct) (turns : List Turn) : List UInt8 :=
  (List.range turns.length).flatMap fun i => (conduct (turns.take (i + 1))).stdout

theorem written_concat (conduct : Conduct) (turns : List Turn) (t : Turn) :
    conduct.written (turns ++ [t]) = conduct.written turns ++ (conduct (turns ++ [t])).stdout := by
  unfold written
  have length : (turns ++ [t]).length = turns.length + 1 := by simp
  have whole : (turns ++ [t]).take (turns.length + 1) = turns ++ [t] := List.take_of_length_le (by simp)
  have earlier : ∀ i ∈ List.range turns.length, (conduct ((turns ++ [t]).take (i + 1))).stdout =
      (conduct (turns.take (i + 1))).stdout := by
    intro i member
    have below : i < turns.length := List.mem_range.1 member
    rw [List.take_append_of_le_length (by omega)]
  rw [length, List.range_succ, List.flatMap_append, List.flatMap_congr earlier]
  simp [whole]

/-- The process answers these codes by these replies.  After any number of requests it has written the replies to
them, whatever the files were meanwhile; what it has written beyond that may be anything.  It has read each
request, and it waits for the next one. -/
structure Speaks (conduct : Conduct) (talk : List (String × Frame.Sent)) : Prop where
  writes : ∀ past future turns, talk = past ++ future →
    turns.map Turn.octets = past.map (fun entry => Frame.request entry.1) →
    past.flatMap (fun entry => entry.2.octets) <+: conduct.written turns
  hears : ∀ past entry future turns, talk = past ++ entry :: future →
    turns.map Turn.octets = (past ++ [entry]).map (fun entry => Frame.request entry.1) →
    (conduct turns).isDeaf = false ∧ (future ≠ [] → (conduct turns).status = none)

end Conduct

/-! ## Conversations -/

namespace Link

/-- Executes codes one after another, with what came of each. -/
def executeAll (link : Link) (scene : Scene) :
    List String → List (Except LinkFault Frame.Reply) × Link × Scene
  | [] => ([], link, scene)
  | code :: codes =>
    let (outcome, link₁, scene₁) := link.execute scene code
    let (outcomes, link₂, scene₂) := executeAll link₁ scene₁ codes
    (outcome :: outcomes, link₂, scene₂)

/-- The part of a conversation that a link has behind it: the requests have been delivered, each in a turn of
its own, and the replies to them have been read, so that what is unread is what the process wrote behind them. -/
structure Abreast (link : Link) (conduct : Conduct) (past : List (String × Frame.Sent)) : Prop where
  sameConduct : link.conduct = conduct
  delivered : link.turns.map Turn.octets = past.map (fun entry => Frame.request entry.1)
  read : past.flatMap (fun entry => entry.2.octets) ++ link.unread = conduct.written link.turns
  ended : link.ended → past ≠ [] ∧ (conduct link.turns).status.isSome

/-- A link whose process speaks is running as long as something is left to say. -/
theorem Abreast.running {link : Link} {conduct : Conduct} {past future : List (String × Frame.Sent)}
    (abreast : link.Abreast conduct past) (speaks : conduct.Speaks (past ++ future)) (more : future ≠ []) :
    link.ended = false := by
  cases ended : link.ended with
  | false => rfl
  | true =>
    obtain ⟨nonempty, hasEnded⟩ := abreast.ended ended
    rcases List.eq_nil_or_concat past with rfl | ⟨before, last, rfl⟩
    · exact (nonempty rfl).elim
    · rw [List.concat_eq_append] at speaks abreast
      obtain ⟨-, waits⟩ := speaks.hears before last future link.turns (by simp) abreast.delivered
      rw [waits more] at hasEnded
      cases hasEnded

/-- One more code is executed: its reply comes back, and the link is abreast behind it. -/
theorem Abreast.execute {link : Link} {conduct : Conduct} {past future : List (String × Frame.Sent)}
    {entry : String × Frame.Sent} (abreast : link.Abreast conduct past)
    (speaks : conduct.Speaks (past ++ entry :: future)) (scene : Scene) :
    ∃ link' scene', link.execute scene entry.1 = (.ok entry.2.reading, link', scene') ∧
      link'.Abreast conduct (past ++ [entry]) := by
  have running := abreast.running speaks (List.cons_ne_nil entry future)
  obtain ⟨sameConduct, delivered, read, -⟩ := abreast
  have turns : (link.told scene entry.1).turns.map Turn.octets =
      (past ++ [entry]).map fun entry => Frame.request entry.1 := by
    rw [told, List.map_append, delivered, List.map_append]
    rfl
  obtain ⟨heard, -⟩ := speaks.hears past entry future _ rfl turns
  have answer : link.answerTo scene entry.1 = conduct (link.told scene entry.1).turns := by
    rw [← sameConduct]
    rfl
  have stream : past.flatMap (fun entry => entry.2.octets) ++ (link.told scene entry.1).unread =
      conduct.written (link.told scene entry.1).turns := by
    have grown := conduct.written_concat link.turns
      { octets := Frame.request entry.1, last := false, files := scene.files }
    rw [← read, List.append_assoc] at grown
    rw [told, answer]
    exact grown.symm
  -- The reply stands first among what is unread, since the stream begins with the replies so far and it.
  obtain ⟨later, unread⟩ : ∃ later, (link.told scene entry.1).unread = entry.2.octets ++ later := by
    have begins := speaks.writes (past ++ [entry]) future _ (by simp) turns
    rw [← stream, List.flatMap_append, List.prefix_append_right_inj, List.flatMap_singleton] at begins
    obtain ⟨later, split⟩ := begins
    exact ⟨later, split.symm⟩
  refine ⟨{ link.told scene entry.1 with unread := later }, link.sceneAfter scene entry.1, ?_, ?_⟩
  · rw [execute_of_running running, answer, heard, unread, Frame.readReply_sent]
    rfl
  · refine ⟨sameConduct, turns, ?_, ?_⟩
    · rw [← stream, unread, List.flatMap_append, List.flatMap_singleton, List.append_assoc]
    · intro ended
      refine ⟨by simp, ?_⟩
      rw [← answer]
      exact ended

theorem Abreast.executeAll {link : Link} {conduct : Conduct} {past present future : List (String × Frame.Sent)}
    (abreast : link.Abreast conduct past) (speaks : conduct.Speaks (past ++ present ++ future)) (scene : Scene) :
    ∃ link' scene', link.executeAll scene (present.map (·.1)) =
        (present.map (fun entry => .ok entry.2.reading), link', scene') ∧
      link'.Abreast conduct (past ++ present) := by
  induction present generalizing link past scene with
  | nil => exact ⟨link, scene, rfl, by rwa [List.append_nil]⟩
  | cons entry present ih =>
    have first : conduct.Speaks (past ++ entry :: (present ++ future)) := by simpa using speaks
    have others : conduct.Speaks (past ++ [entry] ++ present ++ future) := by simpa using speaks
    obtain ⟨link₁, scene₁, executed, abreast₁⟩ := abreast.execute first scene
    obtain ⟨link₂, scene₂, executedAll, abreast₂⟩ := ih abreast₁ others scene₁
    refine ⟨link₂, scene₂, ?_, by simpa using abreast₂⟩
    rw [List.map_cons, Link.executeAll, executed]
    dsimp only
    rw [executedAll]
    rfl

/-- A conversation is transparent.  The server reads a row of requests as the codes that were sent, with nothing
left over.  And if a new process answers the codes by these replies, then at every point of the conversation the
codes sent so far have come back as the replies to them, with the outputs as text and the messages as they are;
they have been delivered as one row of requests; and the last of them has stopped reading where the next reply
begins. -/
theorem conversation_transparent (talk : List (String × Frame.Sent)) :
    Host.readRequests ((talk.map (·.1)).flatMap Frame.request) = some (talk.map (·.1)) ∧
    ∀ (conduct : Conduct) (scene : Scene), conduct.Speaks talk →
      ∀ past future, talk = past ++ future →
        ∃ link scene', Link.executeAll { conduct } scene (past.map (·.1)) =
            (past.map (fun entry => .ok entry.2.reading), link, scene') ∧
          link.turns.flatMap Turn.octets = (past.map (·.1)).flatMap Frame.request ∧
          past.flatMap (fun entry => entry.2.octets) ++ link.unread = conduct.written link.turns := by
  refine ⟨Host.readRequests_flatMap _, fun conduct scene speaks past future split => ?_⟩
  have new : Abreast { conduct } conduct [] := ⟨rfl, rfl, rfl, nofun⟩
  subst split
  obtain ⟨link, scene', executed, abreast⟩ := @Abreast.executeAll _ _ [] past future new speaks scene
  refine ⟨link, scene', executed, ?_, abreast.read⟩
  have delivered := abreast.delivered
  rw [List.nil_append] at delivered
  rw [List.flatMap_def, delivered, List.flatMap_map, List.flatMap_def]

/-- A process that writes all its replies as soon as it is asked for the first time. -/
def eagerConduct (talk : List (String × Frame.Sent)) : Conduct := fun turns =>
  ⟨if turns.length = 1 then talk.flatMap fun entry => entry.2.octets else [], [], .bare, none, 0⟩

theorem eagerConduct_written (talk : List (String × Frame.Sent)) (turns : List Turn) (t : Turn) :
    (eagerConduct talk).written (turns ++ [t]) = talk.flatMap fun entry => entry.2.octets := by
  induction turns using List.reverseRecOn generalizing t with
  | nil =>
    rw [Conduct.written_concat]
    rfl
  | append_singleton turns last ih =>
    have later : ((eagerConduct talk) (turns ++ [last] ++ [t])).stdout = [] := if_neg (by simp)
    rw [Conduct.written_concat, ih, later, List.append_nil]

theorem eagerConduct_speaks (talk : List (String × Frame.Sent)) : (eagerConduct talk).Speaks talk := by
  refine ⟨fun past future turns split delivered => ?_, fun _ _ _ _ _ _ => ⟨rfl, fun _ => rfl⟩⟩
  rcases List.eq_nil_or_concat turns with rfl | ⟨earlier, t, rfl⟩
  · obtain rfl : past = [] := List.map_eq_nil_iff.1 delivered.symm
    exact List.nil_prefix
  · rw [List.concat_eq_append, eagerConduct_written, split, List.flatMap_append]
    exact List.prefix_append _ _

/-- Two codes whose outputs look like replies and are no text, and an exception. -/
def imitatingTalk : List (String × Frame.Sent) :=
  [("a", ⟨[48, 10, 111, 107, 10, 0, 255], none, by decide, nofun, nofun⟩),
    ("é\n", ⟨[53, 10], some "ok err", by decide, by rintro _ ⟨⟩; decide, by rintro _ ⟨⟩; exact ⟨'r', rfl, rfl⟩⟩)]

theorem conversation_transparent_imitating :
    Host.readRequests ((imitatingTalk.map (·.1)).flatMap Frame.request) = some ["a", "é\n"] ∧
    ∃ link scene', Link.executeAll { conduct := eagerConduct imitatingTalk } { files := .bare } ["a", "é\n"] =
        ([.ok ⟨"0\nok\n\x00\uFFFD", none⟩, .ok ⟨"5\n", some "ok err"⟩], link, scene') ∧
      link.unread = [] := by
  obtain ⟨requests, replies⟩ := conversation_transparent imitatingTalk
  refine ⟨requests, ?_⟩
  obtain ⟨link, scene', executed, delivered, stream⟩ :=
    replies (eagerConduct imitatingTalk) { files := .bare } (eagerConduct_speaks _) imitatingTalk [] rfl
  have readings : imitatingTalk.map (fun entry => entry.2.reading) =
      [⟨"0\nok\n\x00\uFFFD", none⟩, ⟨"5\n", some "ok err"⟩] := by decide +kernel
  have outcomes : imitatingTalk.map (fun entry => (.ok entry.2.reading : Except LinkFault Frame.Reply)) =
      (imitatingTalk.map fun entry => entry.2.reading).map .ok := List.map_map.symm
  rw [outcomes, readings] at executed
  refine ⟨link, scene', executed, ?_⟩
  rcases List.eq_nil_or_concat link.turns with none | ⟨earlier, t, some⟩
  · rw [none] at delivered
    cases delivered
  · rw [some, List.concat_eq_append, eagerConduct_written] at stream
    exact List.append_right_eq_self.1 stream

end Link

end ToraCompiler
