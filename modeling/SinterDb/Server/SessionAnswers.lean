import SinterDb.Server.GroupCommit

namespace SinterDb

open Unicode

/-!
# How sessions answer

Whatever a session receives, it makes one answer with the number of the
request, and keeps it behind the others while it holds.
-/

namespace Session

/-- What a session has done when it has answered a request. -/
structure Answered
    (session : Session)
    (requestId : Nat)
    (hasPending : Bool)
    (later : Session)
    (events : List SessionEvent)
    (answer : Answer) : Prop where
  made : events.filterMap SessionEvent.made? = [answer]
  requestId : answer.requestId = requestId
  sent :
    events.filterMap SessionEvent.sent? =
      if later.holding || session.ended || session.destroyed then
        []
      else
        [answer]
  held :
    later.held =
      if later.holding then session.held ++ [answer] else session.held
  listens : later.onErrorReturns = session.onErrorReturns
  destroyed : later.destroyed = session.destroyed
  ended : session.ended = true → later.ended = true
  holds : session.holding = true → later.holding = true
  waits :
    session.holding = false → later.holding = true →
      events.any SessionEvent.isWaits = true
  durable :
    answer.toCommand = true → later.holding = false → hasPending = false

/-- A session takes a step that answers a request. -/
def AnswersIn
    (session : Session)
    (requestId : Nat)
    (hasPending : Bool)
    (step : Step) : Prop :=
  ∀ later events, step = .ok (later, events) →
    ∃ answer, session.Answered requestId hasPending later events answer

section Answering

variable
  {session : Session}
  {requestId : Nat}
  {hasPending toCommand : Bool}

/-- What is encoded has the number and the mark that it was given. -/
theorem encodeAnswer_ok
    {kind : MessageKind}
    {payload : Document}
    {answer : Answer}
    (encodes : encodeAnswer kind requestId payload toCommand = .ok answer) :
    answer.requestId = requestId ∧ answer.toCommand = toCommand := by
  unfold encodeAnswer at encodes
  split at encodes
  · cases encodes
  · cases encodes
    exact ⟨rfl, rfl⟩

/-- An answer that is held. -/
theorem Answered.ofHeld
    {later : Session}
    {answer : Answer}
    (holding : session.holding = true)
    (isNumber : answer.requestId = requestId)
    (held : later.held = session.held ++ [answer])
    (holds : later.holding = true)
    (listens : later.onErrorReturns = session.onErrorReturns)
    (destroyed : later.destroyed = session.destroyed)
    (ended : session.ended = true → later.ended = true) :
    session.Answered requestId hasPending later [.made answer] answer where
  made := rfl
  requestId := isNumber
  sent := by rw [holds, Bool.true_or, Bool.true_or, if_pos rfl]; rfl
  held := by rw [if_pos holds, held]
  listens := listens
  destroyed := destroyed
  ended := ended
  holds := fun _ => holds
  waits notHolding _ := by rw [holding] at notHolding; cases notHolding
  durable _ notHolding := by rw [holds] at notHolding; cases notHolding

/-- An answer that is written at once. -/
theorem Answered.ofWritten
    {later : Session}
    {answer : Answer}
    (notHolding : session.holding = false)
    (isNumber : answer.requestId = requestId)
    (held : later.held = session.held)
    (holds : later.holding = false)
    (listens : later.onErrorReturns = session.onErrorReturns)
    (destroyed : later.destroyed = session.destroyed)
    (ended : session.ended = true → later.ended = true)
    (durable : answer.toCommand = true → hasPending = false) :
    session.Answered requestId hasPending later
      (.made answer :: session.socketWrite answer) answer where
  made := by unfold socketWrite; split_ifs <;> rfl
  requestId := isNumber
  sent := by
    unfold socketWrite
    rw [holds, Bool.false_or]
    split_ifs <;> rfl
  held := by rw [held, holds]; rfl
  listens := listens
  destroyed := destroyed
  ended := ended
  holds isHolding := by rw [notHolding] at isHolding; cases isHolding
  waits _ isHolding := by rw [holds] at isHolding; cases isHolding
  durable isCommand _ := durable isCommand

/-- `write` makes its answer, and holds it or writes it. -/
theorem answered_write
    {answer : Answer}
    (isNumber : answer.requestId = requestId)
    (durable :
      answer.toCommand = true → session.holding = false →
        hasPending = false) :
    session.Answered requestId hasPending (session.write answer).1
      (session.write answer).2 answer := by
  unfold write
  by_cases holding : session.holding = true
  · rw [if_pos holding]
    exact .ofHeld holding isNumber rfl holding rfl rfl id
  · rw [if_neg holding]
    rw [Bool.not_eq_true] at holding
    exact .ofWritten holding isNumber rfl holding rfl rfl id
      fun isCommand => durable isCommand holding

/-- `send` answers. -/
theorem answersIn_send
    (kind : MessageKind)
    (payload : Document)
    (durable :
      toCommand = true → session.holding = false → hasPending = false) :
    session.AnswersIn requestId hasPending
      (session.send kind requestId payload toCommand) := by
  intro later events sends
  rcases Result.bind_eq_ok.mp sends with ⟨answer, encodes, writes⟩
  rcases encodeAnswer_ok encodes with ⟨isNumber, isMark⟩
  have same := Except.ok.inj writes
  have answered :=
    answered_write isNumber fun isCommand =>
      durable (isMark.symm.trans isCommand)
  rw [same] at answered
  exact ⟨answer, answered⟩

/-- `sendError` answers. -/
theorem answersIn_sendError
    (envelope : ErrorEnvelope)
    (durable :
      toCommand = true → session.holding = false → hasPending = false) :
    session.AnswersIn requestId hasPending
      (session.sendError requestId envelope toCommand) :=
  answersIn_send .error envelope.toDocument durable

/-- `sendError` answers when it closes the connection. -/
theorem answersIn_sendErrorAndClose
    (envelope : ErrorEnvelope) :
    session.AnswersIn requestId hasPending
      (session.sendErrorAndClose requestId envelope) := by
  intro later events sends
  rcases Result.bind_eq_ok.mp sends with ⟨answer, encodes, writes⟩
  rcases encodeAnswer_ok encodes with ⟨isNumber, isMark⟩
  refine ⟨answer, ?_⟩
  by_cases holding : session.holding = true
  · rw [if_pos holding] at writes
    cases Except.ok.inj writes
    exact .ofHeld holding isNumber rfl holding rfl rfl id
  · rw [if_neg holding] at writes
    cases Except.ok.inj writes
    rw [Bool.not_eq_true] at holding
    refine .ofWritten holding isNumber rfl holding rfl rfl (fun _ => rfl) ?_
    intro isCommand
    rw [isMark] at isCommand
    cases isCommand

/-- An error that is reported first changes nothing. -/
theorem Answered.failed
    {later : Session}
    {events : List SessionEvent}
    {answer : Answer}
    (answered :
      session.Answered requestId hasPending later events answer) :
    session.Answered requestId hasPending later (.failed :: events) answer where
  made := answered.made
  requestId := answered.requestId
  sent := answered.sent
  held := answered.held
  listens := answered.listens
  destroyed := answered.destroyed
  ended := answered.ended
  holds := answered.holds
  waits := answered.waits
  durable := answered.durable

/-- `failCommand` answers. -/
theorem answersIn_failCommand
    (durable : session.holding = false → hasPending = false) :
    session.AnswersIn requestId hasPending
      (session.failCommand requestId) := by
  intro later events fails
  unfold failCommand at fails
  split_ifs at fails
  rcases Result.bind_eq_ok.mp fails with ⟨⟨next, sent⟩, sends, same⟩
  have answers :
      session.AnswersIn requestId hasPending
        (session.sendError requestId internalFailure true) :=
    answersIn_sendError internalFailure fun _ => durable
  rcases answers next sent sends with ⟨answer, answered⟩
  cases Except.ok.inj same
  exact ⟨answer, answered.failed⟩

/-- A command is answered. -/
theorem answersIn_answerCommand
    (reply : Reply)
    (durable : session.holding = false → hasPending = false) :
    session.AnswersIn requestId hasPending
      (session.answerCommand requestId reply) := by
  unfold answerCommand
  rcases reply with (error | error) | value
  · exact answersIn_sendError error.envelope fun _ => durable
  · exact answersIn_failCommand durable
  · dsimp only
    cases sends :
        session.send .result requestId [(utf16 "value", .document value)]
          true with
    | ok sent =>
        have answers :
            session.AnswersIn requestId hasPending
              (session.send .result requestId
                [(utf16 "value", .document value)] true) :=
          answersIn_send _ _ fun _ => durable
        rw [sends] at answers
        exact answers
    | error error =>
        dsimp only
        split_ifs
        · exact answersIn_sendError resultTooLarge fun _ => durable
        · exact answersIn_failCommand durable

/-- `handleCommand` holds its answer when writes are waiting. -/
theorem answersIn_handleCommand
    (reply : Reply) :
    session.AnswersIn requestId hasPending
      (session.handleCommand requestId reply hasPending) := by
  intro later events handles
  unfold handleCommand holdUntilDurable at handles
  by_cases goesOn : (session.holding || !hasPending) = true
  · rw [if_pos goesOn] at handles
    rcases Result.bind_eq_ok.mp handles with ⟨⟨next, sent⟩, answers, same⟩
    have durable : session.holding = false → hasPending = false := by
      intro notHolding
      rw [notHolding, Bool.false_or, Bool.not_eq_true'] at goesOn
      exact goesOn
    rcases answersIn_answerCommand reply durable next sent answers with
      ⟨answer, answered⟩
    cases Except.ok.inj same
    exact ⟨answer, answered⟩
  · rw [if_neg goesOn] at handles
    rcases Result.bind_eq_ok.mp handles with ⟨⟨next, sent⟩, answers, same⟩
    have isHeld :
        ({ session with holding := true } : Session).AnswersIn requestId
          hasPending
          (({ session with holding := true } : Session).answerCommand
            requestId reply) :=
      answersIn_answerCommand reply fun notHolding => nomatch notHolding
    rcases isHeld next sent answers with ⟨answer, answered⟩
    have holding : next.holding = true := answered.holds rfl
    cases Except.ok.inj same
    refine ⟨answer, ?_⟩
    exact
      { made := answered.made
        requestId := answered.requestId
        sent := answered.sent
        held := answered.held
        listens := answered.listens
        destroyed := answered.destroyed
        ended := answered.ended
        holds := fun _ => holding
        waits := fun _ _ => rfl
        durable := fun _ notHolding => by
          rw [holding] at notHolding
          cases notHolding }

/-- The handshake is answered. -/
theorem answersIn_handleHandshake
    (message : DecodedMessage) :
    session.AnswersIn message.requestId hasPending
      (session.handleHandshake message) := by
  unfold handleHandshake
  split_ifs
  · exact answersIn_sendErrorAndClose _
  · exact answersIn_sendErrorAndClose _
  · exact answersIn_sendErrorAndClose _
  · intro later events handles
    rcases Result.bind_eq_ok.mp handles with ⟨⟨next, sent⟩, sends, same⟩
    have answers :
        session.AnswersIn message.requestId hasPending
          (session.send .handshake message.requestId serverHandshake
            false) :=
      answersIn_send _ _ fun isCommand => nomatch isCommand
    rcases answers next sent sends with ⟨answer, answered⟩
    cases Except.ok.inj same
    exact ⟨answer, answered.made, answered.requestId, answered.sent,
      answered.held, answered.listens, answered.destroyed, answered.ended,
      answered.holds, answered.waits, answered.durable⟩

/-- Every message is answered, by its number. -/
theorem answersIn_handleMessage
    (message : DecodedMessage)
    (receivedAt : TimeValue)
    (reply : Reply) :
    session.AnswersIn message.requestId hasPending
      (session.handleMessage message receivedAt reply hasPending) := by
  unfold handleMessage
  split_ifs with isZero
  · rw [isZero]
    exact answersIn_sendErrorAndClose _
  · exact answersIn_handleHandshake message
  · unfold handleReady
    cases message.kind with
    | ping => exact answersIn_send _ _ fun isCommand => nomatch isCommand
    | command => exact answersIn_handleCommand reply
    | handshake =>
        exact answersIn_sendError _ fun isCommand => nomatch isCommand
    | result =>
        exact answersIn_sendError _ fun isCommand => nomatch isCommand
    | streamItem =>
        exact answersIn_sendError _ fun isCommand => nomatch isCommand
    | streamEnd =>
        exact answersIn_sendError _ fun isCommand => nomatch isCommand
    | error =>
        exact answersIn_sendError _ fun isCommand => nomatch isCommand

end Answering

/-- What a session has done when it was released. -/
structure Released
    (session : Session)
    (failed : Bool)
    (later : Session)
    (events : List SessionEvent) : Prop where
  made : events.filterMap SessionEvent.made? = []
  sent :
    events.filterMap SessionEvent.sent? =
      if session.ended || session.destroyed || failed then
        []
      else
        session.held
  held : later.held = []
  holding : later.holding = false
  waits : events.any SessionEvent.isWaits = false
  listens : later.onErrorReturns = session.onErrorReturns
  ended : session.ended = true → later.ended = true
  destroyed : session.destroyed = true → later.destroyed = true
  fails :
    failed = true → session.ended = false → later.destroyed = true

/-- The answers of a session that are written when it is released. -/
theorem filterMap_map_sent
    (held : List Answer) :
    (held.map SessionEvent.sent).filterMap SessionEvent.made? = [] ∧
      (held.map SessionEvent.sent).filterMap SessionEvent.sent? = held ∧
      (held.map SessionEvent.sent).any SessionEvent.isWaits = false := by
  induction held with
  | nil =>
      exact ⟨rfl, rfl, rfl⟩
  | cons answer rest inductionHypothesis =>
      rcases inductionHypothesis with ⟨made, sent, waits⟩
      exact ⟨made, congrArg (answer :: ·) sent, waits⟩

/-- `release` writes what was held, or drops it. -/
theorem released_release
    (session : Session)
    (failed : Bool) :
    session.Released failed (session.release failed).1
      (session.release failed).2 := by
  rcases filterMap_map_sent session.held with ⟨made, sent, waits⟩
  unfold release
  cases ended : session.ended <;> cases destroyed : session.destroyed <;>
    cases failed <;>
      simp only [Bool.or_false, Bool.or_true, Bool.false_eq_true, ↓reduceIte] <;>
        exact ⟨by first | rfl | exact made,
          by simp [ended, destroyed, sent, SessionEvent.sent?],
          rfl, rfl, by first | rfl | exact waits, rfl,
          by simp [ended], by simp [destroyed], by simp [ended]⟩

end Session

end SinterDb
