import SinterDb.Driver.FindCursor

namespace SinterDb.Driver

open Unicode

/-!
# Closing a cursor

`close` empties the buffer and gives the cursor up, but a reply that arrives
later fills both again.  Closing is final in the runs in which no such reply
arrives and no reply replaces a live cursor by another one.
-/

/-- A `getMore` reports the cursor it was sent for, or that it is exhausted. -/
def Honest (session : Session) : Event → Prop
  | .reply index outcome =>
      ∀ call cursorId value batch,
        session.calls[index]? = some call →
        call.phase = .fetching (.getMore cursorId) →
        outcome = .ok value →
        parseBatch value = .ok batch →
          batch.cursorId = none ∨ batch.cursorId = some cursorId
  | _ => True

/--
A reply that arrives after `close` brings no document and no live cursor, and
while a cursor is live only its own replies arrive.
-/
def InTime (session : Session) : Event → Prop
  | .reply index outcome =>
      ∀ call command value batch,
        session.calls[index]? = some call →
        call.phase = .fetching command →
        outcome = .ok value →
        parseBatch value = .ok batch →
          (session.cursor.closed = true →
            batch.documents = [] ∧ batch.cursorId = none) ∧
          ∀ cursorId,
            session.cursor.cursorId = .live cursorId →
              command = .getMore cursorId
  | _ => True

/-- A cursor ID was reported as exhausted in one of the replies. -/
def ReportedExhausted
    (cursorId : Nat)
    (replies : List (CursorCommand × CursorBatch)) : Prop :=
  ∃ reply ∈ replies,
    reply.1 = .getMore cursorId ∧ reply.2.cursorId = none

/-- What it means that closing a cursor is final. -/
structure CloseIsFinal (session : Session) : Prop where
  reads :
    ∀ call ∈ session.calls, call.afterClose = true →
      call.phase ≠ .settled (.found true) ∧
        ∀ document, call.phase ≠ .settled (.document (some document))
  buffer :
    session.cursor.closed = true → ¬ session.InFlight →
      session.cursor.buffer = []
  released :
    session.cursor.closed = true → ¬ session.InFlight →
      ∀ earlier reply later cursorId,
        session.received = earlier ++ reply :: later →
        reply.2.cursorId = some cursorId →
          ReportedExhausted cursorId later ∨
            .closeCursor cursorId ∈ session.sent

/-- The phases that a call reaches when it starts after `close`. -/
def Harmless (phase : Phase) : Prop :=
  phase = .settled (.found false) ∨ phase = .answered false ∨
    phase = .settled (.document none) ∨ phase = .settled .finished

/-- What holds in every state of a run in which replies are in time. -/
structure Tidy (session : Session) : Prop where
  closed :
    session.cursor.closed = true →
      session.cursor.buffer = [] ∧ session.cursor.cursorId = .exhausted
  harmless :
    ∀ call ∈ session.calls, call.afterClose = true → Harmless call.phase
  accounted :
    ∀ earlier reply later cursorId,
      session.received = earlier ++ reply :: later →
      reply.2.cursorId = some cursorId →
        ReportedExhausted cursorId later ∨
          session.cursor.cursorId = .live cursorId ∨
          .closeCursor cursorId ∈ session.sent

/-- A tidy cursor is closed for good. -/
theorem Tidy.closeIsFinal
    {session : Session}
    (tidy : Tidy session) :
    CloseIsFinal session where
  reads call member afterClose := by
    rcases tidy.harmless call member afterClose with
      same | same | same | same <;> simp [same]
  buffer closed _ := (tidy.closed closed).1
  released closed _ earlier reply later cursorId split isLive := by
    obtain exhausted | held | sent :=
      tidy.accounted earlier reply later cursorId split isLive
    · exact .inl exhausted
    · rw [(tidy.closed closed).2] at held
      cases held
    · exact .inr sent

/-- A new cursor is tidy. -/
theorem tidy_start : Tidy Session.start where
  closed := nofun
  harmless := nofun
  accounted earlier reply later cursorId split := by
    simp [Session.start] at split

/-- A part of a list with one more entry behind it. -/
theorem split_concat
    {α : Type}
    {entries earlier later : List α}
    {last entry : α}
    (split : entries ++ [last] = earlier ++ entry :: later) :
    (later = [] ∧ entry = last) ∨
      ∃ rest, later = rest ++ [last] ∧ entries = earlier ++ entry :: rest := by
  obtain rfl | ⟨rest, final, rfl⟩ := later.eq_nil_or_concat
  · obtain ⟨-, same⟩ := List.append_inj' split rfl
    exact .inl ⟨rfl, (List.cons.inj same).1.symm⟩
  · rw [List.concat_eq_append, ← List.cons_append,
      ← List.append_assoc] at split
    obtain ⟨rfl, same⟩ := List.append_inj' split rfl
    refine .inr ⟨rest, ?_, rfl⟩
    rw [List.concat_eq_append, (List.cons.inj same).1]

section Steps

variable {session : Session} {index : Nat} {old : Call}

/-- Phases that are harmless after `close` leave the calls harmless. -/
theorem Tidy.harmless_setPhase
    (tidy : Tidy session)
    (isOld : session.calls[index]? = some old)
    {phase : Phase}
    (stays : Harmless old.phase → Harmless phase) :
    ∀ call ∈ (session.setPhase index phase).calls,
      call.afterClose = true → Harmless call.phase := by
  intro call member afterClose
  obtain before | rfl := mem_setPhase isOld member
  · exact tidy.harmless call before afterClose
  · exact stays (tidy.harmless old (List.mem_of_getElem? isOld) afterClose)

/-- More commands sent leave every cursor ID accounted for. -/
theorem Tidy.accounted_append
    (tidy : Tidy session)
    (commands : List CursorCommand) :
    ∀ earlier reply later cursorId,
      session.received = earlier ++ reply :: later →
      reply.2.cursorId = some cursorId →
        ReportedExhausted cursorId later ∨
          session.cursor.cursorId = .live cursorId ∨
          .closeCursor cursorId ∈ session.sent ++ commands := by
  intro earlier reply later cursorId split isLive
  obtain exhausted | held | sent :=
    tidy.accounted earlier reply later cursorId split isLive
  · exact .inl exhausted
  · exact .inr (.inl held)
  · exact .inr (.inr (List.mem_append_left commands sent))

/-- A read that starts after `close` is answered at once. -/
theorem Tidy.check_closed
    (tidy : Tidy session)
    (closed : session.cursor.closed = true) :
    session.cursor.check = .answer false := by
  rw [FindCursor.check, if_pos (tidy.closed closed).1, if_pos closed]

/-- A read that starts leaves a cursor tidy. -/
theorem Tidy.startRead
    (tidy : Tidy session)
    {kind : CallKind}
    (isRead : kind ≠ .close) :
    Tidy (session.startRead kind) where
  closed := tidy.closed
  harmless call member afterClose := by
    rcases List.mem_append.mp member with before | new
    · exact tidy.harmless call before afterClose
    · obtain rfl := List.mem_singleton.mp new
      rw [tidy.check_closed afterClose]
      cases kind with
      | hasNext =>
          exact .inl rfl
      | next =>
          exact .inr (.inl rfl)
      | close =>
          exact absurd rfl isRead
  accounted := tidy.accounted_append _

/-- `close` leaves a cursor tidy. -/
theorem Tidy.startClose
    (tidy : Tidy session) :
    Tidy session.startClose := by
  unfold Session.startClose
  cases closed : session.cursor.closed with
  | true =>
      refine ⟨tidy.closed, ?_, tidy.accounted⟩
      intro call member afterClose
      rcases List.mem_append.mp member with before | new
      · exact tidy.harmless call before afterClose
      · obtain rfl := List.mem_singleton.mp new
        exact .inr (.inr (.inr rfl))
  | false =>
      have harmless :
          ∀ phase, ∀ call ∈ session.calls ++
              [{ kind := .close, afterClose := false, phase := phase }],
            call.afterClose = true → Harmless call.phase := by
        intro phase call member afterClose
        rcases List.mem_append.mp member with before | new
        · exact tidy.harmless call before afterClose
        · obtain rfl := List.mem_singleton.mp new
          cases afterClose
      dsimp only [Bool.false_eq_true, if_false]
      cases held : session.cursor.cursorId with
      | live cursorId =>
          refine ⟨fun _ => ⟨rfl, rfl⟩, harmless _, ?_⟩
          intro earlier reply later other split isLive
          obtain exhausted | isHeld | sent :=
            tidy.accounted earlier reply later other split isLive
          · exact .inl exhausted
          · rw [held] at isHeld
            obtain rfl := CursorHandle.live.inj isHeld
            exact .inr (.inr (by simp))
          · exact .inr (.inr (List.mem_append_left _ sent))
      | _ =>
          refine ⟨fun _ => ⟨rfl, rfl⟩, harmless _, ?_⟩
          intro earlier reply later other split isLive
          obtain exhausted | isHeld | sent :=
            tidy.accounted earlier reply later other split isLive
          · exact .inl exhausted
          · rw [held] at isHeld
            cases isHeld
          · exact .inr (.inr sent)

/-- A batch that arrives in time leaves a cursor tidy. -/
theorem Tidy.accept
    (tidy : Tidy session)
    {command : CursorCommand}
    {batch : CursorBatch}
    (isOld : session.calls[index]? = some old)
    (fetches : old.phase = .fetching command)
    (honest :
      ∀ cursorId, command = .getMore cursorId →
        batch.cursorId = none ∨ batch.cursorId = some cursorId)
    (late :
      session.cursor.closed = true →
        batch.documents = [] ∧ batch.cursorId = none)
    (own :
      ∀ cursorId, session.cursor.cursorId = .live cursorId →
        command = .getMore cursorId) :
    Tidy
      { session.setPhase index .fetched with
        cursor := session.cursor.accept batch
        received := session.received ++ [(command, batch)] } where
  closed closed := by
    obtain ⟨noDocuments, null⟩ := late closed
    have empty := (tidy.closed closed).1
    refine ⟨?_, ?_⟩
    · rw [FindCursor.accept, empty, noDocuments]
      rfl
    · rw [FindCursor.accept, CursorHandle.ofBatch, null]
  harmless := by
    refine tidy.harmless_setPhase isOld ?_
    rw [fetches]
    rintro (same | same | same | same) <;> cases same
  accounted earlier reply later cursorId split isLive := by
    obtain ⟨rfl, rfl⟩ | ⟨rest, rfl, before⟩ := split_concat split
    · refine .inr (.inl ?_)
      rw [FindCursor.accept, CursorHandle.ofBatch, isLive]
    · obtain ⟨other, member, exhausted⟩ | held | sent :=
        tidy.accounted earlier reply rest cursorId before isLive
      · exact .inl ⟨other, List.mem_append_left _ member, exhausted⟩
      · have isOwn := own cursorId held
        obtain null | same := honest cursorId isOwn
        · exact .inl ⟨(command, batch), by simp, isOwn, null⟩
        · refine .inr (.inl ?_)
          rw [FindCursor.accept, CursorHandle.ofBatch, same]
      · exact .inr (.inr sent)

/-- A call that is settled or answered without its cursor leaves it tidy. -/
theorem Tidy.setPhase
    (tidy : Tidy session)
    (isOld : session.calls[index]? = some old)
    {phase : Phase}
    (stays : Harmless old.phase → Harmless phase) :
    Tidy (session.setPhase index phase) where
  closed := tidy.closed
  harmless := tidy.harmless_setPhase isOld stays
  accounted := tidy.accounted

/-- A reply that is in time leaves a cursor tidy. -/
theorem Tidy.receive
    (tidy : Tidy session)
    (isOld : session.calls[index]? = some old)
    {outcome : Except DriverError DocumentValue}
    (honest : Honest session (.reply index outcome))
    (inTime : InTime session (.reply index outcome)) :
    Tidy (session.receive index old outcome) := by
  unfold Session.receive
  split
  · rename_i command fetches
    have notHarmless : Harmless old.phase → ∀ phase, Harmless phase := by
      rw [fetches]
      rintro (same | same | same | same) <;> cases same
    split
    · exact tidy.setPhase isOld fun harmless => notHarmless harmless _
    · rename_i batch parses
      obtain ⟨value, isValue, parses⟩ := Result.bind_eq_ok.mp parses
      obtain ⟨late, own⟩ :=
        inTime old command value batch isOld fetches isValue parses
      refine tidy.accept isOld fetches ?_ late own
      rintro cursorId rfl
      exact honest old cursorId value batch isOld fetches isValue parses
  · rename_i cursorId closes
    have notHarmless : Harmless old.phase → ∀ phase, Harmless phase := by
      rw [closes]
      rintro (same | same | same | same) <;> cases same
    split
    · exact tidy.setPhase isOld fun harmless => notHarmless harmless _
    · exact tidy.setPhase isOld fun harmless => notHarmless harmless _
  · exact tidy

/-- A continuation leaves a cursor tidy. -/
theorem Tidy.goOn
    (tidy : Tidy session)
    (isOld : session.calls[index]? = some old) :
    Tidy (session.goOn index old) := by
  unfold Session.goOn
  split
  · rename_i fetched
    refine ⟨tidy.closed, ?_, tidy.accounted_append _⟩
    refine tidy.harmless_setPhase isOld ?_
    rw [fetched]
    rintro (same | same | same | same) <;> cases same
  · exact tidy.setPhase isOld fun _ => .inr (.inr (.inl rfl))
  · rename_i answered
    refine ⟨?_, ?_, tidy.accounted⟩
    · intro closed
      obtain ⟨empty, exhausted⟩ := tidy.closed closed
      refine ⟨?_, exhausted⟩
      dsimp only
      rw [empty]
      rfl
    · refine tidy.harmless_setPhase isOld ?_
      rw [answered]
      rintro (same | same | same | same) <;> cases same
  · exact tidy

end Steps

/-- Every event that is in time leaves a cursor tidy. -/
theorem Tidy.step
    {session : Session}
    (tidy : Tidy session)
    {event : Event}
    (honest : Honest session event)
    (inTime : InTime session event) :
    Tidy (session.step event) := by
  cases event with
  | call kind =>
      cases kind with
      | close =>
          exact tidy.startClose
      | hasNext =>
          exact tidy.startRead nofun
      | next =>
          exact tidy.startRead nofun
  | reply index outcome =>
      rw [Session.step]
      split
      · rename_i call isCall
        exact tidy.receive isCall honest inTime
      · exact tidy
  | resume index =>
      rw [Session.step]
      split
      · rename_i call isCall
        exact tidy.goOn isCall
      · exact tidy

/-- A run with a server that reports its cursors leaves a cursor tidy. -/
theorem Tidy.run
    {session : Session}
    (tidy : Tidy session)
    {events : List Event}
    (honest : EachStep Honest session events)
    (inTime : EachStep InTime session events) :
    Tidy (session.run events) := by
  induction events generalizing session with
  | nil =>
      exact tidy
  | cons event events inductionHypothesis =>
      exact inductionHypothesis (tidy.step honest.1 inTime.1) honest.2 inTime.2

/--
In every run in which no reply brings documents or a live cursor after `close`
and while a cursor is live only its own replies arrive, closing is final.
-/
theorem close_is_final_in_time
    {events : List Event}
    (honest : EachStep Honest .start events)
    (inTime : EachStep InTime .start events) :
    CloseIsFinal (Session.start.run events) :=
  (tidy_start.run honest inTime).closeIsFinal

/-- A document with an id and nothing else. -/
def bareDocument (byte : UInt8) : Document :=
  [(utf16 "_id",
    .customId ⟨List.replicate 16 byte, CustomId.length_repeated byte⟩)]

/-- A reply with two documents and a live cursor. -/
def twoDocuments : DocumentValue :=
  .document (toBatchDocument
    { cursorId := some 7, documents := [bareDocument 1, bareDocument 2] })

/-- A cursor that is closed behind its first document. -/
theorem close_is_final_in_time_sequential :
    let events : List Event :=
      [.call .next, .reply 0 (.ok twoDocuments), .resume 0, .resume 0,
        .call .close, .call .next, .resume 2]
    CloseIsFinal (Session.start.run events) ∧
      (Session.start.run events).sent = [.find, .closeCursor 7] := by
  intro events
  have received :
      (Session.start.run events).sent = [.find, .closeCursor 7] := by
    decide +kernel
  refine ⟨close_is_final_in_time ?_ ?_, received⟩
  · refine ⟨trivial, ?_, trivial, trivial, trivial, trivial, trivial, trivial⟩
    intro call cursorId value batch isCall fetches
    cases isCall
    cases fetches
  · refine ⟨trivial, ?_, trivial, trivial, trivial, trivial, trivial, trivial⟩
    intro call command value batch _ _ _ _
    exact ⟨nofun, nofun⟩

/-- The reply to a fetch that was under way fills a closed cursor again. -/
theorem not_close_is_final_under_way :
    ¬ ∀ events,
      EachStep Honest .start events →
        CloseIsFinal (Session.start.run events) := by
  intro claimed
  have final :=
    claimed
      [.call .next, .call .close, .reply 0 (.ok twoDocuments), .resume 0,
        .resume 0, .call .next, .resume 2]
      (by
        refine ⟨trivial, trivial, ?_, trivial, trivial, trivial, trivial,
          trivial⟩
        intro call cursorId value batch isCall fetches
        cases isCall
        cases fetches)
  have returned :
      (⟨.next, true, .settled (.document (some (bareDocument 2)))⟩ : Call) ∈
        (Session.start.run
          [.call .next, .call .close, .reply 0 (.ok twoDocuments), .resume 0,
            .resume 0, .call .next, .resume 2]).calls := by
    decide +kernel
  exact (final.reads _ returned rfl).2 _ rfl

end SinterDb.Driver
