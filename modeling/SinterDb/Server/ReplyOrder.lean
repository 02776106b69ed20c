import SinterDb.Server.Durability
import SinterDb.Server.SessionErrors

namespace SinterDb

open Wal

/-!
# One reply for every request, in order

A session makes one reply for every request that it has taken, in the order of
the requests.  As long as its socket lives it has written the first of them and
holds the others, and it holds replies only while a flush is scheduled that
releases them.  A request is left without a reply only when the process ends
over it, for which there are few reasons.
-/

namespace SinterServer

variable
  {server : SinterServer}
  {left : List Nat}
  {index : Nat}

/-- A session has answered the requests that it has taken, in order; the process
may have ended over the last one. -/
def AnswersAsked (server : SinterServer) (index : Nat) : Prop :=
  server.askedBy index = (server.madeBy index).map Answer.requestId ∨
    server.crashed = true ∧
      ∃ requestId,
        server.askedBy index =
          (server.madeBy index).map Answer.requestId ++ [requestId]

/-- What a session has answered so far; the callbacks that are left will
release it if it holds its replies. -/
structure Follows
    (server : SinterServer)
    (left : List Nat)
    (index : Nat)
    (session : Session) : Prop where
  listens : session.onErrorReturns = server.hasErrorListener
  asked : server.AnswersAsked index
  sent : server.sentBy index <+: server.madeBy index
  alive :
    session.ended = false → session.destroyed = false →
      server.madeBy index = server.sentBy index ++ session.held
  released : session.holding = false → session.held = []
  waits :
    session.holding = true → server.crashed = false →
      index ∈ server.committer.waiting ++ left

/-- Every session has answered its requests in order. -/
structure InOrder (server : SinterServer) (left : List Nat) : Prop where
  follows :
    ∀ index session, server.sessions[index]? = some session →
      server.Follows left index session
  unknown :
    ∀ index, server.sessions.length ≤ index →
      server.madeBy index = [] ∧ server.sentBy index = [] ∧
        server.askedBy index = []
  scheduled :
    server.committer.waiting ≠ [] → server.committer.scheduled = true

/-- What is seen of the sessions is the same. -/
structure SameViews (server later : SinterServer) : Prop where
  listener : later.hasErrorListener = server.hasErrorListener
  made : ∀ index, later.madeBy index = server.madeBy index
  sent : ∀ index, later.sentBy index = server.sentBy index
  asked : ∀ index, later.askedBy index = server.askedBy index

/-- A session goes on as it was, apart from what its socket is told. -/
structure Continues (session later : Session) : Prop where
  listens : later.onErrorReturns = session.onErrorReturns
  held : later.held = session.held
  holding : later.holding = session.holding
  ended : session.ended = true → later.ended = true
  destroyed : session.destroyed = true → later.destroyed = true

/-- A server where a session has taken one more request, which it has not
answered yet. -/
structure Takes
    (server later : SinterServer)
    (index requestId : Nat) : Prop where
  listener : later.hasErrorListener = server.hasErrorListener
  sessions : later.sessions = server.sessions
  committer : later.committer = server.committer
  crashed : later.crashed = server.crashed
  made : ∀ other, later.madeBy other = server.madeBy other
  sent : ∀ other, later.sentBy other = server.sentBy other
  asked :
    ∀ other,
      later.askedBy other =
        server.askedBy other ++ if index = other then [requestId] else []

/-- A callback that is waited for still comes, unless the process has ended. -/
def StillCalled
    (server later : SinterServer)
    (left others : List Nat)
    (index : Nat) : Prop :=
  later.crashed = false →
    server.crashed = false ∧
      (index ∈ server.committer.waiting ++ left →
        index ∈ later.committer.waiting ++ others)

section Steps

variable
  {later : SinterServer}
  {others : List Nat}

/-- A flag that stays set was not set before when it is not set now. -/
theorem unset_of_stays
    {before after : Bool}
    (stays : before = true → after = true)
    (isUnset : after = false) :
    before = false := by
  cases before with
  | false => rfl
  | true => exact (stays rfl).symm.trans isUnset

/-- A process that has ended stays so. -/
theorem StillCalled.crashed
    (called : StillCalled server later left others index)
    (isCrashed : server.crashed = true) :
    later.crashed = true := by
  by_contra running
  rw [Bool.not_eq_true] at running
  exact Bool.noConfusion (isCrashed.symm.trans (called running).1)

/-- What was answered stays so when nothing is taken or answered. -/
theorem AnswersAsked.stays
    (answers : server.AnswersAsked index)
    (made : later.madeBy index = server.madeBy index)
    (asked : later.askedBy index = server.askedBy index)
    (crashed : server.crashed = true → later.crashed = true) :
    later.AnswersAsked index := by
  unfold AnswersAsked at answers ⊢
  rw [made, asked]
  exact answers.imp_right (And.imp_left crashed)

/-- A session that takes no step. -/
theorem Follows.continues
    {session next : Session}
    (follows : server.Follows left index session)
    (listener : later.hasErrorListener = server.hasErrorListener)
    (made : later.madeBy index = server.madeBy index)
    (sent : later.sentBy index = server.sentBy index)
    (asked : later.askedBy index = server.askedBy index)
    (continues : Continues session next)
    (called : StillCalled server later left others index) :
    later.Follows others index next where
  listens := by rw [continues.listens, listener]; exact follows.listens
  asked := follows.asked.stays made asked called.crashed
  sent := by rw [made, sent]; exact follows.sent
  alive notEnded notDestroyed := by
    rw [made, sent, continues.held]
    exact follows.alive (unset_of_stays continues.ended notEnded)
      (unset_of_stays continues.destroyed notDestroyed)
  released notHolding := by
    rw [continues.held]
    exact follows.released (continues.holding.symm.trans notHolding)
  waits isHolding notCrashed := by
    rcases called notCrashed with ⟨running, stays⟩
    exact stays
      (follows.waits (continues.holding.symm.trans isHolding) running)

/-- A server whose sessions take no step. -/
theorem InOrder.continues
    (inOrder : server.InOrder left)
    (views : SameViews server later)
    (sessions :
      ∀ (index : Nat) (next : Session),
        later.sessions[index]? = some next →
        ∃ session,
          server.sessions[index]? = some session ∧ Continues session next)
    (count : server.sessions.length ≤ later.sessions.length)
    (called :
      ∀ (index : Nat) (session : Session),
        server.sessions[index]? = some session →
          StillCalled server later left others index)
    (scheduled :
      later.committer.waiting ≠ [] → later.committer.scheduled = true) :
    later.InOrder others where
  follows index next isThere := by
    rcases sessions index next isThere with ⟨session, wasThere, continues⟩
    exact (inOrder.follows index session wasThere).continues
      views.listener (views.made index) (views.sent index) (views.asked index) continues
      (called index session wasThere)
  unknown index outside := by
    rw [views.made, views.sent, views.asked]
    exact inOrder.unknown index (count.trans outside)
  scheduled := scheduled

/-- A session continues when it does nothing. -/
theorem Continues.refl
    (session : Session) :
    Continues session session :=
  ⟨rfl, rfl, rfl, id, id⟩

/-- One session is replaced by one that continues it. -/
theorem continues_set
    {sessions : List Session}
    {session changed : Session}
    (isThere : sessions[index]? = some session)
    (continues : Continues session changed)
    (other : Nat)
    (next : Session)
    (isNext : (sessions.set index changed)[other]? = some next) :
    ∃ session, sessions[other]? = some session ∧ Continues session next := by
  rw [List.getElem?_set] at isNext
  by_cases same : index = other
  · subst same
    rw [if_pos rfl] at isNext
    split_ifs at isNext
    cases isNext
    exact ⟨session, isThere, continues⟩
  · rw [if_neg same] at isNext
    exact ⟨next, isNext, .refl next⟩

/-- What a session does is seen of it, and of no other. -/
theorem views_settle
    (server : SinterServer)
    (index : Nat)
    (session : Session)
    (events : List SessionEvent)
    (other : Nat) :
    (server.settle index session events).madeBy other =
        server.madeBy other ++
          (if index = other then events.filterMap SessionEvent.made?
            else []) ∧
      (server.settle index session events).sentBy other =
        server.sentBy other ++
          (if index = other then events.filterMap SessionEvent.sent?
            else []) ∧
      (server.settle index session events).askedBy other =
        server.askedBy other := by
  unfold madeBy sentBy askedBy SinterServer.settle
  dsimp only
  rw [List.filterMap_append, List.filterMap_append, List.filterMap_append,
    made_ofSession, sent_ofSession, asked_ofSession, List.append_nil]
  exact ⟨rfl, rfl, rfl⟩

/-- A callback that is waited for still comes after a step of a session. -/
theorem stillCalled_settle
    (server : SinterServer)
    (index : Nat)
    (session : Session)
    (events : List SessionEvent)
    (other : Nat) :
    StillCalled server (server.settle index session events) left left
      other := by
  intro notCrashed
  refine ⟨(Bool.or_eq_false_iff.mp notCrashed).1, ?_⟩
  intro member
  unfold SinterServer.settle
  dsimp only
  split_ifs
  · unfold GroupCommitter.whenDurable
    simp only [List.mem_append, List.mem_singleton] at member ⊢
    tauto
  · exact member

/-- A session that has made an answer to the request that it has taken still
follows. -/
theorem Follows.answered
    {session next : Session}
    {requestId : Nat}
    {hasPending : Bool}
    {events : List SessionEvent}
    {answer : Answer}
    (follows : server.Follows left index session)
    (running : server.crashed = false)
    (answered : session.Answered requestId hasPending next events answer)
    (listener : later.hasErrorListener = server.hasErrorListener)
    (made : later.madeBy index = server.madeBy index ++ [answer])
    (sent :
      later.sentBy index =
        server.sentBy index ++ events.filterMap SessionEvent.sent?)
    (asked : later.askedBy index = server.askedBy index ++ [requestId])
    (called : StillCalled server later left left index)
    (waits :
      events.any SessionEvent.isWaits = true → later.crashed = false →
        index ∈ later.committer.waiting ++ left) :
    later.Follows left index next := by
  have nothingHeld :
      next.holding = false →
        session.held = [] ∧ next.held = [] := by
    intro notHolding
    have none :=
      follows.released (unset_of_stays answered.holds notHolding)
    have same := answered.held
    rw [notHolding, if_neg Bool.false_ne_true] at same
    exact ⟨none, same.trans none⟩
  have alive :
      next.ended = false → next.destroyed = false →
        server.madeBy index = server.sentBy index ++ session.held := by
    intro notEnded notDestroyed
    exact follows.alive (unset_of_stays answered.ended notEnded)
      (answered.destroyed.symm.trans notDestroyed)
  refine ⟨?_, ?_, ?_, ?_, fun notHolding => (nothingHeld notHolding).2, ?_⟩
  · rw [answered.listens, listener]
    exact follows.listens
  · left
    rcases follows.asked with all | ⟨crashed, -⟩
    · rw [made, asked, List.map_append, ← all, List.map_singleton,
        answered.requestId]
    · exact Bool.noConfusion (crashed.symm.trans running)
  · rw [made, sent, answered.sent]
    split_ifs with silent
    · rw [List.append_nil]
      exact follows.sent.trans (List.prefix_append _ _)
    · simp only [Bool.or_eq_true, not_or, Bool.not_eq_true] at silent
      rcases silent with ⟨⟨notHolding, notEnded⟩, notDestroyed⟩
      rw [follows.alive notEnded notDestroyed, (nothingHeld notHolding).1,
        List.append_nil]
  · intro notEnded notDestroyed
    have wasOpen := unset_of_stays answered.ended notEnded
    have wasAlive := answered.destroyed.symm.trans notDestroyed
    rw [made, sent, answered.sent, answered.held, wasOpen, wasAlive,
      alive notEnded notDestroyed]
    cases holding : next.holding with
    | true =>
        simp
    | false =>
        simp [(nothingHeld holding).1]
  · intro isHolding notCrashed
    by_cases wasHolding : session.holding = true
    · rcases called notCrashed with ⟨running, stays⟩
      exact stays (follows.waits wasHolding running)
    · rw [Bool.not_eq_true] at wasHolding
      exact waits (answered.waits wasHolding isHolding) notCrashed

/-- A request is taken. -/
theorem takes_ask
    (server : SinterServer)
    (index requestId : Nat) :
    Takes server (server.ask index requestId) index requestId := by
  refine ⟨rfl, rfl, rfl, rfl, ?_, ?_, ?_⟩ <;> intro other
  · unfold madeBy SinterServer.ask
    dsimp only
    rw [List.filterMap_append]
    exact List.append_nil _
  · unfold sentBy SinterServer.ask
    dsimp only
    rw [List.filterMap_append]
    exact List.append_nil _
  · unfold askedBy SinterServer.ask
    dsimp only
    rw [List.filterMap_append]
    by_cases same : index = other <;> simp [ServerEvent.asked?, same]

/-- Calls of the log are not seen of a session. -/
theorem views_engineCalls
    (server : SinterServer)
    (calls : List LogCall) :
    SameViews server (server.engineCalls calls) := by
  refine ⟨rfl, ?_, ?_, ?_⟩ <;> intro index <;>
    rcases @filterMap_map_log index (server.log.eventsOf calls) with
      ⟨-, made, sent, asked⟩ <;>
      simp only [madeBy, sentBy, askedBy, SinterServer.engineCalls,
        List.filterMap_append, made, sent, asked, List.append_nil]

/-- The work for a request that is taken is not seen of a session. -/
theorem Takes.engineCalls
    {requestId : Nat}
    (takes : Takes server later index requestId)
    (calls : List LogCall) :
    Takes server (later.engineCalls calls) index requestId where
  listener := takes.listener
  sessions := takes.sessions
  committer := takes.committer
  crashed := takes.crashed
  made other := ((views_engineCalls later calls).made other).trans
    (takes.made other)
  sent other := ((views_engineCalls later calls).sent other).trans
    (takes.sent other)
  asked other := ((views_engineCalls later calls).asked other).trans
    (takes.asked other)

/-- A session that makes an answer to the request that it has taken. -/
theorem InOrder.answered
    (inOrder : server.InOrder left)
    (running : server.crashed = false)
    {requestId : Nat}
    (takes : Takes server later index requestId)
    {session next : Session}
    {hasPending : Bool}
    {events : List SessionEvent}
    {answer : Answer}
    (isThere : server.sessions[index]? = some session)
    (answered :
      session.Answered requestId hasPending next events answer) :
    (later.settle index next events).InOrder left := by
  have isInside : index < server.sessions.length :=
    (List.getElem?_eq_some_iff.mp isThere).1
  have settled := views_settle later index next events
  have sessions :
      (later.settle index next events).sessions =
        server.sessions.set index next := by
    unfold SinterServer.settle
    dsimp only
    rw [takes.sessions]
  have called : ∀ other,
      StillCalled server (later.settle index next events) left left other := by
    intro other notCrashed
    have called : StillCalled later (later.settle index next events) left
        left other := stillCalled_settle later index next events other
    rcases called notCrashed with ⟨notCrashedBefore, stays⟩
    rw [takes.committer] at stays
    exact ⟨takes.crashed.symm.trans notCrashedBefore, stays⟩
  constructor
  · intro other last isLast
    rcases settled other with ⟨made, sent, asked⟩
    rw [takes.made] at made
    rw [takes.sent] at sent
    rw [takes.asked] at asked
    rw [sessions, List.getElem?_set] at isLast
    by_cases isOwn : index = other
    · subst isOwn
      rw [if_pos rfl, if_pos isInside] at isLast
      cases isLast
      rw [if_pos rfl] at made sent asked
      rw [answered.made] at made
      refine (inOrder.follows index session isThere).answered running answered
        takes.listener made sent asked (called index) ?_
      intro waits _
      unfold SinterServer.settle
      rw [if_pos waits]
      exact List.mem_append_left _
        (List.mem_append_right _ (List.mem_singleton_self _))
    · rw [if_neg isOwn] at isLast made sent asked
      rw [List.append_nil] at made sent asked
      exact (inOrder.follows other last isLast).continues takes.listener made
        sent asked (.refl last) (called other)
  · intro other outside
    rw [sessions, List.length_set] at outside
    have away : ¬ index = other := by
      intro same
      subst same
      exact absurd isInside (Nat.not_lt.mpr outside)
    rcases settled other with ⟨made, sent, asked⟩
    rw [made, sent, asked, takes.made, takes.sent, takes.asked, if_neg away,
      if_neg away, if_neg away, List.append_nil, List.append_nil,
      List.append_nil]
    exact inOrder.unknown other outside
  · unfold SinterServer.settle
    dsimp only
    split_ifs
    · intro _
      rfl
    · rw [takes.committer]
      exact inOrder.scheduled

/-- A session that throws over a request ends the process. -/
theorem InOrder.thrown
    (inOrder : server.InOrder left)
    (running : server.crashed = false)
    {requestId : Nat}
    (takes : Takes server later index requestId)
    {session : Session}
    (isThere : server.sessions[index]? = some session) :
    InOrder { later with crashed := true } left := by
  have isInside : index < server.sessions.length :=
    (List.getElem?_eq_some_iff.mp isThere).1
  have called (other : Nat) :
      StillCalled server { later with crashed := true } left left other :=
    fun notCrashed => Bool.noConfusion notCrashed
  constructor
  · intro other last isLast
    have wasThere : server.sessions[other]? = some last := by
      rw [← takes.sessions]
      exact isLast
    have follows := inOrder.follows other last wasThere
    have asked := takes.asked other
    by_cases isOwn : index = other
    · subst isOwn
      rw [if_pos rfl] at asked
      refine ⟨follows.listens.trans takes.listener.symm, ?_, ?_, ?_,
        follows.released, fun _ notCrashed => Bool.noConfusion notCrashed⟩
      · right
        refine ⟨rfl, requestId, ?_⟩
        rcases follows.asked with all | ⟨crashed, -⟩
        · refine asked.trans ?_
          rw [all, ← takes.made]
          rfl
        · exact Bool.noConfusion (crashed.symm.trans running)
      · have sent := follows.sent
        rw [← takes.made, ← takes.sent] at sent
        exact sent
      · intro notEnded notDestroyed
        have alive := follows.alive notEnded notDestroyed
        rw [← takes.made, ← takes.sent] at alive
        exact alive
    · rw [if_neg isOwn, List.append_nil] at asked
      exact follows.continues takes.listener (takes.made other)
        (takes.sent other) asked (.refl last) (called other)
  · intro other outside
    have before : server.sessions.length ≤ other := by
      rw [← takes.sessions]
      exact outside
    have asked := takes.asked other
    rw [if_neg (by omega), List.append_nil] at asked
    rcases inOrder.unknown other before with ⟨made, sent, none⟩
    exact ⟨(takes.made other).trans made, (takes.sent other).trans sent,
      asked.trans none⟩
  · intro waiting
    have waitingBefore : server.committer.waiting ≠ [] := by
      rw [← takes.committer]
      exact waiting
    have scheduled := inOrder.scheduled waitingBefore
    rw [← takes.committer] at scheduled
    exact scheduled

/-- A session that answers the request that it has taken, or that ends the
process. -/
theorem InOrder.answer
    (inOrder : server.InOrder left)
    (running : server.crashed = false)
    {requestId : Nat}
    (takes : Takes server later index requestId)
    {session : Session}
    {hasPending : Bool}
    {step : Session.Step}
    (isThere : server.sessions[index]? = some session)
    (answers : session.AnswersIn requestId hasPending step) :
    (later.answer index step).InOrder left := by
  unfold SinterServer.answer
  rcases step with error | ⟨next, events⟩
  · exact inOrder.thrown running takes isThere
  · rcases answers next events rfl with ⟨answer, answered⟩
    exact inOrder.answered running takes isThere answered

/-- Calls of the log keep the order. -/
theorem InOrder.engineCalls
    (inOrder : server.InOrder left)
    (calls : List LogCall) :
    (server.engineCalls calls).InOrder left :=
  inOrder.continues (views_engineCalls server calls)
    (fun _ next isNext => ⟨next, isNext, .refl next⟩) (Nat.le_refl _)
    (fun _ _ _ notCrashed => ⟨notCrashed, id⟩) inOrder.scheduled

/-- A message is answered in order. -/
theorem InOrder.handleMessage
    (inOrder : server.InOrder left)
    (message : DecodedMessage)
    (receivedAt : TimeValue)
    (work : Work) :
    (server.handleMessage index message receivedAt work).InOrder left := by
  unfold SinterServer.handleMessage
  cases isThere : server.sessions[index]? with
  | none =>
      exact inOrder
  | some session =>
      dsimp only
      have takes := takes_ask server index message.requestId
      split_ifs with ignored
      · exact inOrder
      all_goals
        rw [Bool.or_eq_true, not_or, Bool.not_eq_true] at ignored
      · exact inOrder.answer ignored.1 (takes.engineCalls work.calls) isThere
          (Session.answersIn_handleMessage message receivedAt work.reply)
      · exact inOrder.answer ignored.1 takes isThere
          (Session.answersIn_handleMessage message receivedAt work.reply)

/-- The messages of a chunk are answered in order. -/
theorem InOrder.handleMessages
    (inOrder : server.InOrder left)
    (receivedAt : TimeValue)
    (messages : List (DecodedMessage × Work)) :
    (server.handleMessages index receivedAt messages).InOrder left := by
  induction messages generalizing server with
  | nil =>
      exact inOrder
  | cons first rest inductionHypothesis =>
      exact inductionHypothesis
        (inOrder.handleMessage first.1 receivedAt first.2)

/-- A session is replaced by one that continues it. -/
theorem InOrder.replaced
    (inOrder : server.InOrder left)
    {session changed : Session}
    (isThere : server.sessions[index]? = some session)
    (continues : Continues session changed) :
    InOrder { server with sessions := server.sessions.set index changed }
      left :=
  inOrder.continues ⟨rfl, fun _ => rfl, fun _ => rfl, fun _ => rfl⟩
    (continues_set isThere continues) (List.length_set.symm ▸ Nat.le_refl _)
    (fun _ _ _ notCrashed => ⟨notCrashed, id⟩) inOrder.scheduled

/-- A chunk is answered in order. -/
theorem InOrder.handleData
    (inOrder : server.InOrder left)
    (chunk : Bytes)
    (receivedAt : TimeValue)
    (work : Nat → Work) :
    (server.handleData index chunk receivedAt work).InOrder left := by
  unfold SinterServer.handleData
  cases isThere : server.sessions[index]? with
  | none =>
      exact inOrder
  | some session =>
      dsimp only
      split_ifs with ignored
      · exact inOrder
      · rw [Bool.or_eq_true, not_or, Bool.not_eq_true] at ignored
        rcases session.decoder.push chunk with ⟨decoder, received⟩
        have isInside : index < server.sessions.length :=
          (List.getElem?_eq_some_iff.mp isThere).1
        have changed :
            InOrder { server with
              sessions :=
                server.sessions.set index
                  { session with decoder := decoder } } left :=
          inOrder.replaced isThere ⟨rfl, rfl, rfl, id, id⟩
        rcases received with error | messages
        · have answers :
              ({ session with decoder := decoder } : Session).AnswersIn 0
                false
                (({ session with decoder := decoder } : Session)
                  |>.handleProtocolFailure error) :=
            Session.answersIn_sendErrorAndClose _
          exact changed.answer ignored.1 (takes_ask _ index 0)
            (by simp [isInside]) answers
        · exact changed.handleMessages _ _

/-- A session that was released still follows. -/
theorem Follows.releases
    {session next : Session}
    {failed : Bool}
    {events : List SessionEvent}
    (follows : server.Follows left index session)
    (releases : session.Released failed next events)
    (listener : later.hasErrorListener = server.hasErrorListener)
    (crashed : server.crashed = true → later.crashed = true)
    (made : later.madeBy index = server.madeBy index)
    (sent :
      later.sentBy index =
        server.sentBy index ++ events.filterMap SessionEvent.sent?)
    (asked : later.askedBy index = server.askedBy index) :
    later.Follows others index next := by
  refine ⟨?_, follows.asked.stays made asked crashed, ?_, ?_,
    fun _ => releases.held, ?_⟩
  · rw [releases.listens, listener]
    exact follows.listens
  · rw [made, sent, releases.sent]
    split_ifs with silent
    · rw [List.append_nil]
      exact follows.sent
    · simp only [Bool.or_eq_true, not_or, Bool.not_eq_true] at silent
      rw [follows.alive silent.1.1 silent.1.2]
  · intro notEnded notDestroyed
    have wasOpen := unset_of_stays releases.ended notEnded
    have wasAlive := unset_of_stays releases.destroyed notDestroyed
    have succeeded : failed = false :=
      unset_of_stays (fun fails => releases.fails fails wasOpen) notDestroyed
    rw [made, sent, releases.sent, releases.held, wasOpen, wasAlive,
      succeeded, follows.alive wasOpen wasAlive]
    simp
  · intro isHolding
    rw [releases.holding] at isHolding
    cases isHolding

/-- A callback that is left for another session is left behind this one. -/
theorem mem_of_mem_cons
    {other : Nat}
    (away : ¬ index = other)
    {waiting : List Nat}
    (member : other ∈ waiting ++ index :: left) :
    other ∈ waiting ++ left := by
  rcases List.mem_append.mp member with member | member
  · exact List.mem_append_left _ member
  · rcases List.mem_cons.mp member with same | member
    · exact absurd same.symm away
    · exact List.mem_append_right _ member

/-- A callback releases its session. -/
theorem InOrder.release
    (inOrder : server.InOrder (index :: left))
    (failed : Bool) :
    (server.release failed index).InOrder left := by
  unfold SinterServer.release
  cases isThere : server.sessions[index]? with
  | none =>
      refine inOrder.continues ⟨rfl, fun _ => rfl, fun _ => rfl, fun _ => rfl⟩
        (fun _ next isNext => ⟨next, isNext, .refl next⟩) (Nat.le_refl _) ?_
        inOrder.scheduled
      intro other session isOther notCrashed
      refine ⟨notCrashed, mem_of_mem_cons ?_⟩
      intro same
      subst same
      rw [isThere] at isOther
      cases isOther
  | some session =>
      dsimp only
      split_ifs with crashed
      · exact inOrder.continues ⟨rfl, fun _ => rfl, fun _ => rfl, fun _ => rfl⟩
          (fun _ next isNext => ⟨next, isNext, .refl next⟩) (Nat.le_refl _)
          (fun _ _ _ notCrashed =>
            Bool.noConfusion (crashed.symm.trans notCrashed))
          inOrder.scheduled
      · have releases := session.released_release failed
        revert releases
        generalize session.release failed = released
        intro releases
        rcases released with ⟨next, events⟩
        have settled := views_settle server index next events
        constructor
        · intro other later isLater
          rcases settled other with ⟨made, sent, asked⟩
          have isSet :
              (server.sessions.set index next)[other]? = some later :=
            isLater
          rw [List.getElem?_set] at isSet
          by_cases isOwn : index = other
          · subst isOwn
            rw [if_pos rfl] at isSet made sent
            split_ifs at isSet
            cases isSet
            rw [releases.made, List.append_nil] at made
            refine (inOrder.follows index session isThere).releases releases
              rfl ?_ made sent asked
            intro isCrashed
            exact absurd isCrashed crashed
          · rw [if_neg isOwn] at isSet made sent
            rw [List.append_nil] at made sent
            refine (inOrder.follows other later isSet).continues rfl made sent
              asked (.refl later) ?_
            intro notCrashed
            refine ⟨(Bool.or_eq_false_iff.mp notCrashed).1, ?_⟩
            intro member
            have still := mem_of_mem_cons isOwn member
            unfold SinterServer.settle
            rw [releases.waits, if_neg Bool.false_ne_true]
            exact still
        · intro other outside
          have count :
              (server.sessions.set index next).length ≤ other := outside
          rw [List.length_set] at count
          have away : ¬ index = other := by
            intro same
            subst same
            rw [List.getElem?_eq_none count] at isThere
            cases isThere
          rcases settled other with ⟨made, sent, asked⟩
          rw [made, sent, asked, if_neg away, if_neg away, List.append_nil,
            List.append_nil]
          exact inOrder.unknown other count
        · unfold SinterServer.settle
          dsimp only
          rw [releases.waits, if_neg Bool.false_ne_true]
          exact inOrder.scheduled

/-- The callbacks release all sessions that were held. -/
theorem InOrder.releases
    {callbacks : List Nat}
    (inOrder : server.InOrder callbacks)
    (failed : Bool) :
    (callbacks.foldl (fun server index => server.release failed index)
      server).InOrder [] := by
  induction callbacks generalizing server with
  | nil =>
      exact inOrder
  | cons index rest inductionHypothesis =>
      exact inductionHypothesis (inOrder.release failed)

/-- A flush leaves the callbacks that were waited for. -/
theorem InOrder.flush
    (inOrder : server.InOrder []) :
    server.flush.InOrder server.committer.waiting := by
  have views : SameViews server server.flush := by
    refine ⟨rfl, ?_, ?_, ?_⟩ <;> intro index <;>
      rcases @filterMap_map_log index server.log.commitEvents with
        ⟨-, made, sent, asked⟩ <;>
        simp only [madeBy, sentBy, askedBy, SinterServer.flush,
          List.filterMap_append, made, sent, asked, List.append_nil] <;>
        split_ifs <;> simp [ServerEvent.made?, ServerEvent.sent?,
          ServerEvent.asked?]
  refine inOrder.continues views
    (fun _ next isNext => ⟨next, isNext, .refl next⟩) (Nat.le_refl _) ?_
    (fun notEmpty => absurd rfl notEmpty)
  intro other session isOther notCrashed
  refine ⟨notCrashed, fun member => ?_⟩
  rw [List.append_nil] at member
  exact member

/-- `run` keeps the order. -/
theorem InOrder.run
    (inOrder : server.InOrder []) :
    server.run.InOrder [] := by
  rw [run_eq]
  split_ifs
  · exact inOrder
  · exact inOrder.flush.releases _

/-- A change of a connection keeps the order. -/
theorem InOrder.changeSession
    (inOrder : server.InOrder left)
    {change : Session → Session}
    (continues : ∀ session, Continues session (change session)) :
    (server.changeSession index change).InOrder left := by
  refine inOrder.continues ⟨rfl, fun _ => rfl, fun _ => rfl, fun _ => rfl⟩ ?_
    (List.length_modify _ _ _).symm.le
    (fun _ _ _ notCrashed => ⟨notCrashed, id⟩) inOrder.scheduled
  intro other next isNext
  have isModified :
      (server.sessions.modify index change)[other]? = some next :=
    isNext
  rw [List.getElem?_modify] at isModified
  cases wasThere : server.sessions[other]? with
  | none =>
      rw [wasThere] at isModified
      cases isModified
  | some session =>
      rw [wasThere] at isModified
      cases isModified
      refine ⟨session, rfl, ?_⟩
      split_ifs
      · exact continues session
      · exact .refl session

/-- A new session has answered nothing. -/
theorem InOrder.connection
    (inOrder : server.InOrder left) :
    InOrder
      { server with
        sessions :=
          server.sessions ++ [{ onErrorReturns := server.hasErrorListener }] }
      left := by
  constructor
  · intro other next isNext
    have isAdded :
        (server.sessions ++
          [({ onErrorReturns := server.hasErrorListener } : Session)])[
            other]? = some next :=
      isNext
    by_cases isOld : other < server.sessions.length
    · rw [List.getElem?_append_left isOld] at isAdded
      exact (inOrder.follows other next isAdded).continues rfl rfl rfl rfl
        (.refl next) fun notCrashed => ⟨notCrashed, id⟩
    · rw [Nat.not_lt] at isOld
      rcases inOrder.unknown other isOld with ⟨made, sent, asked⟩
      rw [List.getElem?_append_right isOld] at isAdded
      have isFresh : next = { onErrorReturns := server.hasErrorListener } :=
        List.mem_singleton.mp (List.mem_of_getElem? isAdded)
      subst isFresh
      refine ⟨rfl, ?_, ?_, ?_, fun _ => rfl,
        fun isHolding => nomatch isHolding⟩
      · exact .inl
          (asked.trans (congrArg (List.map Answer.requestId) made).symm)
      · exact (show server.sentBy other <+: server.madeBy other by
          rw [made, sent])
      · intro _ _
        exact made.trans (by rw [List.append_nil]; exact sent.symm)
  · intro other outside
    have count :
        (server.sessions ++
          [({ onErrorReturns := server.hasErrorListener } : Session)]).length ≤
            other :=
      outside
    rw [List.length_append] at count
    exact inOrder.unknown other (Nat.le_of_add_right_le count)
  · exact inOrder.scheduled

/-- Every turn keeps the order. -/
theorem InOrder.turn
    (inOrder : server.InOrder [])
    (turn : Turn) :
    (server.turn turn).InOrder [] := by
  cases turn with
  | connection =>
      unfold SinterServer.turn
      dsimp only
      split_ifs
      · exact inOrder
      · exact inOrder.connection
  | data index chunk receivedAt work =>
      exact inOrder.handleData chunk receivedAt work
  | immediate =>
      exact inOrder.run
  | background calls =>
      unfold SinterServer.turn
      dsimp only
      split_ifs
      · exact inOrder
      · exact inOrder.engineCalls calls
  | socketEnds index =>
      exact inOrder.changeSession fun _ => ⟨rfl, rfl, rfl, fun _ => rfl, id⟩
  | socketFails index =>
      exact inOrder.changeSession fun _ => ⟨rfl, rfl, rfl, id, fun _ => rfl⟩
  | socketCloses index =>
      exact inOrder.changeSession fun _ => ⟨rfl, rfl, rfl, id, fun _ => rfl⟩

/-- Every server that turns lead to keeps the order. -/
theorem Reaches.inOrder
    (reaches : Reaches server) :
    server.InOrder [] := by
  induction reaches with
  | start opens =>
      constructor
      · intro index session isThere
        cases isThere
      · intro index outside
        exact ⟨rfl, rfl, rfl⟩
      · intro notEmpty
        exact absurd rfl notEmpty
  | turn reaches turn inductionHypothesis =>
      exact inductionHypothesis.turn turn

end Steps

section Ending

/--
A turn brings an error that cannot be expressed as a message: the one of a
command, or the one of a stream that cannot be decoded.
-/
inductive Inexpressible (server : SinterServer) : Turn → Prop where
  | command
      {index : Nat}
      {session : Session}
      {chunk : Bytes}
      {receivedAt : TimeValue}
      {work : Nat → Work}
      {messages : List DecodedMessage}
      {message : DecodedMessage}
      {place : Nat}
      {error : CommandExecutionError}
      (isThere : server.sessions[index]? = some session)
      (decodes : (session.decoder.push chunk).2 = .ok messages)
      (isMessage : messages[place]? = some message)
      (isCommand : message.kind = .command)
      (fails : (work place).reply = .error (.command error))
      (isEndless : ¬ error.Expressible) :
      Inexpressible server (.data index chunk receivedAt work)
  | stream
      {index : Nat}
      {session : Session}
      {chunk : Bytes}
      {receivedAt : TimeValue}
      {work : Nat → Work}
      {error : ProtocolError}
      (isThere : server.sessions[index]? = some session)
      (fails : (session.decoder.push chunk).2 = .error error)
      (isEndless : ¬ Sendable .error error.envelope.toDocument) :
      Inexpressible server (.data index chunk receivedAt work)

/-- The process runs, and somebody listens to its errors. -/
structure Serves (server : SinterServer) : Prop where
  running : server.crashed = false
  listens : server.hasErrorListener = true

/-- A message with the work for it comes from a client and is answered when its
errors are. -/
structure Answerable (message : DecodedMessage) (work : Work) : Prop where
  isNumber : message.requestId ≤ maxRequestId
  valid : validateMessagePayload message.kind message.payload = .ok ()
  expressible :
    message.kind = .command →
      ∀ error, work.reply = .error (.command error) → error.Expressible

/-- A session that takes a step does not end a process with a listener. -/
theorem Serves.settle
    (serves : server.Serves)
    (session : Session)
    (events : List SessionEvent) :
    (server.settle index session events).Serves := by
  refine ⟨?_, serves.listens⟩
  unfold SinterServer.settle
  simp [serves.running, serves.listens]

/-- A step that returns does not end the process. -/
theorem Serves.answer
    (serves : server.Serves)
    {step : Session.Step}
    (returns : Session.Returns step) :
    (server.answer index step).Serves := by
  rcases returns with ⟨session, events, rfl⟩
  exact serves.settle session events

/-- A message that can be answered does not end the process. -/
theorem Serves.handleMessage
    (serves : server.Serves)
    (inOrder : server.InOrder left)
    {message : DecodedMessage}
    {work : Work}
    (answerable : Answerable message work)
    (receivedAt : TimeValue) :
    (server.handleMessage index message receivedAt work).Serves := by
  unfold SinterServer.handleMessage
  cases isThere : server.sessions[index]? with
  | none =>
      exact serves
  | some session =>
      dsimp only
      have listens :=
        (inOrder.follows index session isThere).listens.trans serves.listens
      have returns (hasPending : Bool) :
          Session.Returns
            (session.handleMessage message receivedAt work.reply
              hasPending) := by
        refine (Session.returns_handleMessage_iff answerable.isNumber
          answerable.valid (.inl listens)).mpr ?_
        intro dispatches error same
        unfold Session.dispatches at dispatches
        rw [Bool.and_eq_true, beq_iff_eq] at dispatches
        exact sendable_commandError_iff.mpr
          (answerable.expressible dispatches.2 error same)
      split_ifs
      · exact serves
      · have worked :
            ((server.ask index message.requestId).engineCalls
              work.calls).Serves :=
          ⟨serves.running, serves.listens⟩
        exact worked.answer (returns _)
      · have asked : (server.ask index message.requestId).Serves :=
          ⟨serves.running, serves.listens⟩
        exact asked.answer (returns _)

/-- Messages that can be answered do not end the process. -/
theorem Serves.handleMessages
    (serves : server.Serves)
    (inOrder : server.InOrder left)
    (receivedAt : TimeValue)
    {messages : List (DecodedMessage × Work)}
    (answerable :
      ∀ entry ∈ messages, Answerable entry.1 entry.2) :
    (server.handleMessages index receivedAt messages).Serves := by
  induction messages generalizing server with
  | nil =>
      exact serves
  | cons first rest inductionHypothesis =>
      rw [List.forall_mem_cons] at answerable
      exact inductionHypothesis
        (serves.handleMessage inOrder answerable.1 receivedAt)
        (inOrder.handleMessage first.1 receivedAt first.2) answerable.2

/-- A chunk ends the process only with an error that cannot be expressed. -/
theorem Serves.handleData
    (serves : server.Serves)
    (inOrder : server.InOrder left)
    {chunk : Bytes}
    {receivedAt : TimeValue}
    {work : Nat → Work}
    (expressible :
      ¬ Inexpressible server (.data index chunk receivedAt work)) :
    (server.handleData index chunk receivedAt work).Serves := by
  unfold SinterServer.handleData
  cases isThere : server.sessions[index]? with
  | none =>
      exact serves
  | some session =>
      dsimp only
      split_ifs
      · exact serves
      · have streamFails :
            ∀ error, (session.decoder.push chunk).2 = .error error →
              Sendable .error error.envelope.toDocument := by
          intro error fails
          by_contra isEndless
          exact expressible (.stream isThere fails isEndless)
        have answerable :
            ∀ messages, (session.decoder.push chunk).2 = .ok messages →
              ∀ entry ∈
                messages.mapIdx fun place message => (message, work place),
                Answerable entry.1 entry.2 := by
          intro messages decodes entry member
          rcases List.mem_mapIdx.mp member with ⟨place, inside, rfl⟩
          have isMessage : messages[place]? = some messages[place] :=
            List.getElem?_eq_getElem inside
          rcases MessageStreamDecoder.decoded_of_push decodes _
              (List.mem_of_getElem? isMessage) with
            ⟨data, decoded⟩
          rcases valid_of_decodeMessage decoded with ⟨isNumber, valid⟩
          refine ⟨isNumber, valid, ?_⟩
          intro isCommand error fails
          by_contra isEndless
          exact expressible
            (.command isThere decodes isMessage isCommand fails isEndless)
        revert streamFails answerable
        rcases session.decoder.push chunk with ⟨decoder, error | messages⟩
        · intro streamFails _
          have asked :
              (SinterServer.ask
                { server with
                  sessions :=
                    server.sessions.set index
                      { session with decoder := decoder } }
                index 0).Serves :=
            ⟨serves.running, serves.listens⟩
          exact asked.answer
            (Session.returns_sendErrorAndClose (Nat.zero_le _)
              (streamFails error rfl))
        · intro _ answerable
          have changed :
              Serves { server with
                sessions :=
                  server.sessions.set index
                    { session with decoder := decoder } } :=
            ⟨serves.running, serves.listens⟩
          exact changed.handleMessages
            (inOrder.replaced isThere ⟨rfl, rfl, rfl, id, id⟩) receivedAt
            (answerable messages rfl)

/-- A callback does not end a process with a listener. -/
theorem Serves.release
    (serves : server.Serves)
    (failed : Bool) :
    (server.release failed index).Serves := by
  unfold SinterServer.release
  cases server.sessions[index]? with
  | none =>
      exact serves
  | some session =>
      dsimp only
      split_ifs
      · exact serves
      · exact serves.settle _ _

/-- The callbacks do not end a process with a listener. -/
theorem Serves.releases
    (serves : server.Serves)
    (failed : Bool)
    (callbacks : List Nat) :
    (callbacks.foldl (fun server index => server.release failed index)
      server).Serves := by
  induction callbacks generalizing server with
  | nil =>
      exact serves
  | cons index rest inductionHypothesis =>
      exact inductionHypothesis (serves.release failed)

/-- A process with a listener ends only over an error that cannot be
expressed. -/
theorem Serves.turn
    (serves : server.Serves)
    (inOrder : server.InOrder [])
    {turn : Turn}
    (expressible : ¬ Inexpressible server turn) :
    (server.turn turn).Serves := by
  cases turn with
  | connection =>
      unfold SinterServer.turn
      dsimp only
      split_ifs
      · exact serves
      · exact ⟨serves.running, serves.listens⟩
  | data index chunk receivedAt work =>
      exact serves.handleData inOrder expressible
  | immediate =>
      unfold SinterServer.turn
      dsimp only
      rw [run_eq]
      split_ifs
      · exact serves
      · have flushed : server.flush.Serves :=
          ⟨serves.running, serves.listens⟩
        exact flushed.releases _ _
  | background calls =>
      unfold SinterServer.turn
      dsimp only
      split_ifs
      · exact serves
      · exact ⟨serves.running, serves.listens⟩
  | socketEnds index => exact ⟨serves.running, serves.listens⟩
  | socketFails index => exact ⟨serves.running, serves.listens⟩
  | socketCloses index => exact ⟨serves.running, serves.listens⟩

end Ending

section Results

/--
A session makes one reply for every request that it has taken, with its number
and in its order, unless the process has ended over the last one; it writes the
first of them to its socket, and all but those that it holds as long as the
socket lives.  The process ends only when nobody listens to its errors or over
an error that cannot be expressed.
-/
theorem Reaches.replies_in_order
    (reaches : Reaches server)
    (index : Nat) :
    ((server.askedBy index = (server.madeBy index).map Answer.requestId ∨
        server.crashed = true ∧
          ∃ requestId,
            server.askedBy index =
              (server.madeBy index).map Answer.requestId ++ [requestId]) ∧
      server.sentBy index <+: server.madeBy index ∧
      ∀ session, server.sessions[index]? = some session →
        session.ended = false → session.destroyed = false →
          server.madeBy index = server.sentBy index ++ session.held) ∧
      ∀ turn, server.crashed = false → (server.turn turn).crashed = true →
        server.hasErrorListener = false ∨ Inexpressible server turn := by
  have inOrder := reaches.inOrder
  refine ⟨?_, ?_⟩
  swap
  · intro turn running ends
    by_contra served
    rw [not_or, Bool.not_eq_false] at served
    have serves : server.Serves := ⟨running, served.1⟩
    exact Bool.noConfusion
      (ends.symm.trans (serves.turn inOrder served.2).running)
  cases isThere : server.sessions[index]? with
  | none =>
      rcases inOrder.unknown index (List.getElem?_eq_none_iff.mp isThere)
        with ⟨made, sent, asked⟩
      rw [made, sent, asked]
      exact ⟨.inl rfl, List.prefix_rfl, fun _ isSome => nomatch isSome⟩
  | some session =>
      have follows := inOrder.follows index session isThere
      refine ⟨follows.asked, follows.sent, ?_⟩
      rintro other ⟨⟩
      exact follows.alive

/-- The handshake and the command of the sample were answered in order. -/
theorem Reaches.replies_in_order_flushedServer :
    ((flushedServer.askedBy 0 =
          (flushedServer.madeBy 0).map Answer.requestId ∨
        flushedServer.crashed = true ∧
          ∃ requestId,
            flushedServer.askedBy 0 =
              (flushedServer.madeBy 0).map Answer.requestId ++ [requestId]) ∧
      flushedServer.sentBy 0 <+: flushedServer.madeBy 0 ∧
      ∀ session, flushedServer.sessions[0]? = some session →
        session.ended = false → session.destroyed = false →
          flushedServer.madeBy 0 = flushedServer.sentBy 0 ++ session.held) ∧
      ∀ turn, flushedServer.crashed = false →
        (flushedServer.turn turn).crashed = true →
          flushedServer.hasErrorListener = false ∨
            Inexpressible flushedServer turn :=
  Reaches.replies_in_order reaches_flushedServer 0

/-- A callback adds none. -/
theorem committer_release
    (server : SinterServer)
    (failed : Bool)
    (index : Nat) :
    (server.release failed index).committer = server.committer := by
  unfold SinterServer.release
  cases server.sessions[index]? with
  | none =>
      rfl
  | some session =>
      dsimp only
      split_ifs
      · rfl
      · unfold SinterServer.settle
        dsimp only
        rw [(session.released_release failed).waits]
        rfl

/-- The callbacks add none. -/
theorem committer_releases
    (server : SinterServer)
    (failed : Bool)
    (callbacks : List Nat) :
    (callbacks.foldl (fun server index => server.release failed index)
      server).committer = server.committer := by
  induction callbacks generalizing server with
  | nil =>
      rfl
  | cons index rest inductionHypothesis =>
      exact (inductionHypothesis _).trans
        (committer_release server failed index)

/-- Nothing is waited for behind `run`. -/
theorem waiting_run
    (inOrder : server.InOrder [])
    (running : server.run.crashed = false) :
    server.run.committer.waiting = [] := by
  rw [run_eq] at running ⊢
  split_ifs at running ⊢ with idle
  · rw [running, Bool.false_or, Bool.not_eq_true'] at idle
    by_contra notEmpty
    exact Bool.noConfusion (idle.symm.trans (inOrder.scheduled notEmpty))
  · rw [committer_releases]
    rfl

/--
No reply is held for ever: as long as the process runs, a flush is scheduled
while one is held, and unless it ends the process, the next turn of the
committer leaves every session that is still connected with all of its replies
written.
-/
theorem Reaches.replies_are_released
    (reaches : Reaches server) :
    (server.crashed = false →
        ∀ session ∈ server.sessions, session.held ≠ [] →
          server.committer.scheduled = true) ∧
      (server.run.crashed = false →
        ∀ index session, server.run.sessions[index]? = some session →
          session.held = [] ∧
            (session.ended = false → session.destroyed = false →
              server.run.sentBy index = server.run.madeBy index)) := by
  have inOrder := reaches.inOrder
  constructor
  · intro running session member held
    rcases List.getElem?_of_mem member with ⟨index, isThere⟩
    have follows := inOrder.follows index session isThere
    have holding : session.holding = true := by
      by_contra notHolding
      rw [Bool.not_eq_true] at notHolding
      exact held (follows.released notHolding)
    have waits := follows.waits holding running
    rw [List.append_nil] at waits
    exact inOrder.scheduled (List.ne_nil_of_mem waits)
  · intro running index session isThere
    have follows := inOrder.run.follows index session isThere
    have notHolding : session.holding = false := by
      by_contra holding
      rw [Bool.not_eq_false] at holding
      have waits := follows.waits holding running
      rw [waiting_run inOrder running] at waits
      cases waits
    have none := follows.released notHolding
    refine ⟨none, fun notEnded notDestroyed => ?_⟩
    have all := follows.alive notEnded notDestroyed
    rw [none, List.append_nil] at all
    exact all.symm

/-- The reply that the sample holds is written by the next flush. -/
theorem Reaches.replies_are_released_holdingServer :
    (∀ session ∈ holdingServer.sessions, session.held ≠ [] →
        holdingServer.committer.scheduled = true) ∧
      ∀ index session, holdingServer.run.sessions[index]? = some session →
        session.held = [] ∧
          (session.ended = false → session.destroyed = false →
            holdingServer.run.sentBy index =
              holdingServer.run.madeBy index) := by
  rcases Reaches.replies_are_released reaches_holdingServer with
    ⟨held, released⟩
  exact ⟨held (by decide +kernel), released (by decide +kernel)⟩

end Results

end SinterServer

end SinterDb
