import SinterDb.Driver.RequestDispatcher

namespace SinterDb.Driver

/-!
# Requests and their replies

In every run that does not use up the request ids, the map of pending requests
holds exactly the requests that were sent and have not settled, each under an
id that no other request has.
-/

/-- Why one happening settles a request. -/
def Happening.cause? (request : Nat) : Happening → Option Cause
  | .settled other cause => if other = request then some cause else none
  | _ => none

/-- Why a request has settled, each time. -/
def settlements (history : List Happening) (request : Nat) : List Cause :=
  history.filterMap (Happening.cause? request)

/-- A happening is an allocation. -/
def Happening.isAllocation : Happening → Bool
  | .allocated _ => true
  | _ => false

/-- A happening is a request that is sent. -/
def Happening.isSent : Happening → Bool
  | .sent _ _ => true
  | _ => false

/-- How many ids have been allocated. -/
def allocations (history : List Happening) : Nat :=
  history.countP Happening.isAllocation

/-- A request was sent under an id and has not settled. -/
def Waits (history : List Happening) (request requestId : Nat) : Prop :=
  .sent request requestId ∈ history ∧ settlements history request = []

/-- A reply settles the request that waits under its id when it arrives. -/
def OwnReplies (history : List Happening) : Prop :=
  ∀ before behind request message,
    history = before ++ .settled request (.reply message) :: behind →
      ∃ earlier,
        before = earlier ++ [.arrived message] ∧
          Waits earlier request message.requestId

/-- How many ids there are for requests behind the handshake. -/
def requestIdCount : Nat := 2 ^ 32 - 2

/-- What correlates the requests of a dispatcher with their replies. -/
structure Correlated (dispatcher : RequestDispatcher) : Prop where
  /-- Every request settles at most once. -/
  settlesOnce :
    ∀ request, (settlements dispatcher.history request).length ≤ 1
  /-- Once the dispatcher is closed, every request has settled. -/
  allSettled :
    dispatcher.closed = true →
      ∀ request < dispatcher.requests,
        settlements dispatcher.history request ≠ []
  /-- A request has one id, and no other request has it. -/
  ownId :
    ∀ request other requestId otherId,
      .sent request requestId ∈ dispatcher.history →
        .sent other otherId ∈ dispatcher.history →
          (request = other ↔ requestId = otherId)
  /-- A server message settles only the request that waits under its id. -/
  ownReply : OwnReplies dispatcher.history
  /-- A late reply to a request that has timed out changes nothing. -/
  lateReply :
    ∀ request requestId error message,
      .sent request requestId ∈ dispatcher.history →
        .settled request (.timedOut error) ∈ dispatcher.history →
          message.requestId = requestId →
            dispatcher.handleMessage message =
              dispatcher.note (.arrived message)
  /-- An id that is allocated is not pending. -/
  freshId :
    ∀ generator requestId,
      dispatcher.allocateRequestId = (generator, .ok requestId) →
        dispatcher.pending.has requestId = false

section History

variable {history : List Happening}

/-- The settlements of a longer history. -/
theorem settlements_append
    (happening : Happening)
    (request : Nat) :
    settlements (history ++ [happening]) request =
      settlements history request ++
        (happening.cause? request).toList := by
  unfold settlements
  rw [List.filterMap_append, List.filterMap_cons, List.filterMap_nil]
  cases happening.cause? request <;> rfl

/-- A request has settled when its settlement has happened. -/
theorem settlements_ne_nil
    {request : Nat}
    {cause : Cause}
    (member : .settled request cause ∈ history) :
    settlements history request ≠ [] := by
  have settles : cause ∈ settlements history request :=
    List.mem_filterMap.mpr ⟨_, member, by rw [Happening.cause?, if_pos rfl]⟩
  exact List.ne_nil_of_mem settles

/-- A split of a longer history is at its end or a split of the shorter one. -/
theorem append_split
    {α : Type}
    {items before behind : List α}
    {last item : α}
    (same : items ++ [last] = before ++ item :: behind) :
    (items = before ∧ last = item) ∨
      ∃ shorter, items = before ++ item :: shorter := by
  rcases List.eq_nil_or_concat behind with rfl | ⟨shorter, other, rfl⟩
  · exact .inl (List.append_inj' same rfl |>.imp_right (by simp))
  · refine .inr ⟨shorter, ?_⟩
    rw [List.concat_eq_append, ← List.cons_append,
      ← List.append_assoc] at same
    exact (List.append_inj' same rfl).1

/-- What is not a reply keeps every reply with its request. -/
theorem OwnReplies.append
    (own : OwnReplies history)
    {happening : Happening}
    (replied :
      ∀ request message,
        happening = .settled request (.reply message) →
          ∃ earlier,
            history = earlier ++ [.arrived message] ∧
              Waits earlier request message.requestId) :
    OwnReplies (history ++ [happening]) := by
  intro before behind request message same
  rcases append_split same with ⟨rfl, last⟩ | ⟨shorter, split⟩
  · exact replied request message last
  · exact own before shorter request message split

/-- Allocations are only added. -/
theorem allocations_append
    (happening : Happening) :
    allocations (history ++ [happening]) =
      allocations history + if happening.isAllocation then 1 else 0 := by
  unfold allocations
  rw [List.countP_append, List.countP_singleton]

end History

/-- The dispatcher accounts for every request. -/
structure Accounted (dispatcher : RequestDispatcher) : Prop where
  current :
    dispatcher.requestIds.current =
      firstOperationRequestId + allocations dispatcher.history
  sent :
    ∀ request requestId,
      .sent request requestId ∈ dispatcher.history →
        requestId < dispatcher.requestIds.current ∧
          request < dispatcher.requests
  ownId :
    ∀ request other requestId otherId,
      .sent request requestId ∈ dispatcher.history →
        .sent other otherId ∈ dispatcher.history →
          (request = other ↔ requestId = otherId)
  waiting :
    ∀ request requestId,
      (requestId, request) ∈ dispatcher.pending.entries ↔
        Waits dispatcher.history request requestId
  settled :
    ∀ request,
      settlements dispatcher.history request ≠ [] →
        request < dispatcher.requests
  settlesOnce :
    ∀ request, (settlements dispatcher.history request).length ≤ 1
  accounted :
    ∀ request < dispatcher.requests,
      settlements dispatcher.history request = [] →
        ∃ requestId, .sent request requestId ∈ dispatcher.history
  timers :
    ∀ request requestId,
      (request, requestId) ∈ dispatcher.timers →
        (requestId, request) ∈ dispatcher.pending.entries
  ownReply : OwnReplies dispatcher.history

namespace RequestDispatcher

/-- A new dispatcher accounts for its requests. -/
theorem accounted_new (requestTimeoutMS : Nat) :
    Accounted (new requestTimeoutMS) where
  current := rfl
  sent := nofun
  ownId := nofun
  waiting := by
    intro request requestId
    constructor
    · nofun
    · rintro ⟨member, -⟩
      cases member
  settled := by
    intro request settles
    exact absurd rfl settles
  settlesOnce := fun _ => Nat.zero_le _
  accounted := nofun
  timers := nofun
  ownReply := by
    intro before behind request message same
    cases before <;> cases same

end RequestDispatcher

namespace Accounted

open RequestDispatcher

variable {dispatcher : RequestDispatcher}

/-- The decoder and the state of the socket do not matter. -/
theorem socket
    (accounted : Accounted dispatcher)
    (decoder : MessageStreamDecoder)
    (closed listening destroyed : Bool) :
    Accounted
      { dispatcher with
        decoder := decoder
        closed := closed
        listening := listening
        destroyed := destroyed } :=
  ⟨accounted.current, accounted.sent, accounted.ownId, accounted.waiting,
    accounted.settled, accounted.settlesOnce, accounted.accounted,
    accounted.timers, accounted.ownReply⟩

/-- A happening that concerns no request. -/
theorem waits_append
    {history : List Happening}
    {happening : Happening}
    (unsent : happening.isSent = false)
    {request : Nat}
    (silent : happening.cause? request = none)
    (requestId : Nat) :
    Waits (history ++ [happening]) request requestId ↔
      Waits history request requestId := by
  unfold Waits
  rw [settlements_append, silent, Option.toList_none, List.append_nil,
    List.mem_append, List.mem_singleton]
  constructor
  · rintro ⟨old | new, open'⟩
    · exact ⟨old, open'⟩
    · rw [← new] at unsent
      cases unsent
  · rintro ⟨old, open'⟩
    exact ⟨.inl old, open'⟩

/-- What was sent before a happening that sends nothing. -/
theorem mem_of_append
    {history : List Happening}
    {happening : Happening}
    (unsent : happening.isSent = false)
    {request requestId : Nat}
    (member : .sent request requestId ∈ history ++ [happening]) :
    .sent request requestId ∈ history := by
  rcases List.mem_append.mp member with old | new
  · exact old
  · rw [← List.mem_singleton.mp new] at unsent
    cases unsent

/-- A message that arrives is noted. -/
theorem arrived
    (accounted : Accounted dispatcher)
    (message : DecodedMessage) :
    Accounted (dispatcher.note (.arrived message)) := by
  have same (request : Nat) :
      settlements (dispatcher.history ++ [.arrived message]) request =
        settlements dispatcher.history request := by
    rw [settlements_append]
    exact List.append_nil _
  have old {request requestId : Nat}
      (member :
        .sent request requestId ∈
          dispatcher.history ++ [.arrived message]) :
      .sent request requestId ∈ dispatcher.history :=
    mem_of_append rfl member
  constructor
  · rw [note, allocations_append]
    exact accounted.current
  · intro request requestId member
    exact accounted.sent request requestId (old member)
  · intro request other requestId otherId member otherMember
    exact accounted.ownId _ _ _ _ (old member) (old otherMember)
  · intro request requestId
    exact (accounted.waiting request requestId).trans
      (waits_append rfl rfl requestId).symm
  · intro request settles
    rw [note, same] at settles
    exact accounted.settled request settles
  · intro request
    rw [note, same]
    exact accounted.settlesOnce request
  · intro request known unsettled
    rw [note, same] at unsettled
    obtain ⟨requestId, member⟩ :=
      accounted.accounted request known unsettled
    exact ⟨requestId, List.mem_append_left _ member⟩
  · exact accounted.timers
  · exact accounted.ownReply.append fun _ _ => nofun

/-- A request that waits has not settled otherwise. -/
theorem of_mem_pending
    (accounted : Accounted dispatcher)
    {request requestId : Nat}
    (pending : (requestId, request) ∈ dispatcher.pending.entries) :
    .sent request requestId ∈ dispatcher.history ∧
      settlements dispatcher.history request = [] :=
  (accounted.waiting request requestId).mp pending

/-- The entry of a pending request leaves the map when it settles. -/
theorem finish
    (accounted : Accounted dispatcher)
    {request requestId : Nat}
    (pending : (requestId, request) ∈ dispatcher.pending.entries)
    {cause : Cause}
    (replied :
      ∀ message, cause = .reply message →
        message.requestId = requestId ∧
          ∃ earlier, dispatcher.history = earlier ++ [.arrived message]) :
    Accounted (dispatcher.finish requestId request cause) := by
  obtain ⟨wasSent, unsettled⟩ := accounted.of_mem_pending pending
  have other {another : Nat} (different : another ≠ request) :
      (Happening.settled request cause).cause? another = none := by
    rw [Happening.cause?, if_neg (Ne.symm different)]
  have own :
      settlements
          (dispatcher.history ++ [.settled request cause]) request =
        [cause] := by
    rw [settlements_append, unsettled, Happening.cause?, if_pos rfl]
    rfl
  have same {another : Nat} (different : another ≠ request) :
      settlements
          (dispatcher.history ++ [.settled request cause]) another =
        settlements dispatcher.history another := by
    rw [settlements_append, other different]
    exact List.append_nil _
  have old {another otherId : Nat}
      (member :
        .sent another otherId ∈
          dispatcher.history ++ [.settled request cause]) :
      .sent another otherId ∈ dispatcher.history :=
    mem_of_append rfl member
  constructor
  · exact accounted.current.trans
      (by rw [RequestDispatcher.finish, note, allocations_append]; rfl)
  · intro another otherId member
    exact accounted.sent another otherId (old member)
  · intro first second firstId secondId firstMember secondMember
    exact accounted.ownId _ _ _ _ (old firstMember) (old secondMember)
  · intro another otherId
    change
      (otherId, another) ∈ (dispatcher.pending.delete requestId).entries ↔
        Waits (dispatcher.history ++ [.settled request cause]) another otherId
    rw [JsMap.mem_entries_delete, accounted.waiting]
    by_cases different : another = request
    · subst different
      constructor
      · rintro ⟨notOwn, member, -⟩
        exact absurd
          ((accounted.ownId _ _ _ _ member wasSent).mp rfl) notOwn
      · rintro ⟨-, none⟩
        rw [own] at none
        cases none
    · rw [waits_append rfl (other different)]
      constructor
      · exact And.right
      · rintro ⟨member, none⟩
        refine ⟨?_, member, none⟩
        rintro rfl
        exact different
          ((accounted.ownId _ _ _ _ member wasSent).mpr rfl)
  · intro another settles
    by_cases different : another = request
    · subst different
      exact (accounted.sent another requestId wasSent).2
    · exact accounted.settled another (same different ▸ settles)
  · intro another
    change (settlements (dispatcher.history ++ _) another).length ≤ 1
    by_cases different : another = request
    · subst different
      rw [own]
      exact Nat.le_refl _
    · rw [same different]
      exact accounted.settlesOnce another
  · intro another known none
    change settlements (dispatcher.history ++ _) another = [] at none
    by_cases different : another = request
    · subst different
      exact ⟨requestId, List.mem_append_left _ wasSent⟩
    · rw [same different] at none
      obtain ⟨otherId, member⟩ := accounted.accounted another known none
      exact ⟨otherId, List.mem_append_left _ member⟩
  · intro another otherId member
    change (another, otherId) ∈ dispatcher.timers.filter _ at member
    obtain ⟨running, different⟩ := List.mem_filter.mp member
    have stays := accounted.timers another otherId running
    refine JsMap.mem_entries_delete.mpr ⟨?_, stays⟩
    rintro rfl
    have wasSentToo := (accounted.of_mem_pending stays).1
    exact (by simpa using different : another ≠ request)
      ((accounted.ownId _ _ _ _ wasSentToo wasSent).mpr rfl)
  · refine accounted.ownReply.append ?_
    intro another message isReply
    obtain ⟨rfl, rfl⟩ := Happening.settled.inj isReply
    obtain ⟨rfl, earlier, split⟩ := replied message rfl
    refine ⟨earlier, split, ?_⟩
    rw [split] at wasSent unsettled
    exact (waits_append rfl rfl _).mp ⟨wasSent, unsettled⟩

/-- An id that is taken from the generator is noted. -/
theorem allocated
    (accounted : Accounted dispatcher)
    (inside : dispatcher.requestIds.current < maxRequestId) :
    Accounted
      ({ dispatcher with requestIds := dispatcher.requestIds.advance }.note
        (.allocated dispatcher.requestIds.current)) := by
  have same (request : Nat) :
      settlements
          (dispatcher.history ++
            [.allocated dispatcher.requestIds.current]) request =
        settlements dispatcher.history request := by
    rw [settlements_append]
    exact List.append_nil _
  have old {request requestId : Nat}
      (member :
        .sent request requestId ∈
          dispatcher.history ++
            [.allocated dispatcher.requestIds.current]) :
      .sent request requestId ∈ dispatcher.history :=
    mem_of_append rfl member
  have advanced :
      dispatcher.requestIds.advance.current =
        dispatcher.requestIds.current + 1 :=
    if_neg (Nat.ne_of_lt inside)
  constructor
  · rw [note, allocations_append]
    dsimp only
    rw [advanced, accounted.current]
    rfl
  · intro request requestId member
    obtain ⟨below, known⟩ := accounted.sent request requestId (old member)
    refine ⟨?_, known⟩
    dsimp only [note]
    rw [advanced]
    exact Nat.lt_succ_of_lt below
  · intro request other requestId otherId member otherMember
    exact accounted.ownId _ _ _ _ (old member) (old otherMember)
  · intro request requestId
    exact (accounted.waiting request requestId).trans
      (waits_append rfl rfl requestId).symm
  · intro request settles
    exact accounted.settled request (same request ▸ settles)
  · intro request
    change (settlements (dispatcher.history ++ _) request).length ≤ 1
    rw [same]
    exact accounted.settlesOnce request
  · intro request known unsettled
    obtain ⟨requestId, member⟩ :=
      accounted.accounted request known (same request ▸ unsettled)
    exact ⟨requestId, List.mem_append_left _ member⟩
  · exact accounted.timers
  · exact accounted.ownReply.append fun _ _ => nofun

/-- A request that has not been made has not settled. -/
theorem settlements_fresh
    (accounted : Accounted dispatcher) :
    settlements dispatcher.history dispatcher.requests = [] := by
  by_contra settles
  exact Nat.lt_irrefl _ (accounted.settled _ settles)

/-- A request that has not been made was not sent. -/
theorem not_sent_fresh
    (accounted : Accounted dispatcher)
    {requestId : Nat} :
    .sent dispatcher.requests requestId ∉ dispatcher.history :=
  fun member => Nat.lt_irrefl _ (accounted.sent _ _ member).2

/-- A new request that is refused settles at once. -/
theorem refuse
    (accounted : Accounted dispatcher)
    (error : RequestError) :
    Accounted
      ({ dispatcher with requests := dispatcher.requests + 1 }.refuse
        dispatcher.requests error) := by
  have same {request : Nat} (different : request ≠ dispatcher.requests) :
      settlements
          (dispatcher.history ++
            [.settled dispatcher.requests (.refused error)]) request =
        settlements dispatcher.history request := by
    rw [settlements_append, Happening.cause?, if_neg (Ne.symm different)]
    exact List.append_nil _
  have own :
      settlements
          (dispatcher.history ++
            [.settled dispatcher.requests (.refused error)])
          dispatcher.requests =
        [.refused error] := by
    rw [settlements_append, accounted.settlements_fresh, Happening.cause?,
      if_pos rfl]
    rfl
  have old {request requestId : Nat}
      (member :
        .sent request requestId ∈
          dispatcher.history ++
            [.settled dispatcher.requests (.refused error)]) :
      .sent request requestId ∈ dispatcher.history :=
    mem_of_append rfl member
  constructor
  · exact accounted.current.trans
      (by rw [RequestDispatcher.refuse, note, allocations_append]; rfl)
  · intro request requestId member
    obtain ⟨below, known⟩ := accounted.sent request requestId (old member)
    exact ⟨below, Nat.lt_succ_of_lt known⟩
  · intro request other requestId otherId member otherMember
    exact accounted.ownId _ _ _ _ (old member) (old otherMember)
  · intro request requestId
    refine (accounted.waiting request requestId).trans ?_
    constructor
    · rintro ⟨member, none⟩
      have different : request ≠ dispatcher.requests :=
        Nat.ne_of_lt (accounted.sent _ _ member).2
      exact ⟨List.mem_append_left _ member, (same different).trans none⟩
    · rintro ⟨member, none⟩
      have different : request ≠ dispatcher.requests :=
        Nat.ne_of_lt (accounted.sent _ _ (old member)).2
      exact ⟨old member, (same different).symm.trans none⟩
  · intro request settles
    by_cases different : request = dispatcher.requests
    · rw [different]
      exact Nat.lt_succ_self _
    · exact Nat.lt_succ_of_lt
        (accounted.settled request (same different ▸ settles))
  · intro request
    change (settlements (dispatcher.history ++ _) request).length ≤ 1
    by_cases different : request = dispatcher.requests
    · rw [different, own]
      exact Nat.le_refl _
    · rw [same different]
      exact accounted.settlesOnce request
  · intro request known none
    change settlements (dispatcher.history ++ _) request = [] at none
    by_cases different : request = dispatcher.requests
    · rw [different, own] at none
      cases none
    · rw [same different] at none
      obtain ⟨requestId, member⟩ :=
        accounted.accounted request
          (Nat.lt_of_le_of_ne (Nat.le_of_lt_succ known) different) none
      exact ⟨requestId, List.mem_append_left _ member⟩
  · exact accounted.timers
  · exact accounted.ownReply.append fun _ _ => nofun

/-- A new request waits under an id that no other request has. -/
theorem enqueue
    (accounted : Accounted dispatcher)
    {requestId : Nat}
    (below : requestId < dispatcher.requestIds.current)
    (fresh : ∀ request, .sent request requestId ∉ dispatcher.history) :
    Accounted
      ({ dispatcher with
        requests := dispatcher.requests + 1
        timers := dispatcher.timers ++ [(dispatcher.requests, requestId)]
        pending := dispatcher.pending.set requestId dispatcher.requests }.note
        (.sent dispatcher.requests requestId)) := by
  have same (request : Nat) :
      settlements
          (dispatcher.history ++ [.sent dispatcher.requests requestId])
          request =
        settlements dispatcher.history request := by
    rw [settlements_append]
    exact List.append_nil _
  have split {request otherId : Nat}
      (member :
        .sent request otherId ∈
          dispatcher.history ++ [.sent dispatcher.requests requestId]) :
      .sent request otherId ∈ dispatcher.history ∨
        request = dispatcher.requests ∧ otherId = requestId := by
    rcases List.mem_append.mp member with old | new
    · exact .inl old
    · exact .inr (Happening.sent.inj (List.mem_singleton.mp new))
  constructor
  · exact accounted.current.trans (by rw [note, allocations_append]; rfl)
  · intro request otherId member
    rcases split member with old | ⟨rfl, rfl⟩
    · obtain ⟨below, known⟩ := accounted.sent request otherId old
      exact ⟨below, Nat.lt_succ_of_lt known⟩
    · exact ⟨below, Nat.lt_succ_self _⟩
  · intro first second firstId secondId firstMember secondMember
    rcases split firstMember with firstOld | ⟨rfl, rfl⟩
    · rcases split secondMember with secondOld | ⟨rfl, rfl⟩
      · exact accounted.ownId _ _ _ _ firstOld secondOld
      · constructor
        · rintro rfl
          exact absurd firstOld accounted.not_sent_fresh
        · rintro rfl
          exact absurd firstOld (fresh first)
    · rcases split secondMember with secondOld | ⟨rfl, rfl⟩
      · constructor
        · rintro rfl
          exact absurd secondOld accounted.not_sent_fresh
        · rintro rfl
          exact absurd secondOld (fresh second)
      · exact ⟨fun _ => rfl, fun _ => rfl⟩
  · intro request otherId
    change
      (otherId, request) ∈
          (dispatcher.pending.set requestId dispatcher.requests).entries ↔
        Waits _ request otherId
    rw [JsMap.mem_entries_set, accounted.waiting]
    constructor
    · rintro (new | ⟨-, member, none⟩)
      · obtain ⟨rfl, rfl⟩ := Prod.mk.inj new
        refine ⟨List.mem_append_right _ (List.mem_singleton_self _), ?_⟩
        exact (same _).trans accounted.settlements_fresh
      · exact ⟨List.mem_append_left _ member, (same request).trans none⟩
    · rintro ⟨member, none⟩
      rcases split member with old | ⟨rfl, rfl⟩
      · refine .inr ⟨?_, old, (same request).symm.trans none⟩
        rintro rfl
        exact fresh request old
      · exact .inl rfl
  · intro request settles
    exact Nat.lt_succ_of_lt
      (accounted.settled request (same request ▸ settles))
  · intro request
    change (settlements (dispatcher.history ++ _) request).length ≤ 1
    rw [same]
    exact accounted.settlesOnce request
  · intro request known none
    by_cases different : request = dispatcher.requests
    · subst different
      exact ⟨requestId, List.mem_append_right _ (List.mem_singleton_self _)⟩
    · obtain ⟨otherId, member⟩ :=
        accounted.accounted request
          (Nat.lt_of_le_of_ne (Nat.le_of_lt_succ known) different)
          (same request ▸ none)
      exact ⟨otherId, List.mem_append_left _ member⟩
  · intro request otherId member
    refine JsMap.mem_entries_set.mpr ?_
    rcases List.mem_append.mp member with old | new
    · have stays := accounted.timers request otherId old
      refine .inr ⟨?_, stays⟩
      rintro rfl
      exact fresh request (accounted.of_mem_pending stays).1
    · obtain ⟨rfl, rfl⟩ := Prod.mk.inj (List.mem_singleton.mp new)
      exact .inl rfl
  · exact accounted.ownReply.append fun _ _ => nofun

/-- The next id of the generator is not pending. -/
theorem current_not_pending
    (accounted : Accounted dispatcher) :
    dispatcher.pending.has dispatcher.requestIds.current = false := by
  rw [Bool.eq_false_iff]
  intro present
  obtain ⟨⟨requestId, request⟩, member, rfl⟩ :=
    List.mem_map.mp (JsMap.has_iff.mp present)
  have wasSent := (accounted.of_mem_pending member).1
  exact Nat.lt_irrefl _ (accounted.sent _ _ wasSent).1

/-- `allocateRequestId` takes the next id of the generator. -/
theorem allocateRequestId
    (accounted : Accounted dispatcher) :
    dispatcher.allocateRequestId =
      (dispatcher.requestIds.advance, .ok dispatcher.requestIds.current) := by
  rw [RequestDispatcher.allocateRequestId, RequestIdGenerator.next]
  dsimp only
  rw [searchRequestId, accounted.current_not_pending]
  rfl

/-- A request that waits under an id is rejected. -/
theorem rejectRequest
    (accounted : Accounted dispatcher)
    (requestId : Nat)
    {cause : Cause}
    (noReply : ∀ message, cause ≠ .reply message) :
    Accounted (dispatcher.rejectRequest requestId cause) := by
  unfold RequestDispatcher.rejectRequest
  split
  · exact accounted
  · rename_i request isRequest
    refine accounted.finish (JsMap.get?_eq_some.mp isRequest) ?_
    intro message isReply
    exact absurd isReply (noReply message)

/-- A message settles the request that waits under its id. -/
theorem handleMessage
    (accounted : Accounted dispatcher)
    (message : DecodedMessage) :
    Accounted (dispatcher.handleMessage message) := by
  unfold RequestDispatcher.handleMessage
  have arrives := accounted.arrived message
  dsimp only
  split
  · exact arrives
  · rename_i request isRequest
    refine arrives.finish (JsMap.get?_eq_some.mp isRequest) ?_
    intro other isReply
    obtain rfl := Cause.reply.inj isReply
    exact ⟨rfl, dispatcher.history, rfl⟩

/-- The slots in front of the iterator of `rejectAll` are empty. -/
def Emptied (dispatcher : RequestDispatcher) (slot : Nat) : Prop :=
  ∀ place < slot, ∀ entry,
    dispatcher.pending.slots[place]? ≠ some (some entry)

/-- Every slot that the iterator has passed is empty. -/
theorem emptied_finish
    {slot : Nat}
    (emptied : Emptied dispatcher slot)
    {request requestId : Nat}
    (here :
      dispatcher.pending.slots[slot]? = some (some (requestId, request)))
    (cause : Cause) :
    Emptied (dispatcher.finish requestId request cause) (slot + 1) := by
  intro place passed entry isEntry
  change
    (dispatcher.pending.slots.map
      (Option.filter fun entry => !(entry.1 = requestId)))[place]? =
        some (some entry) at isEntry
  rw [List.getElem?_map] at isEntry
  obtain ⟨old, isOld, kept⟩ := Option.map_eq_some_iff.mp isEntry
  rw [Option.filter_eq_some_iff] at kept
  rcases Nat.lt_succ_iff_lt_or_eq.mp passed with before | rfl
  · exact emptied place before entry (isOld.trans (congrArg some kept.1))
  · rw [here] at isOld
    obtain rfl := Option.some.inj isOld
    obtain rfl := Option.some.inj kept.1
    simp at kept

/-- The loop of `rejectAll` settles every pending request. -/
theorem rejectFrom
    (accounted : Accounted dispatcher)
    (error : RequestError)
    {slot rounds : Nat}
    (emptied : Emptied dispatcher slot)
    (length : slot + rounds = dispatcher.pending.slots.length) :
    Accounted (dispatcher.rejectFrom error slot rounds) ∧
      (dispatcher.rejectFrom error slot rounds).pending.entries = [] := by
  induction rounds generalizing dispatcher slot with
  | zero =>
      refine ⟨accounted, ?_⟩
      rw [RequestDispatcher.rejectFrom, JsMap.entries,
        List.filterMap_eq_nil_iff]
      intro found member
      obtain ⟨place, inside, rfl⟩ := List.getElem_of_mem member
      cases isEntry : dispatcher.pending.slots[place] with
      | none =>
          rfl
      | some entry =>
          refine absurd ?_ (emptied place (by omega) entry)
          rw [List.getElem?_eq_getElem inside, isEntry]
  | succ rounds inductionHypothesis =>
      rw [RequestDispatcher.rejectFrom]
      split
      · rename_i requestId request here
        have pending : (requestId, request) ∈ dispatcher.pending.entries :=
          List.mem_filterMap.mpr ⟨_, List.mem_of_getElem? here, rfl⟩
        have finished :=
          @Accounted.finish _ accounted _ _ pending (.closed error)
            fun _ => nofun
        refine inductionHypothesis finished
          (emptied_finish emptied here _) ?_
        change _ = (dispatcher.pending.slots.map _).length
        rw [List.length_map]
        omega
      · rename_i noEntry
        refine inductionHypothesis accounted ?_ (by omega)
        intro place passed entry isEntry
        rcases Nat.lt_succ_iff_lt_or_eq.mp passed with before | rfl
        · exact emptied place before entry isEntry
        · exact noEntry _ _ isEntry

end Accounted

/-- There is an id for every request while few have been allocated. -/
theorem room_of_few
    {count : Nat}
    (few : count + 1 < requestIdCount) :
    firstOperationRequestId + count < maxRequestId := by
  unfold requestIdCount at few
  unfold firstOperationRequestId clientHandshakeRequestId maxRequestId
  omega

namespace RequestDispatcher

section Histories

variable {dispatcher : RequestDispatcher}

/-- The history has grown, with a number of allocations at most. -/
def Leads (count : Nat) (first second : RequestDispatcher) : Prop :=
  ∃ more,
    second.history = first.history ++ more ∧ allocations more ≤ count

/-- A history that grows twice has grown. -/
theorem Leads.trans
    {count more : Nat}
    {first second third : RequestDispatcher}
    (leads : Leads count first second)
    (further : Leads more second third) :
    Leads (count + more) first third := by
  obtain ⟨added, second, few⟩ := leads
  obtain ⟨addedToo, third, fewToo⟩ := further
  refine ⟨added ++ addedToo, ?_, ?_⟩
  · rw [third, second, List.append_assoc]
  · rw [allocations, List.countP_append]
    exact Nat.add_le_add few fewToo

/-- A history that stays. -/
theorem Leads.of_eq
    {first second : RequestDispatcher}
    (same : first.history = second.history) :
    Leads 0 first second :=
  ⟨[], by rw [List.append_nil, same], Nat.le_refl _⟩

/-- A bound on the allocations that is not exact. -/
theorem Leads.mono
    {count more : Nat}
    {first second : RequestDispatcher}
    (leads : Leads count first second)
    (fewer : count ≤ more) :
    Leads more first second := by
  obtain ⟨added, second, few⟩ := leads
  exact ⟨added, second, few.trans fewer⟩

/-- The allocations in a history that has grown. -/
theorem Leads.allocations
    {count : Nat}
    {first second : RequestDispatcher}
    (leads : Leads count first second) :
    allocations first.history ≤ allocations second.history ∧
      allocations second.history ≤ allocations first.history + count := by
  obtain ⟨added, second, few⟩ := leads
  rw [second, Driver.allocations, Driver.allocations, List.countP_append]
  exact ⟨Nat.le_add_right _ _, Nat.add_le_add_left few _⟩

/-- A happening is added to the history. -/
theorem leads_note
    (happening : Happening)
    (noAllocation : happening.isAllocation = false) :
    Leads 0 dispatcher (dispatcher.note happening) := by
  refine ⟨[happening], rfl, ?_⟩
  rw [Driver.allocations, List.countP_singleton, noAllocation]
  rfl

/-- A request that settles is added to the history. -/
theorem leads_finish
    (requestId request : Nat)
    (cause : Cause) :
    Leads 0 dispatcher (dispatcher.finish requestId request cause) := by
  refine Leads.trans ?_ (leads_note _ rfl)
  exact .of_eq rfl

/-- A rejection adds to the history. -/
theorem leads_rejectRequest
    (requestId : Nat)
    (cause : Cause) :
    Leads 0 dispatcher (dispatcher.rejectRequest requestId cause) := by
  unfold rejectRequest
  split
  · exact .of_eq rfl
  · exact leads_finish _ _ _

/-- The loop of `rejectAll` adds to the history. -/
theorem leads_rejectFrom
    (error : RequestError)
    (slot rounds : Nat) :
    Leads 0 dispatcher (dispatcher.rejectFrom error slot rounds) := by
  induction rounds generalizing dispatcher slot with
  | zero =>
      exact .of_eq rfl
  | succ rounds inductionHypothesis =>
      rw [rejectFrom]
      split
      · exact (leads_finish _ _ _).trans (inductionHypothesis _)
      · exact inductionHypothesis _

/-- Closing adds to the history. -/
theorem leads_close (error : RequestError) :
    Leads 0 dispatcher (dispatcher.close error) := by
  unfold close
  split_ifs
  · exact .of_eq rfl
  · rw [rejectAll]
    refine Leads.trans ?_ (leads_rejectFrom error 0 _)
    exact .of_eq rfl

/-- A failed connection adds to the history. -/
theorem leads_failConnection (error : RequestError) :
    Leads 0 dispatcher (dispatcher.failConnection error) := by
  unfold failConnection
  split_ifs
  · exact .of_eq rfl
  · exact (leads_close error).trans (Leads.of_eq rfl)

/-- A message adds to the history. -/
theorem leads_handleMessage (message : DecodedMessage) :
    Leads 0 dispatcher (dispatcher.handleMessage message) := by
  unfold handleMessage
  dsimp only
  split
  · exact leads_note _ rfl
  · exact (leads_note _ rfl).trans (leads_finish _ _ _)

/-- Messages add to the history. -/
theorem leads_handleMessages (messages : List DecodedMessage) :
    Leads 0 dispatcher (messages.foldl handleMessage dispatcher) := by
  induction messages generalizing dispatcher with
  | nil =>
      exact .of_eq rfl
  | cons message messages inductionHypothesis =>
      exact (leads_handleMessage message).trans inductionHypothesis

/-- A chunk adds to the history. -/
theorem leads_handleData (chunk : Chunk) :
    Leads 0 dispatcher (dispatcher.handleData chunk) := by
  cases chunk with
  | text =>
      exact leads_failConnection _
  | bytes bytes =>
      rw [handleData]
      split
      · refine Leads.trans ?_ (leads_failConnection _)
        exact .of_eq rfl
      · refine Leads.trans ?_ (leads_handleMessages _)
        exact .of_eq rfl

/-- A request that was given an id adds to the history. -/
theorem leads_transmit
    (request requestId : Nat)
    (writeThrows : Bool)
    (encoded : Except ProtocolError Bytes) :
    Leads 0 dispatcher
      (dispatcher.transmit request requestId writeThrows encoded) := by
  cases encoded with
  | error cause =>
      exact leads_note _ rfl
  | ok frame =>
      rw [transmit, send]
      split_ifs
      · refine Leads.trans ?_ (leads_rejectRequest _ _)
        refine Leads.trans ?_ (leads_note _ rfl)
        exact .of_eq rfl
      · exact ⟨_, rfl, Nat.le_refl _⟩

/-- A request allocates one id at most. -/
theorem leads_begin
    (request : Nat)
    (kind : MessageKind)
    (payload : Document)
    (writeThrows : Bool) :
    Leads 1 dispatcher
      (dispatcher.begin request kind payload writeThrows) := by
  rw [begin]
  split_ifs
  · exact (leads_note _ rfl).mono (Nat.zero_le _)
  · split
    · exact ⟨_, rfl, Nat.zero_le _⟩
    · refine Leads.trans ?_ (leads_transmit _ _ _ _)
      exact ⟨_, rfl, Nat.le_refl _⟩

/-- A timer that runs out adds to the history. -/
theorem leads_timeout (request requestId : Nat) :
    Leads 0 dispatcher
      ((dispatcher.clearTimeout request).timeout request requestId) := by
  rw [timeout]
  split_ifs
  · refine Leads.trans ?_ (leads_note _ rfl)
    exact .of_eq rfl
  · exact .of_eq rfl

/-- An event allocates one id at most. -/
theorem leads_step (event : Event) :
    Leads 1 dispatcher (dispatcher.step event) := by
  have same : Leads 1 dispatcher dispatcher :=
    Leads.mono (.of_eq rfl) (Nat.zero_le _)
  have few {after : RequestDispatcher} (leads : Leads 0 dispatcher after) :
      Leads 1 dispatcher after :=
    leads.mono (Nat.zero_le _)
  cases event with
  | request kind payload writeThrows =>
      rw [step, RequestDispatcher.request, ← Nat.zero_add 1]
      refine Leads.trans ?_ (leads_begin _ _ _ _)
      exact .of_eq rfl
  | data chunk =>
      rw [step]
      split_ifs
      · exact few (leads_handleData chunk)
      · exact same
  | writeError request =>
      rw [step]
      split
      · exact few (leads_rejectRequest _ _)
      · exact same
  | timeout request =>
      rw [step]
      split
      · exact few (leads_timeout _ _)
      · exact same
  | close error =>
      exact few (leads_close _)
  | socketError =>
      rw [step]
      split_ifs
      · exact few (leads_failConnection _)
      · exact same
  | socketClose =>
      rw [step]
      split_ifs
      · exact few (leads_close _)
      · exact same
  | destroy =>
      exact few (.of_eq rfl)

/-- A run allocates at most as many ids as it has events. -/
theorem leads_run (events : List Event) :
    Leads events.length dispatcher (dispatcher.run events) := by
  induction events generalizing dispatcher with
  | nil =>
      exact .of_eq rfl
  | cons event events inductionHypothesis =>
      rw [List.length_cons, Nat.add_comm]
      exact (leads_step event).trans inductionHypothesis

end Histories

end RequestDispatcher

/-- A dispatcher that accounts for its requests, none once it is closed. -/
structure Orderly (dispatcher : RequestDispatcher) : Prop where
  accounted : Accounted dispatcher
  closed : dispatcher.closed = true → dispatcher.pending.entries = []

namespace Orderly

open RequestDispatcher

variable {dispatcher : RequestDispatcher}

/-- A closed dispatcher has nothing pending. -/
theorem close
    (orderly : Orderly dispatcher)
    (error : RequestError) :
    Orderly (dispatcher.close error) := by
  unfold RequestDispatcher.close
  split_ifs
  · exact orderly
  · obtain ⟨accounted, empty⟩ :=
      @Accounted.rejectFrom _
        (orderly.accounted.socket {} true false dispatcher.destroyed) error 0
        _ nofun (Nat.zero_add _)
    exact ⟨accounted, fun _ => empty⟩

/-- A failed connection has nothing pending. -/
theorem failConnection
    (orderly : Orderly dispatcher)
    (error : RequestError) :
    Orderly (dispatcher.failConnection error) := by
  unfold RequestDispatcher.failConnection
  split_ifs
  · exact orderly
  · have closes := orderly.close error
    exact ⟨closes.accounted.socket _ _ _ true, closes.closed⟩

/-- A decoder that has gone on. -/
theorem decoder
    (orderly : Orderly dispatcher)
    (decoder : MessageStreamDecoder) :
    Orderly { dispatcher with decoder := decoder } :=
  ⟨orderly.accounted.socket decoder _ _ _, orderly.closed⟩

/-- A request that settles leaves an open dispatcher orderly. -/
theorem finish
    (orderly : Orderly dispatcher)
    {request requestId : Nat}
    (pending : (requestId, request) ∈ dispatcher.pending.entries)
    {cause : Cause}
    (accounted : Accounted (dispatcher.finish requestId request cause)) :
    Orderly (dispatcher.finish requestId request cause) := by
  refine ⟨accounted, ?_⟩
  intro closed
  rw [orderly.closed closed] at pending
  cases pending

/-- A write error settles at most the request that waits under an id. -/
theorem rejectRequest
    (orderly : Orderly dispatcher)
    (requestId : Nat)
    {cause : Cause}
    (noReply : ∀ message, cause ≠ .reply message) :
    Orderly (dispatcher.rejectRequest requestId cause) := by
  have accounted := orderly.accounted.rejectRequest requestId noReply
  unfold RequestDispatcher.rejectRequest at accounted ⊢
  split
  · exact orderly
  · rename_i request isRequest
    rw [isRequest] at accounted
    exact orderly.finish (JsMap.get?_eq_some.mp isRequest) accounted

/-- A message leaves a dispatcher orderly. -/
theorem handleMessage
    (orderly : Orderly dispatcher)
    (message : DecodedMessage) :
    Orderly (dispatcher.handleMessage message) := by
  have accounted := orderly.accounted.handleMessage message
  have arrives : Orderly (dispatcher.note (.arrived message)) :=
    ⟨orderly.accounted.arrived message, orderly.closed⟩
  unfold RequestDispatcher.handleMessage at accounted ⊢
  dsimp only at accounted ⊢
  split
  · exact arrives
  · rename_i request isRequest
    rw [isRequest] at accounted
    exact arrives.finish (JsMap.get?_eq_some.mp isRequest) accounted

/-- The messages of a chunk leave a dispatcher orderly. -/
theorem handleMessages
    (orderly : Orderly dispatcher)
    (messages : List DecodedMessage) :
    Orderly (messages.foldl RequestDispatcher.handleMessage dispatcher) := by
  induction messages generalizing dispatcher with
  | nil =>
      exact orderly
  | cons message messages inductionHypothesis =>
      exact inductionHypothesis (orderly.handleMessage message)

/-- A chunk leaves a dispatcher orderly. -/
theorem handleData
    (orderly : Orderly dispatcher)
    (chunk : Chunk) :
    Orderly (dispatcher.handleData chunk) := by
  cases chunk with
  | text =>
      exact orderly.failConnection _
  | bytes bytes =>
      rw [RequestDispatcher.handleData]
      split
      · exact (orderly.decoder _).failConnection _
      · exact (orderly.decoder _).handleMessages _

/-- A timer that runs out settles its own request. -/
theorem timeout
    (orderly : Orderly dispatcher)
    {request requestId : Nat}
    (running : (request, requestId) ∈ dispatcher.timers) :
    Orderly
      ((dispatcher.clearTimeout request).timeout request requestId) := by
  have pending := orderly.accounted.timers request requestId running
  have present :
      (dispatcher.clearTimeout request).pending.has requestId = true :=
    JsMap.has_iff.mpr (List.mem_map.mpr ⟨_, pending, rfl⟩)
  rw [RequestDispatcher.timeout, if_pos present]
  exact orderly.finish pending (orderly.accounted.finish pending fun _ => nofun)

/-- An encoded request waits or is rejected at once. -/
theorem send
    (orderly : Orderly dispatcher)
    (notClosed : dispatcher.closed = false)
    {requestId : Nat}
    (below : requestId < dispatcher.requestIds.current)
    (fresh : ∀ request, .sent request requestId ∉ dispatcher.history)
    (writeThrows : Bool) :
    Orderly
      ({ dispatcher with requests := dispatcher.requests + 1 }.send
        dispatcher.requests requestId writeThrows) := by
  have waiting := orderly.accounted.enqueue below fresh
  unfold RequestDispatcher.send
  dsimp only
  split_ifs
  · refine rejectRequest ⟨waiting, ?_⟩ requestId fun _ => nofun
    intro closed
    exact absurd (notClosed.symm.trans closed) Bool.false_ne_true
  · refine ⟨⟨waiting.current, waiting.sent, waiting.ownId, waiting.waiting,
      waiting.settled, waiting.settlesOnce, waiting.accounted, waiting.timers,
      waiting.ownReply⟩, ?_⟩
    intro closed
    exact absurd (notClosed.symm.trans closed) Bool.false_ne_true

/-- A new request that is refused leaves a dispatcher orderly. -/
theorem refuse
    (orderly : Orderly dispatcher)
    (error : RequestError) :
    Orderly
      ({ dispatcher with requests := dispatcher.requests + 1 }.refuse
        dispatcher.requests error) :=
  ⟨orderly.accounted.refuse error, orderly.closed⟩

/-- A request that was given an id waits or is refused. -/
theorem transmit
    (orderly : Orderly dispatcher)
    (notClosed : dispatcher.closed = false)
    {requestId : Nat}
    (below : requestId < dispatcher.requestIds.current)
    (fresh : ∀ request, .sent request requestId ∉ dispatcher.history)
    (writeThrows : Bool)
    (encoded : Except ProtocolError Bytes) :
    Orderly
      ({ dispatcher with requests := dispatcher.requests + 1 }.transmit
        dispatcher.requests requestId writeThrows encoded) := by
  cases encoded with
  | error cause =>
      exact orderly.refuse _
  | ok frame =>
      exact orderly.send notClosed below fresh writeThrows

/-- A request leaves a dispatcher orderly while there are ids. -/
theorem request
    (orderly : Orderly dispatcher)
    (kind : MessageKind)
    (payload : Document)
    (writeThrows : Bool)
    (few :
      allocations
          (dispatcher.request kind payload writeThrows).history <
        requestIdCount) :
    Orderly (dispatcher.request kind payload writeThrows) := by
  have allocates :
      RequestDispatcher.allocateRequestId
          { dispatcher with requests := dispatcher.requests + 1 } =
        (dispatcher.requestIds.advance,
          .ok dispatcher.requestIds.current) :=
    orderly.accounted.allocateRequestId
  rw [RequestDispatcher.request, RequestDispatcher.begin] at few ⊢
  split_ifs at few ⊢ with stopped
  · exact orderly.refuse _
  · rw [allocates] at few ⊢
    have inside : dispatcher.requestIds.current < maxRequestId := by
      have grows := (leads_transmit _ _ _ _).allocations.1.trans_lt few
      rw [note, allocations_append] at grows
      rw [orderly.accounted.current]
      exact room_of_few grows
    have notClosed : dispatcher.closed = false := by
      rw [Bool.or_eq_true, not_or] at stopped
      exact Bool.eq_false_iff.mpr stopped.1
    have allocated :
        Orderly
          ({ dispatcher with
            requestIds := dispatcher.requestIds.advance }.note
            (.allocated dispatcher.requestIds.current)) :=
      ⟨orderly.accounted.allocated inside, orderly.closed⟩
    refine allocated.transmit notClosed ?_ ?_ writeThrows _
    · change _ < dispatcher.requestIds.advance.current
      rw [show dispatcher.requestIds.advance.current =
        dispatcher.requestIds.current + 1 from
          if_neg (Nat.ne_of_lt inside)]
      exact Nat.lt_succ_self _
    · intro request member
      have old := Accounted.mem_of_append rfl member
      exact Nat.lt_irrefl _ (orderly.accounted.sent _ _ old).1

/-- Every event leaves a dispatcher orderly while there are ids. -/
theorem step
    (orderly : Orderly dispatcher)
    (event : RequestDispatcher.Event)
    (few : allocations (dispatcher.step event).history < requestIdCount) :
    Orderly (dispatcher.step event) := by
  cases event with
  | request kind payload writeThrows =>
      exact orderly.request kind payload writeThrows few
  | data chunk =>
      rw [RequestDispatcher.step]
      split_ifs
      · exact orderly.handleData chunk
      · exact orderly
  | writeError request =>
      rw [RequestDispatcher.step]
      split
      · exact orderly.rejectRequest _ fun _ => nofun
      · exact orderly
  | timeout request =>
      rw [RequestDispatcher.step]
      split
      · rename_i other requestId found
        obtain rfl : other = request := by
          simpa using List.find?_some found
        exact orderly.timeout (List.mem_of_find?_eq_some found)
      · exact orderly
  | close error =>
      exact orderly.close _
  | socketError =>
      rw [RequestDispatcher.step]
      split_ifs
      · exact orderly.failConnection _
      · exact orderly
  | socketClose =>
      rw [RequestDispatcher.step]
      split_ifs
      · exact orderly.close _
      · exact orderly
  | destroy =>
      exact ⟨orderly.accounted.socket _ _ _ true, orderly.closed⟩

/-- Every run leaves a dispatcher orderly while there are ids. -/
theorem run
    (orderly : Orderly dispatcher)
    (events : List RequestDispatcher.Event)
    (few : allocations (dispatcher.run events).history < requestIdCount) :
    Orderly (dispatcher.run events) := by
  induction events generalizing dispatcher with
  | nil =>
      exact orderly
  | cons event events inductionHypothesis =>
      refine inductionHypothesis (orderly.step event ?_) few
      exact (leads_run events).allocations.1.trans_lt few

/-- A reply to a request that does not wait is only noted. -/
theorem handleMessage_of_settled
    (orderly : Orderly dispatcher)
    {request : Nat}
    {cause : Cause}
    {message : DecodedMessage}
    (wasSent : .sent request message.requestId ∈ dispatcher.history)
    (settles : .settled request cause ∈ dispatcher.history) :
    dispatcher.handleMessage message =
      dispatcher.note (.arrived message) := by
  have absent : dispatcher.pending.get? message.requestId = none := by
    rw [Option.eq_none_iff_forall_not_mem]
    intro other isOther
    obtain ⟨otherSent, unsettled⟩ :=
      orderly.accounted.of_mem_pending (JsMap.get?_eq_some.mp isOther)
    obtain rfl :=
      (orderly.accounted.ownId _ _ _ _ otherSent wasSent).mpr rfl
    exact settlements_ne_nil settles unsettled
  rw [RequestDispatcher.handleMessage]
  dsimp only [note]
  rw [absent]

end Orderly

/-- The search for an id ends at one that is not pending. -/
theorem searchRequestId_free
    {pending : JsMap Nat Nat}
    {first generator after : RequestIdGenerator}
    {start requestId : Nat}
    (found :
      RequestDispatcher.searchRequestId pending first generator start =
        (after, .ok requestId)) :
    pending.has requestId = false := by
  fun_induction RequestDispatcher.searchRequestId pending first generator
      start with
  | case1 generator start taken last =>
      cases found
  | case2 generator start taken other inductionHypothesis =>
      exact inductionHypothesis found
  | case3 generator start free =>
      obtain ⟨-, isId⟩ := Prod.mk.inj found
      obtain rfl := Except.ok.inj isId
      exact Bool.eq_false_iff.mpr free

/--
In every run that does not use up the request ids, requests and replies are
correlated.
-/
theorem requests_correlated
    (requestTimeoutMS : Nat)
    (events : List RequestDispatcher.Event)
    (few :
      allocations
          ((RequestDispatcher.new requestTimeoutMS).run events).history <
        requestIdCount) :
    Correlated ((RequestDispatcher.new requestTimeoutMS).run events) := by
  have start : Orderly (RequestDispatcher.new requestTimeoutMS) :=
    ⟨RequestDispatcher.accounted_new requestTimeoutMS, nofun⟩
  have orderly := start.run events few
  constructor
  · exact orderly.accounted.settlesOnce
  · intro closed request known unsettled
    obtain ⟨requestId, wasSent⟩ :=
      orderly.accounted.accounted request known unsettled
    have pending :=
      (orderly.accounted.waiting request requestId).mpr ⟨wasSent, unsettled⟩
    rw [orderly.closed closed] at pending
    cases pending
  · exact orderly.accounted.ownId
  · exact orderly.accounted.ownReply
  · rintro request _ error message wasSent settles rfl
    exact orderly.handleMessage_of_settled wasSent settles
  · intro generator requestId allocates
    exact searchRequestId_free allocates

/-- The payload of a ping. -/
def pingPayload : Document :=
  [(Unicode.utf16 "sentAt", .date (timeClip 0))]

/-- Of two pings the second times out and is answered late. -/
theorem requests_correlated_late_reply :
    Correlated
      ((RequestDispatcher.new 30000).run
        [.request .ping pingPayload false, .request .ping pingPayload false,
          .timeout 1, .data (.bytes (nullFrame 3)), .writeError 0,
          .close none]) := by
  refine requests_correlated _ _ ?_
  exact (RequestDispatcher.leads_run _).allocations.2.trans_lt (by decide)

end SinterDb.Driver
