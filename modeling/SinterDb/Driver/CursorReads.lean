import SinterDb.Driver.FindCursor
import Mathlib.Data.Multiset.AddSub

namespace SinterDb.Driver

open Unicode

/-!
# Overlapping reads of a cursor

A cursor together with a server that answers its commands.  Reads may overlap
once the first reply has arrived; before it, every read sends a find of its
own.
-/

/-- A reply of the server: a value, or an error. -/
abbrev Reply := Except DriverError DocumentValue

/-- A reply that carries a batch. -/
def Carries (reply : Reply) (batch : CursorBatch) : Prop :=
  ∃ value, reply = .ok value ∧ parseBatch value = .ok batch

/--
What a correct server does with a command, given the cursors that it holds and
what they have left of the sequence: it returns a front part, and reports a
cursor as exhausted only when nothing is left.
-/
inductive Serves (sequence : List Document) :
    List (Nat × List Document) →
    CursorCommand →
    Reply →
    List (Nat × List Document) →
    Prop where
  | findAll
      {live : List (Nat × List Document)}
      {reply : Reply}
      (carries : Carries reply { cursorId := none, documents := sequence }) :
      Serves sequence live .find reply live
  | findSome
      {live : List (Nat × List Document)}
      {reply : Reply}
      {cursorId : Nat}
      {first rest : List Document}
      (split : sequence = first ++ rest)
      (fresh : cursorId ∉ live.map Prod.fst)
      (carries :
        Carries reply { cursorId := some cursorId, documents := first }) :
      Serves sequence live .find reply (live ++ [(cursorId, rest)])
  | more
      {before behind : List (Nat × List Document)}
      {reply : Reply}
      {cursorId : Nat}
      {first rest : List Document}
      (carries :
        Carries reply { cursorId := some cursorId, documents := first }) :
      Serves sequence (before ++ (cursorId, first ++ rest) :: behind)
        (.getMore cursorId) reply (before ++ (cursorId, rest) :: behind)
  | last
      {before behind : List (Nat × List Document)}
      {reply : Reply}
      {cursorId : Nat}
      {rest : List Document}
      (carries : Carries reply { cursorId := none, documents := rest }) :
      Serves sequence (before ++ (cursorId, rest) :: behind)
        (.getMore cursorId) reply (before ++ behind)
  | notFound
      {live : List (Nat × List Document)}
      {cursorId : Nat}
      (unknown : cursorId ∉ live.map Prod.fst)
      (error : DriverError) :
      Serves sequence live (.getMore cursorId) (.error error) live

/-- A cursor, the cursors of the server and the replies on their way. -/
structure Exchange where
  session : Session
  live : List (Nat × List Document)
  transit : List (Nat × Reply)

/-- A cursor that has not been used. -/
def Exchange.start : Exchange where
  session := .start
  live := []
  transit := []

/-- What happens in an exchange. -/
inductive Action where
  | read (kind : CallKind)
  | serve (index : Nat)
  | arrive (index : Nat)
  | resume (index : Nat)
  deriving DecidableEq

/--
The steps of an exchange.  Commands are served and replies arrive in any order;
a fetch is served once.
-/
inductive Exchange.Step (sequence : List Document) :
    Exchange → Action → Exchange → Prop where
  | read
      {exchange : Exchange}
      {kind : CallKind}
      (isRead : kind ≠ .close) :
      Step sequence exchange (.read kind)
        { exchange with session := exchange.session.step (.call kind) }
  | serve
      {exchange : Exchange}
      {index : Nat}
      {call : Call}
      {command : CursorCommand}
      {reply : Reply}
      {live : List (Nat × List Document)}
      (isCall : exchange.session.calls[index]? = some call)
      (fetches : call.phase = .fetching command)
      (unserved : index ∉ exchange.transit.map Prod.fst)
      (serves : Serves sequence exchange.live command reply live) :
      Step sequence exchange (.serve index)
        { exchange with
          live := live
          transit := exchange.transit ++ [(index, reply)] }
  | arrive
      {session : Session}
      {live : List (Nat × List Document)}
      {before behind : List (Nat × Reply)}
      {index : Nat}
      {reply : Reply} :
      Step sequence
        { session := session
          live := live
          transit := before ++ (index, reply) :: behind }
        (.arrive index)
        { session := session.step (.reply index reply)
          live := live
          transit := before ++ behind }
  | resume
      {exchange : Exchange}
      {index : Nat} :
      Step sequence exchange (.resume index)
        { exchange with session := exchange.session.step (.resume index) }

/-- The actions of a run, each with the exchange behind it. -/
def IsRun (sequence : List Document) :
    Exchange → List (Action × Exchange) → Prop
  | _, [] => True
  | exchange, (action, after) :: rest =>
      exchange.Step sequence action after ∧ IsRun sequence after rest

/-- No read starts while a find is under way. -/
def FindAlone : Exchange → List (Action × Exchange) → Prop
  | _, [] => True
  | exchange, (action, after) :: rest =>
      (∀ kind, action = .read kind →
        ∀ call ∈ exchange.session.calls, call.phase ≠ .fetching .find) ∧
      FindAlone after rest

/-- The document that a call of `next` has returned. -/
def Call.delivered (call : Call) : Option Document :=
  match call.phase with
  | .settled (.document document) => document
  | _ => none

/-- The documents that all calls of `next` have returned. -/
def Session.delivered (session : Session) : List Document :=
  session.calls.filterMap Call.delivered

/-- One find at most, and no document more often than in the sequence. -/
def NothingRepeated (sequence : List Document) (exchange : Exchange) : Prop :=
  exchange.session.sent.count .find ≤ 1 ∧
    exchange.session.delivered.Subperm sequence

/-- The documents of a reply. -/
def documentsIn (reply : Reply) : List Document :=
  match reply >>= parseBatch with
  | .ok batch => batch.documents
  | .error _ => []

/-- The documents of a reply that carries a batch. -/
theorem Carries.documentsIn
    {reply : Reply}
    {batch : CursorBatch}
    (carries : Carries reply batch) :
    documentsIn reply = batch.documents := by
  obtain ⟨value, rfl, parses⟩ := carries
  rw [Driver.documentsIn, show (Except.ok value >>= parseBatch) =
    parseBatch value from rfl, parses]

namespace Exchange

/-- The documents on their way to the driver. -/
def onTheWay (exchange : Exchange) : List Document :=
  exchange.transit.flatMap fun entry => documentsIn entry.2

/-- The documents that the server still holds. -/
def atServer (exchange : Exchange) : List Document :=
  exchange.live.flatMap Prod.snd

/-- All documents that have been returned or still may be. -/
def total (exchange : Exchange) : Multiset Document :=
  (exchange.session.delivered : Multiset Document) +
    (exchange.session.cursor.buffer : Multiset Document) +
    (exchange.onTheWay : Multiset Document) +
    (exchange.atServer : Multiset Document)

end Exchange

/-- A list around one of its entries, and with this entry changed. -/
theorem exists_around
    {α : Type}
    {entries : List α}
    {index : Nat}
    {entry : α}
    (isEntry : entries[index]? = some entry) :
    ∃ before behind,
      entries = before ++ entry :: behind ∧
        ∀ change : α → α,
          entries.modify index change = before ++ change entry :: behind := by
  induction entries generalizing index with
  | nil =>
      simp at isEntry
  | cons first rest inductionHypothesis =>
      cases index with
      | zero =>
          obtain rfl : first = entry := by simpa using isEntry
          exact ⟨[], rest, rfl, fun change => by simp⟩
      | succ index =>
          obtain ⟨before, behind, rfl, changed⟩ :=
            @inductionHypothesis index (by simpa using isEntry)
          exact ⟨first :: before, behind, rfl, fun change => by
            simp [changed]⟩

/-- What the calls have returned when one of them goes on. -/
theorem delivered_setPhase
    {session : Session}
    {index : Nat}
    {call : Call}
    (isCall : session.calls[index]? = some call)
    (undelivered : call.delivered = none)
    (phase : Phase) :
    ((session.setPhase index phase).delivered : Multiset Document) =
      (({ call with phase := phase } : Call).delivered.toList :
          Multiset Document) +
        (session.delivered : Multiset Document) := by
  obtain ⟨before, behind, around, changed⟩ := exists_around isCall
  rw [Session.delivered, Session.delivered, Session.setPhase]
  dsimp only
  rw [changed, around, List.filterMap_append, List.filterMap_append,
    List.filterMap_cons, List.filterMap_cons, undelivered]
  cases ({ call with phase := phase } : Call).delivered with
  | none =>
      simp
  | some document =>
      simp only [Option.toList_some, Multiset.coe_add, Multiset.coe_eq_coe]
      exact List.perm_middle

/-- A call that waits for the first find. -/
def askedCall (kind : CallKind) : Call where
  kind := kind
  afterClose := false
  phase := .fetching .find

/-- The session of a cursor whose first find has not been answered. -/
def askedSession (kind : CallKind) : Session where
  cursor := .new
  calls := [askedCall kind]
  sent := [.find]
  received := []

/-- An exchange whose first find has been answered. -/
structure Known (sequence : List Document) (exchange : Exchange) : Prop where
  handle : exchange.session.cursor.cursorId ≠ .unknown
  finds : exchange.session.sent.count .find = 1
  fetches :
    ∀ call ∈ exchange.session.calls, call.phase ≠ .fetching .find
  total : exchange.total ≤ (sequence : Multiset Document)

/-- How far an exchange has come. -/
inductive Stage (sequence : List Document) (exchange : Exchange) : Prop where
  | fresh (same : exchange = .start)
  | asked
      (kind : CallKind)
      (session : exchange.session = askedSession kind)
      (transit : exchange.transit = [])
      (live : exchange.live = [])
  | replied
      (kind : CallKind)
      (session : exchange.session = askedSession kind)
      (reply : Reply)
      (batch : CursorBatch)
      (carries : Carries reply batch)
      (transit : exchange.transit = [(0, reply)])
      (total :
        (batch.documents : Multiset Document) +
            (exchange.atServer : Multiset Document) ≤
          (sequence : Multiset Document))
  | known (known : Known sequence exchange)

/-- In every stage there is one find at most and nothing is repeated. -/
theorem Stage.nothingRepeated
    {sequence : List Document}
    {exchange : Exchange}
    (stage : Stage sequence exchange) :
    NothingRepeated sequence exchange := by
  cases stage with
  | fresh same =>
      subst same
      exact ⟨Nat.zero_le _, List.nil_subperm⟩
  | asked kind session _ _ =>
      rw [NothingRepeated, session]
      exact ⟨Nat.le_refl _, List.nil_subperm⟩
  | replied kind session _ _ _ _ _ =>
      rw [NothingRepeated, session]
      exact ⟨Nat.le_refl _, List.nil_subperm⟩
  | known known =>
      refine ⟨Nat.le_of_eq known.finds, ?_⟩
      rw [← Multiset.coe_le]
      refine le_trans ?_ known.total
      unfold Exchange.total
      rw [add_assoc, add_assoc]
      exact Multiset.le_add_right _ _

/-- The loop sends no find once the first reply has arrived. -/
theorem check_ne_find
    {cursor : FindCursor}
    (handle : cursor.cursorId ≠ .unknown) :
    cursor.check ≠ .fetch .find := by
  unfold FindCursor.check
  split_ifs
  · nofun
  · split
    · nofun
    · rename_i unknown
      exact absurd unknown handle
    · nofun
  · nofun

/-- The head of the loop returns no document. -/
theorem delivered_check
    (check : Check)
    (kind : CallKind)
    (afterClose : Bool) :
    ({ kind := kind, afterClose := afterClose, phase := check.phase kind } :
      Call).delivered = none := by
  cases check with
  | answer found =>
      cases kind <;> rfl
  | fetch command =>
      rfl

/-- A batch makes the handle of a cursor known. -/
theorem ofBatch_ne_unknown (batch : CursorBatch) :
    CursorHandle.ofBatch batch ≠ .unknown := by
  unfold CursorHandle.ofBatch
  split <;> nofun

section Steps

variable
  {sequence : List Document}
  {exchange : Exchange}

/-- The head of the loop neither fetches a find nor sends one. -/
theorem Known.check
    (known : Known sequence exchange)
    (kind : CallKind) :
    exchange.session.cursor.check.phase kind ≠ .fetching .find ∧
      (exchange.session.sent ++
        exchange.session.cursor.check.commands).count .find = 1 := by
  have other := check_ne_find known.handle
  have finds := known.finds
  cases isCheck : exchange.session.cursor.check with
  | answer found =>
      refine ⟨?_, ?_⟩
      · cases kind <;> nofun
      · rw [Check.commands, List.append_nil]
        exact finds
  | fetch command =>
      rw [isCheck] at other
      have notFind : command ≠ .find := fun same => other (by rw [same])
      refine ⟨?_, ?_⟩
      · intro same
        exact notFind (Phase.fetching.inj same)
      · rw [Check.commands, List.count_append, finds,
          List.count_singleton, if_neg (by simpa using notFind)]

/-- A read that starts repeats nothing. -/
theorem Known.read
    (known : Known sequence exchange)
    {kind : CallKind}
    (isRead : kind ≠ .close) :
    Known sequence
      { exchange with session := exchange.session.step (.call kind) } := by
  have starts :
      exchange.session.step (.call kind) =
        exchange.session.startRead kind := by
    cases kind with
    | close =>
        exact absurd rfl isRead
    | _ =>
        rfl
  rw [starts]
  obtain ⟨notFind, finds⟩ := known.check kind
  refine ⟨known.handle, finds, ?_, ?_⟩
  · intro call member
    rcases List.mem_append.mp member with before | new
    · exact known.fetches call before
    · obtain rfl := List.mem_singleton.mp new
      exact notFind
  · have same :
        (exchange.session.startRead kind).delivered =
          exchange.session.delivered := by
      rw [Session.delivered, Session.startRead, List.filterMap_append,
        List.filterMap_cons, delivered_check]
      simp [Session.delivered]
    have total := known.total
    unfold Exchange.total at total ⊢
    dsimp only
    rw [same]
    exact total

/-- What the server sends is no longer at the server. -/
theorem Serves.total
    {live after : List (Nat × List Document)}
    {command : CursorCommand}
    {reply : Reply}
    (serves : Serves sequence live command reply after)
    (notFind : command ≠ .find) :
    (documentsIn reply : Multiset Document) +
        (after.flatMap Prod.snd : List Document) =
      (live.flatMap Prod.snd : List Document) := by
  cases serves with
  | findAll =>
      exact absurd rfl notFind
  | findSome =>
      exact absurd rfl notFind
  | more carries =>
      rw [carries.documentsIn]
      simp only [List.flatMap_append, List.flatMap_cons, ← Multiset.coe_add]
      ac_rfl
  | last carries =>
      rw [carries.documentsIn]
      simp only [List.flatMap_append, List.flatMap_cons, ← Multiset.coe_add]
      ac_rfl
  | notFound =>
      exact zero_add _

/-- A command that is served repeats nothing. -/
theorem Known.serve
    (known : Known sequence exchange)
    {index : Nat}
    {call : Call}
    {command : CursorCommand}
    {reply : Reply}
    {live : List (Nat × List Document)}
    (isCall : exchange.session.calls[index]? = some call)
    (fetches : call.phase = .fetching command)
    (serves : Serves sequence exchange.live command reply live) :
    Known sequence
      { exchange with
        live := live
        transit := exchange.transit ++ [(index, reply)] } := by
  have notFind : command ≠ .find := by
    rintro rfl
    exact known.fetches call (List.mem_of_getElem? isCall) fetches
  refine ⟨known.handle, known.finds, known.fetches, ?_⟩
  have moved := serves.total notFind
  have total := known.total
  unfold Exchange.total Exchange.onTheWay Exchange.atServer at *
  rw [← moved] at total
  simp only [List.flatMap_append, List.flatMap_cons, List.flatMap_nil,
    List.append_nil, ← Multiset.coe_add] at total ⊢
  refine le_of_eq_of_le ?_ total
  ac_rfl

/-- The calls fetch no find when one of them is put into another phase. -/
theorem Known.fetches_setPhase
    (known : Known sequence exchange)
    {index : Nat}
    {call : Call}
    (isCall : exchange.session.calls[index]? = some call)
    {phase : Phase}
    (notFind : phase ≠ .fetching .find) :
    ∀ other ∈ (exchange.session.setPhase index phase).calls,
      other.phase ≠ .fetching .find := by
  intro other member
  obtain before | rfl := mem_setPhase isCall member
  · exact known.fetches other before
  · exact notFind

/-- A call that goes on without returning a document repeats nothing. -/
theorem Known.setPhase
    (known : Known sequence exchange)
    {index : Nat}
    {call : Call}
    (isCall : exchange.session.calls[index]? = some call)
    (undelivered : call.delivered = none)
    {phase : Phase}
    (notFind : phase ≠ .fetching .find)
    (returnsNothing :
      ({ call with phase := phase } : Call).delivered = none) :
    Known sequence
      { exchange with session := exchange.session.setPhase index phase } := by
  refine ⟨known.handle, known.finds, known.fetches_setPhase isCall notFind, ?_⟩
  have total := known.total
  have same := delivered_setPhase isCall undelivered phase
  rw [returnsNothing, Option.toList_none, Multiset.coe_nil, zero_add] at same
  unfold Exchange.total at total ⊢
  rw [same]
  exact total

/-- A continuation repeats nothing. -/
theorem Known.resume
    (known : Known sequence exchange)
    (index : Nat) :
    Known sequence
      { exchange with session := exchange.session.step (.resume index) } := by
  rw [Session.step]
  split
  · rename_i call isCall
    unfold Session.goOn
    split
    · rename_i fetched
      obtain ⟨notFind, finds⟩ := known.check call.kind
      have goesOn :=
        known.setPhase isCall (by rw [Call.delivered, fetched]) notFind
          (delivered_check _ _ _)
      exact ⟨goesOn.handle, finds, goesOn.fetches, goesOn.total⟩
    · rename_i answered
      exact known.setPhase isCall (by rw [Call.delivered, answered]) nofun rfl
    · rename_i answered
      refine ⟨known.handle, known.finds,
        known.fetches_setPhase isCall nofun, ?_⟩
      have total := known.total
      have same :=
        delivered_setPhase isCall (by rw [Call.delivered, answered])
          (.settled (.document exchange.session.cursor.buffer.head?))
      have moved :
          (exchange.session.cursor.buffer.head?.toList :
                Multiset Document) +
              (exchange.session.cursor.buffer.tail : Multiset Document) =
            (exchange.session.cursor.buffer : Multiset Document) := by
        cases exchange.session.cursor.buffer with
        | nil =>
            rfl
        | cons document rest =>
            rfl
      unfold Exchange.total at total ⊢
      change
        ((exchange.session.setPhase index _).delivered : Multiset Document) +
          (exchange.session.cursor.buffer.tail : Multiset Document) +
          _ + _ ≤ _
      rw [same]
      change
        (exchange.session.cursor.buffer.head?.toList : Multiset Document) +
          _ + _ + _ + _ ≤ _
      rw [← moved] at total
      refine le_of_eq_of_le ?_ total
      unfold Exchange.onTheWay Exchange.atServer
      ac_rfl
    · exact known
  · exact known

end Steps

/-- A reply that arrives repeats nothing. -/
theorem Known.arrive
    {sequence : List Document}
    {session : Session}
    {live : List (Nat × List Document)}
    {before behind : List (Nat × Reply)}
    {index : Nat}
    {reply : Reply}
    (known :
      Known sequence
        { session := session
          live := live
          transit := before ++ (index, reply) :: behind }) :
    Known sequence
      { session := session.step (.reply index reply)
        live := live
        transit := before ++ behind } := by
  have split :
      (session.delivered : Multiset Document) +
          (session.cursor.buffer : Multiset Document) +
          ((before.flatMap fun entry => documentsIn entry.2 :
              List Document) +
            (documentsIn reply : Multiset Document) +
            (behind.flatMap fun entry => documentsIn entry.2 :
              List Document)) +
          (live.flatMap Prod.snd : List Document) ≤
        (sequence : Multiset Document) := by
    have total := known.total
    unfold Exchange.total Exchange.onTheWay Exchange.atServer at total
    simp only [List.flatMap_append, List.flatMap_cons,
      ← Multiset.coe_add] at total
    refine le_of_eq_of_le ?_ total
    ac_rfl
  have dropped :
      (session.delivered : Multiset Document) +
          (session.cursor.buffer : Multiset Document) +
          ((before ++ behind).flatMap fun entry => documentsIn entry.2 :
            List Document) +
          (live.flatMap Prod.snd : List Document) ≤
        (sequence : Multiset Document) := by
    refine le_trans ?_ split
    simp only [List.flatMap_append, ← Multiset.coe_add]
    gcongr
    exact Multiset.le_add_right _ _
  have unchanged :
      Known sequence
        { session := session, live := live, transit := before ++ behind } :=
    ⟨known.handle, known.finds, known.fetches, dropped⟩
  rw [Session.step]
  split
  · rename_i call isCall
    unfold Session.receive
    split
    · rename_i command fetching
      have undelivered : call.delivered = none := by
        rw [Call.delivered, fetching]
      split
      · exact unchanged.setPhase isCall undelivered nofun rfl
      · rename_i batch parses
        have goesOn :=
          @Known.setPhase _ _ unchanged index call isCall undelivered .fetched
            nofun rfl
        refine ⟨?_, goesOn.finds, goesOn.fetches, ?_⟩
        · exact ofBatch_ne_unknown batch
        · have same := delivered_setPhase isCall undelivered .fetched
          have documents : documentsIn reply = batch.documents := by
            rw [documentsIn, parses]
          rw [documents] at split
          unfold Exchange.total
          change
            ((session.setPhase index .fetched).delivered :
                Multiset Document) +
              ((session.cursor.buffer ++ batch.documents : List Document) :
                Multiset Document) +
              ((before ++ behind).flatMap fun entry => documentsIn entry.2 :
                List Document) +
              (live.flatMap Prod.snd : List Document) ≤ _
          rw [same]
          change
            (([] : List Document) : Multiset Document) + _ + _ + _ + _ ≤ _
          rw [Multiset.coe_nil, zero_add]
          refine le_of_eq_of_le ?_ split
          simp only [List.flatMap_append, ← Multiset.coe_add]
          ac_rfl
    · rename_i cursorId closing
      have undelivered : call.delivered = none := by
        rw [Call.delivered, closing]
      split
      · exact unchanged.setPhase isCall undelivered nofun rfl
      · exact unchanged.setPhase isCall undelivered nofun rfl
    · exact unchanged
  · exact unchanged

/-- A session whose find is under way does not go on by itself. -/
theorem askedSession_resume
    (kind : CallKind)
    (index : Nat) :
    (askedSession kind).step (.resume index) = askedSession kind := by
  cases index <;> rfl

/-- The only call of a session whose find is under way. -/
theorem askedSession_call
    {kind : CallKind}
    {index : Nat}
    {call : Call}
    (isCall : (askedSession kind).calls[index]? = some call) :
    index = 0 ∧ call = askedCall kind := by
  cases index with
  | zero =>
      exact ⟨rfl, (Option.some.inj isCall).symm⟩
  | succ index =>
      cases isCall

/-- The first read asks the server. -/
theorem start_read
    {kind : CallKind}
    (isRead : kind ≠ .close) :
    Session.start.step (.call kind) = askedSession kind := by
  cases kind with
  | close =>
      exact absurd rfl isRead
  | _ =>
      rfl

/-- A read while the first find is under way sends another one. -/
theorem asked_read
    {kind other : CallKind}
    (isRead : other ≠ .close) :
    ((askedSession kind).step (.call other)).sent = [.find, .find] := by
  cases other with
  | close =>
      exact absurd rfl isRead
  | _ =>
      rfl

/-- What the server makes of the first find. -/
theorem Serves.find_total
    {sequence : List Document}
    {reply : Reply}
    {live after : List (Nat × List Document)}
    (none : live = [])
    (serves : Serves sequence live .find reply after) :
    ∃ batch,
      Carries reply batch ∧
        (batch.documents : Multiset Document) +
            (after.flatMap Prod.snd : List Document) ≤
          (sequence : Multiset Document) := by
  cases serves with
  | findAll carries =>
      refine ⟨_, carries, le_of_eq ?_⟩
      rw [none]
      exact add_zero _
  | @findSome _ _ cursorId first rest same _ carries =>
      refine ⟨_, carries, le_of_eq ?_⟩
      rw [same, none]
      simp

/-- The only entry of a list. -/
theorem around_eq_singleton
    {α : Type}
    {before behind : List α}
    {entry other : α}
    (same : before ++ entry :: behind = [other]) :
    before = [] ∧ entry = other ∧ behind = [] := by
  cases before with
  | nil =>
      exact ⟨rfl, List.cons.inj same⟩
  | cons first rest =>
      simp at same

/-- The reply to the first find makes the results known. -/
theorem Known.first
    {sequence : List Document}
    {kind : CallKind}
    {live : List (Nat × List Document)}
    {reply : Reply}
    {batch : CursorBatch}
    (carries : Carries reply batch)
    (total :
      (batch.documents : Multiset Document) +
          (live.flatMap Prod.snd : List Document) ≤
        (sequence : Multiset Document)) :
    Known sequence
      { session := (askedSession kind).step (.reply 0 reply)
        live := live
        transit := [] ++ [] } := by
  have received :
      (askedSession kind).step (.reply 0 reply) =
        { cursor := FindCursor.new.accept batch
          calls := [{ askedCall kind with phase := .fetched }]
          sent := [.find]
          received := [(.find, batch)] } := by
    obtain ⟨value, rfl, parses⟩ := carries
    change (askedSession kind).receive 0 (askedCall kind) (.ok value) = _
    rw [Session.receive, show (askedCall kind).phase = .fetching .find from rfl]
    dsimp only
    rw [show (Except.ok value >>= parseBatch) = parseBatch value from rfl,
      parses]
    rfl
  rw [received]
  refine ⟨?_, rfl, ?_, ?_⟩
  · exact ofBatch_ne_unknown batch
  · intro call member
    obtain rfl := List.mem_singleton.mp member
    nofun
  · refine le_of_eq_of_le ?_ total
    unfold Exchange.total
    change
      (0 : Multiset Document) + (batch.documents : Multiset Document) + 0 +
        _ = _
    rw [zero_add, add_zero]
    rfl

/-- Every step without a read during a find leads to a further stage. -/
theorem Stage.step
    {sequence : List Document}
    {exchange after : Exchange}
    {action : Action}
    (stage : Stage sequence exchange)
    (steps : exchange.Step sequence action after)
    (alone :
      ∀ kind, action = .read kind →
        ∀ call ∈ exchange.session.calls, call.phase ≠ .fetching .find) :
    Stage sequence after := by
  cases stage with
  | fresh same =>
      cases steps with
      | read isRead =>
          subst same
          exact .asked _ (start_read isRead) rfl rfl
      | serve isCall =>
          subst same
          cases isCall
      | arrive =>
          have none := congrArg Exchange.transit same
          simp [Exchange.start] at none
      | resume =>
          subst same
          exact .fresh rfl
  | asked kind session transit live =>
      cases steps with
      | @read _ other isRead =>
          exact absurd rfl (alone other rfl (askedCall kind) (by
            rw [session]
            exact List.mem_singleton_self _))
      | serve isCall fetches _ serves =>
          rw [session] at isCall
          obtain ⟨rfl, rfl⟩ := askedSession_call isCall
          obtain rfl := Phase.fetching.inj fetches
          obtain ⟨batch, carries, total⟩ := serves.find_total live
          refine .replied kind session _ batch carries ?_ total
          dsimp only
          rw [transit]
          rfl
      | arrive =>
          dsimp only at transit
          simp at transit
      | resume =>
          refine .asked kind ?_ transit live
          dsimp only
          rw [session, askedSession_resume]
  | replied kind session reply batch carries transit total =>
      cases steps with
      | @read _ other isRead =>
          exact absurd rfl (alone other rfl (askedCall kind) (by
            rw [session]
            exact List.mem_singleton_self _))
      | serve isCall _ unserved _ =>
          rw [session] at isCall
          obtain ⟨rfl, -⟩ := askedSession_call isCall
          rw [transit] at unserved
          simp at unserved
      | @arrive _ _ before behind index other =>
          obtain ⟨rfl, same, rfl⟩ := around_eq_singleton transit
          obtain ⟨rfl, rfl⟩ := Prod.mk.inj same
          dsimp only at session
          subst session
          exact .known (Known.first carries total)
      | resume =>
          refine .replied kind ?_ reply batch carries transit total
          dsimp only
          rw [session, askedSession_resume]
  | known known =>
      cases steps with
      | read isRead =>
          exact .known (known.read isRead)
      | serve isCall fetches _ serves =>
          exact .known (known.serve isCall fetches serves)
      | arrive =>
          exact .known known.arrive
      | resume =>
          exact .known (known.resume _)

/-- A read while a find is under way sends a second one. -/
theorem Stage.not_nothingRepeated
    {sequence : List Document}
    {exchange after : Exchange}
    {kind : CallKind}
    {call : Call}
    (stage : Stage sequence exchange)
    (steps : exchange.Step sequence (.read kind) after)
    (member : call ∈ exchange.session.calls)
    (fetches : call.phase = .fetching .find) :
    ¬ NothingRepeated sequence after := by
  have twice
      {other : CallKind}
      (session : exchange.session = askedSession other) :
      ¬ NothingRepeated sequence after := by
    rintro ⟨once, -⟩
    cases steps with
    | read isRead =>
        dsimp only at once
        rw [session, asked_read isRead] at once
        exact absurd once (by decide)
  cases stage with
  | fresh same =>
      subst same
      cases member
  | asked _ session _ _ =>
      exact twice session
  | replied _ session _ _ _ _ _ =>
      exact twice session
  | known known =>
      exact absurd fetches (known.fetches call member)

/-- A run from any stage repeats nothing just when every find is alone. -/
theorem Stage.run
    {sequence : List Document}
    {exchange : Exchange}
    {steps : List (Action × Exchange)}
    (stage : Stage sequence exchange)
    (run : IsRun sequence exchange steps) :
    (∀ entry ∈ steps, NothingRepeated sequence entry.2) ↔
      FindAlone exchange steps := by
  induction steps generalizing exchange with
  | nil =>
      exact ⟨fun _ => trivial, fun _ => nofun⟩
  | cons entry rest inductionHypothesis =>
      obtain ⟨action, after⟩ := entry
      obtain ⟨steps, run⟩ := run
      constructor
      · intro nothing
        have alone :
            ∀ kind, action = .read kind →
              ∀ call ∈ exchange.session.calls,
                call.phase ≠ .fetching .find := by
          rintro kind rfl call member fetches
          exact stage.not_nothingRepeated steps member fetches
            (nothing _ List.mem_cons_self)
        refine ⟨alone, (inductionHypothesis (stage.step steps alone) run).mp ?_⟩
        intro entry member
        exact nothing entry (List.mem_cons_of_mem _ member)
      · rintro ⟨alone, restAlone⟩
        have further := stage.step steps alone
        intro entry member
        rcases List.mem_cons.mp member with rfl | later
        · exact further.nothingRepeated
        · exact (inductionHypothesis further run).mpr restAlone entry later

/--
In every run with a correct server, overlapping reads send one find and repeat
no document just when no read starts while a find is under way.
-/
theorem reads_repeat_nothing_iff
    {sequence : List Document}
    {steps : List (Action × Exchange)}
    (run : IsRun sequence .start steps) :
    (∀ entry ∈ steps, NothingRepeated sequence entry.2) ↔
      FindAlone .start steps :=
  Stage.run (.fresh rfl) run

/-- The only document of a collection. -/
def onlyDocument : Document :=
  [(utf16 "_id", .customId ⟨List.replicate 16 1, List.length_replicate⟩)]

/-- The reply to a find in a collection with one document. -/
def onlyReply : Reply :=
  .ok (.document (toBatchDocument
    { cursorId := none, documents := [onlyDocument] }))

/-- The reply carries the document and ends the results. -/
theorem onlyReply_carries :
    Carries onlyReply { cursorId := none, documents := [onlyDocument] } :=
  ⟨_, rfl, rfl⟩

/-- An exchange behind some events, with replies on their way. -/
def exchangeAfter
    (events : List Event)
    (transit : List (Nat × Reply)) : Exchange where
  session := Session.start.run events
  live := []
  transit := transit

/-- Two reads that overlap behind the reply to the find. -/
theorem reads_repeat_nothing_behind_reply :
    let last :=
      exchangeAfter
        [.call .next, .reply 0 onlyReply, .call .next, .resume 0, .resume 0,
          .resume 1] []
    NothingRepeated [onlyDocument] last ∧
      last.session.delivered = [onlyDocument] := by
  intro last
  have nothing :=
    (@reads_repeat_nothing_iff [onlyDocument]
      [(.read .next, exchangeAfter [.call .next] []),
        (.serve 0, exchangeAfter [.call .next] [(0, onlyReply)]),
        (.arrive 0, exchangeAfter [.call .next, .reply 0 onlyReply] []),
        (.read .next,
          exchangeAfter [.call .next, .reply 0 onlyReply, .call .next] []),
        (.resume 0,
          exchangeAfter
            [.call .next, .reply 0 onlyReply, .call .next, .resume 0] []),
        (.resume 0,
          exchangeAfter
            [.call .next, .reply 0 onlyReply, .call .next, .resume 0,
              .resume 0] []),
        (.resume 1, last)]
      ⟨.read nofun, .serve rfl rfl nofun (.findAll onlyReply_carries),
        @Exchange.Step.arrive _ _ _ [] [] _ _, .read nofun, .resume, .resume,
        .resume, trivial⟩).mpr
      ⟨fun _ _ => nofun, nofun, nofun, by
        refine ⟨?_, nofun, nofun, nofun, trivial⟩
        intro kind _
        decide +kernel⟩
  exact ⟨nothing (.resume 1, last) (by simp), by decide +kernel⟩

/-- Two reads of a new cursor send two finds and return one document twice. -/
theorem not_reads_repeat_nothing_from_start :
    ¬ ∀ sequence steps,
      IsRun sequence .start steps →
        ∀ entry ∈ steps, NothingRepeated sequence entry.2 := by
  intro claimed
  let both : List Event :=
    [.call .next, .call .next, .reply 0 onlyReply, .reply 1 onlyReply]
  let last :=
    exchangeAfter
      (both ++ [.resume 0, .resume 0, .resume 1, .resume 1]) []
  have nothing :=
    claimed [onlyDocument]
      [(.read .next, exchangeAfter [.call .next] []),
        (.read .next, exchangeAfter [.call .next, .call .next] []),
        (.serve 0,
          exchangeAfter [.call .next, .call .next] [(0, onlyReply)]),
        (.serve 1,
          exchangeAfter [.call .next, .call .next]
            [(0, onlyReply), (1, onlyReply)]),
        (.arrive 0,
          exchangeAfter [.call .next, .call .next, .reply 0 onlyReply]
            [(1, onlyReply)]),
        (.arrive 1, exchangeAfter both []),
        (.resume 0, exchangeAfter (both ++ [.resume 0]) []),
        (.resume 0, exchangeAfter (both ++ [.resume 0, .resume 0]) []),
        (.resume 1,
          exchangeAfter (both ++ [.resume 0, .resume 0, .resume 1]) []),
        (.resume 1, last)]
      ⟨.read nofun, .read nofun,
        .serve rfl rfl nofun (.findAll onlyReply_carries),
        .serve rfl rfl (by simp [exchangeAfter])
          (.findAll onlyReply_carries),
        @Exchange.Step.arrive _ _ _ [] [(1, onlyReply)] _ _,
        @Exchange.Step.arrive _ _ _ [] [] _ _,
        .resume, .resume, .resume, .resume, trivial⟩
      (.resume 1, last) (by simp)
  have returned : last.session.delivered = [onlyDocument, onlyDocument] := by
    decide +kernel
  have subperm := nothing.2
  rw [returned] at subperm
  exact absurd subperm.length_le (by decide)

end SinterDb.Driver
