import SinterDb.Server.CursorManager

namespace SinterDb

/-!
# Runs of cursors

A cursor over a finite sequence returns the sequence in order, whatever the
sizes of its batches and whatever happens to other cursors meanwhile.
-/

/-- The iterator of a finite sequence of documents. -/
def nextOf : List Document → Option Document × List Document
  | [] => (none, [])
  | document :: documents => (some document, documents)

/-- What a cursor has not returned yet. -/
def CursorState.pending (state : CursorState (List Document)) :
    List Document :=
  state.buffered.toList ++ state.iterator

/-- What a batch takes from the documents that were pending. -/
structure Takes
    (pending : List Document)
    (room : Nat)
    (taken : List Document)
    (state : CursorState (List Document)) : Prop where
  pending_eq : pending = taken ++ state.pending
  length_le : taken.length ≤ room
  nonempty : 0 < room → state.pending ≠ [] → taken ≠ []
  exhausted_iff : state.exhausted = true ↔ state.pending = []

/-- A cursor is exhausted when nothing is pending. -/
theorem Takes.isExhausted_iff
    {pending taken : List Document}
    {room : Nat}
    {state : CursorState (List Document)}
    (takes : Takes pending room taken state) :
    state.isExhausted = true ↔ state.pending = [] := by
  rw [CursorState.isExhausted, Bool.and_eq_true, takes.exhausted_iff]
  constructor
  · exact And.left
  · intro nothing
    refine ⟨nothing, ?_⟩
    rw [CursorState.pending, List.append_eq_nil_iff,
      Option.toList_eq_nil_iff] at nothing
    rw [nothing.1]
    rfl

/-- The look-ahead takes no document out of what is pending. -/
theorem lookAhead_takes
    {state : CursorState (List Document)}
    (unbuffered : state.buffered = none)
    (active : state.exhausted = false) :
    Takes state.iterator 0 [] (lookAhead nextOf state) := by
  unfold lookAhead
  cases rest : state.iterator with
  | nil =>
      constructor <;> simp [nextOf, CursorState.pending, unbuffered]
  | cons document documents =>
      constructor <;> simp [nextOf, CursorState.pending, active]

/-- What the loop adds to the documents that the batch already has. -/
theorem takeLoop_takes
    {maxBatchBytes room bytes : Nat}
    {state : CursorState (List Document)}
    {documents : List Document}
    (unbuffered : state.buffered = none)
    (active : state.exhausted = false) :
    ∃ taken,
      (takeLoop nextOf maxBatchBytes room state documents bytes).1 =
          documents ++ taken ∧
        taken.length ≤ room ∧
        (0 < room → documents = [] → state.iterator ≠ [] → taken ≠ []) ∧
        Takes state.iterator taken.length taken
          (takeLoop nextOf maxBatchBytes room state documents bytes).2 := by
  induction room generalizing state documents bytes with
  | zero =>
      refine ⟨[], ?_, Nat.le_refl 0, ?_, lookAhead_takes unbuffered active⟩
      · rw [takeLoop, List.append_nil]
      · intro positive
        exact absurd positive (Nat.lt_irrefl 0)
  | succ room inductionHypothesis =>
      rw [takeLoop]
      cases rest : state.iterator with
      | nil =>
          refine ⟨[], ?_, Nat.zero_le _, ?_, ?_⟩
          · simp [nextOf]
          · simp
          · constructor <;> simp [nextOf, CursorState.pending, unbuffered]
      | cons document iterator =>
          simp only [nextOf]
          split_ifs with overflows
          · refine ⟨[], (List.append_nil _).symm, Nat.zero_le _, ?_, ?_⟩
            · rintro - rfl
              exact absurd overflows.1 (Nat.lt_irrefl 0)
            · constructor <;> simp [CursorState.pending, active]
          · obtain ⟨taken, same, bounded, -, takes⟩ :=
              @inductionHypothesis
                (bytes + estimateEncodedSize (.document document))
                { state with iterator := iterator }
                (documents ++ [document]) unbuffered active
            refine ⟨document :: taken, ?_, ?_, ?_, ?_⟩
            · rw [same, List.append_assoc, List.singleton_append]
            · rw [List.length_cons]
              omega
            · simp
            · constructor
              · rw [List.cons_append, ← takes.pending_eq]
              · exact Nat.le_refl _
              · simp
              · exact takes.exhausted_iff

/-- What a batch takes from a cursor. -/
theorem takeBatch_takes
    {state : CursorState (List Document)}
    {batchSize maxBatchBytes : Nat}
    (active : state.exhausted = false)
    (positive : 0 < batchSize) :
    Takes state.pending batchSize
      (takeBatch nextOf state batchSize maxBatchBytes).1
      (takeBatch nextOf state batchSize maxBatchBytes).2 := by
  unfold takeBatch
  cases buffered : state.buffered with
  | none =>
      obtain ⟨taken, same, bounded, nonempty, takes⟩ :=
        @takeLoop_takes maxBatchBytes batchSize 0 state [] buffered active
      dsimp only
      rw [same, List.nil_append]
      constructor
      · rw [CursorState.pending, buffered]
        exact takes.pending_eq
      · exact bounded
      · intro _ remains
        refine nonempty positive rfl ?_
        rw [takes.pending_eq]
        simp [remains]
      · exact takes.exhausted_iff
  | some document =>
      obtain ⟨taken, same, bounded, -, takes⟩ :=
        @takeLoop_takes maxBatchBytes (batchSize - 1)
          (estimateEncodedSize (.document document))
          { state with buffered := none } [document] rfl active
      dsimp only
      rw [same, List.singleton_append]
      constructor
      · rw [CursorState.pending, buffered, Option.toList_some,
          List.singleton_append, List.cons_append]
        exact congrArg (document :: ·) takes.pending_eq
      · rw [List.length_cons]
        omega
      · simp
      · exact takes.exhausted_iff

/-- A positive integer that a caller may pass is taken as it is. -/
theorem positiveSafeInteger?_ofInt
    {value : Nat}
    (positive : 0 < value)
    (bound : value ≤ maxSafeInteger) :
    positiveSafeInteger? (.ofInt value) = some value := by
  unfold maxSafeInteger at bound
  have whole : (JsNumber.ofInt value).toInt? = some (value : Int) :=
    (JsNumber.toInt_ofInt (by simp; omega)).1
  have safe : (JsNumber.ofInt value).isSafeInteger = true := by
    rw [JsNumber.isSafeInteger, whole]
    simp only [decide_eq_true_eq]
    omega
  rw [positiveSafeInteger?, whole]
  simp only
  rw [if_pos ⟨safe, by omega⟩, Int.toNat_natCast]

namespace CursorManager

/-- A cursor that no sweep at the given time removes. -/
def Unexpired
    {σ : Type}
    (manager : CursorManager σ)
    (cursorId : Nat)
    (time : Int) : Prop :=
  ∀ state,
    manager.cursors.get? cursorId = some state →
      manager.isExpired time state = false

/-- The cursors that the loop of a sweep leaves. -/
theorem mem_entries_sweepLoop
    {σ : Type}
    {expired : CursorState σ → Bool}
    {visited : List (Nat × CursorState σ)}
    {cursors : JsMap Nat (CursorState σ)}
    {removed : Nat}
    (present : ∀ entry ∈ visited, entry ∈ cursors.entries)
    (distinct : (visited.map Prod.fst).Nodup)
    {entry : Nat × CursorState σ} :
    entry ∈ (sweepLoop expired visited cursors removed).1.entries ↔
      entry ∈ cursors.entries ∧
        ¬ (entry ∈ visited ∧ expired entry.2 = true) := by
  induction visited generalizing cursors removed with
  | nil =>
      simp [sweepLoop]
  | cons first rest inductionHypothesis =>
      obtain ⟨cursorId, state⟩ := first
      rw [List.map_cons, List.nodup_cons] at distinct
      rw [List.forall_mem_cons] at present
      have other : ∀ kept ∈ rest, kept.1 ≠ cursorId := by
        intro kept member same
        exact distinct.1 (List.mem_map.mpr ⟨kept, member, same⟩)
      rw [sweepLoop]
      split_ifs with stale
      · rw [inductionHypothesis
          (fun kept member =>
            JsMap.mem_entries_delete.mpr
              ⟨other kept member, present.2 kept member⟩)
          distinct.2, JsMap.mem_entries_delete, List.mem_cons]
        constructor
        · rintro ⟨⟨different, member⟩, kept⟩
          refine ⟨member, ?_⟩
          rintro ⟨rfl | later, isStale⟩
          · exact different rfl
          · exact kept ⟨later, isStale⟩
        · rintro ⟨member, kept⟩
          refine ⟨⟨?_, member⟩, fun later => kept ⟨.inr later.1, later.2⟩⟩
          intro same
          have held : cursors.get? cursorId = some entry.2 :=
            JsMap.get?_eq_some.mpr (same ▸ member)
          have shape : entry = (cursorId, state) := by
            rw [JsMap.get?_eq_some.mpr present.1, Option.some.injEq] at held
            exact Prod.ext same held.symm
          exact kept ⟨.inl shape, by rw [shape]; exact stale⟩
      · rw [inductionHypothesis present.2 distinct.2, List.mem_cons]
        refine and_congr_right fun _ => not_congr ?_
        constructor
        · rintro ⟨later, isStale⟩
          exact ⟨.inr later, isStale⟩
        · rintro ⟨rfl | later, isStale⟩
          · exact absurd isStale stale
          · exact ⟨later, isStale⟩

/-- A sweep leaves the cursors that are not expired. -/
theorem mem_entries_sweepExpired
    {σ : Type}
    {manager : CursorManager σ}
    {time : Int}
    {entry : Nat × CursorState σ} :
    entry ∈ (manager.sweepExpired time).2.cursors.entries ↔
      entry ∈ manager.cursors.entries ∧
        manager.isExpired time entry.2 = false := by
  unfold sweepExpired
  rw [mem_entries_sweepLoop (fun _ member => member) manager.cursors.distinct]
  refine and_congr_right fun member => ?_
  simp [member]

/-- A sweep keeps a cursor that is not expired. -/
theorem get?_sweepExpired
    {σ : Type}
    {manager : CursorManager σ}
    {cursorId : Nat}
    {state : CursorState σ}
    {time : Int}
    (present : manager.cursors.get? cursorId = some state)
    (unexpired : manager.Unexpired cursorId time) :
    (manager.sweepExpired time).2.cursors.get? cursorId = some state := by
  rw [JsMap.get?_eq_some, mem_entries_sweepExpired]
  exact ⟨JsMap.get?_eq_some.mp present, unexpired state present⟩

/-- The numbers of a manager are cursor IDs. -/
structure Numbered {σ : Type} (manager : CursorManager σ) : Prop where
  next_pos : 0 < manager.nextCursorId
  next_le : manager.nextCursorId ≤ maxSafeInteger
  keys_pos : ∀ cursorId ∈ manager.cursors.keys, 0 < cursorId
  keys_le : ∀ cursorId ∈ manager.cursors.keys, cursorId ≤ maxSafeInteger

/-- The cursor ID that stands a number of places behind the first one. -/
def idBehind (first places : Nat) : Nat :=
  (first - 1 + places) % maxSafeInteger + 1

/-- Advancing goes one place on. -/
theorem advanceCursorId_idBehind (first places : Nat) :
    advanceCursorId (idBehind first places) = idBehind first (places + 1) := by
  unfold advanceCursorId idBehind maxSafeInteger
  split_ifs <;> omega

/-- When the search fails, all cursor IDs from its place on are taken. -/
theorem has_of_allocateLoop_none
    {σ : Type}
    {cursors : JsMap Nat (CursorState σ)}
    {first : Nat}
    (positive : 0 < first)
    (bound : first ≤ maxSafeInteger)
    {rounds places : Nat}
    (total : places + rounds = maxSafeInteger)
    (fails :
      allocateLoop cursors first rounds (idBehind first places) = none)
    {place : Nat}
    (behind : places ≤ place)
    (inside : place < maxSafeInteger) :
    cursors.has (idBehind first place) = true := by
  induction rounds generalizing places with
  | zero =>
      omega
  | succ rounds inductionHypothesis =>
      rw [allocateLoop, advanceCursorId_idBehind] at fails
      split_ifs at fails with taken around
      · obtain rfl | later := Nat.eq_or_lt_of_le behind
        · exact taken
        · unfold idBehind maxSafeInteger at *
          omega
      · obtain rfl | later := Nat.eq_or_lt_of_le behind
        · exact taken
        · exact inductionHypothesis (by omega) fails later

/-- The search finds a cursor ID that is not taken. -/
theorem allocateLoop_some
    {σ : Type}
    {cursors : JsMap Nat (CursorState σ)}
    {first : Nat}
    {rounds place cursorId : Nat}
    (finds :
      allocateLoop cursors first rounds (idBehind first place) =
        some cursorId) :
    cursors.get? cursorId = none ∧
      0 < cursorId ∧ cursorId ≤ maxSafeInteger := by
  induction rounds generalizing place with
  | zero =>
      cases finds
  | succ rounds inductionHypothesis =>
      rw [allocateLoop, advanceCursorId_idBehind] at finds
      split_ifs at finds with taken around
      · exact inductionHypothesis finds
      · obtain rfl := Option.some.inj finds
        rw [JsMap.has_eq_isSome, Bool.not_eq_true,
          Option.isSome_eq_false_iff, Option.isNone_iff_eq_none] at taken
        refine ⟨taken, Nat.succ_pos _, ?_⟩
        unfold idBehind maxSafeInteger
        omega

/-- Every cursor ID stands somewhere behind the first one. -/
theorem exists_idBehind
    {first cursorId : Nat}
    (positive : 0 < first)
    (bound : first ≤ maxSafeInteger)
    (isPositive : 0 < cursorId)
    (isBounded : cursorId ≤ maxSafeInteger) :
    ∃ place, place < maxSafeInteger ∧ idBehind first place = cursorId := by
  refine ⟨(cursorId + maxSafeInteger - first) % maxSafeInteger, ?_, ?_⟩
  · exact Nat.mod_lt _ (by decide)
  · unfold idBehind maxSafeInteger at *
    omega

/-- When the search fails, there are as many cursors as cursor IDs. -/
theorem full_of_allocateLoop_none
    {σ : Type}
    {cursors : JsMap Nat (CursorState σ)}
    {first : Nat}
    (positive : 0 < first)
    (bound : first ≤ maxSafeInteger)
    (fails : allocateLoop cursors first maxSafeInteger first = none) :
    maxSafeInteger ≤ cursors.size := by
  have start : idBehind first 0 = first := by
    unfold idBehind maxSafeInteger at *
    omega
  have taken : Finset.Icc 1 maxSafeInteger ⊆ cursors.keys.toFinset := by
    intro cursorId member
    rw [Finset.mem_Icc] at member
    obtain ⟨place, inside, rfl⟩ :=
      exists_idBehind positive bound member.1 member.2
    rw [List.mem_toFinset, ← JsMap.has_iff]
    exact has_of_allocateLoop_none positive bound (Nat.zero_add _)
      (by rw [start]; exact fails) (Nat.zero_le _) inside
  have counted := Finset.card_le_card taken
  rw [Nat.card_Icc, List.toFinset_card_of_nodup cursors.nodup_keys,
    JsMap.keys, List.length_map] at counted
  exact counted

/-- What `allocateCursorId` can do. -/
theorem allocateCursorId_cases
    {σ : Type}
    {manager : CursorManager σ}
    (numbered : manager.Numbered) :
    (manager.allocateCursorId = (.error .noCursorIds, manager) ∧
      maxSafeInteger ≤ manager.cursors.size) ∨
    ∃ cursorId,
      manager.allocateCursorId =
          (.ok cursorId,
            { manager with nextCursorId := advanceCursorId cursorId }) ∧
        manager.cursors.get? cursorId = none ∧
        0 < cursorId ∧ cursorId ≤ maxSafeInteger := by
  have positive := numbered.next_pos
  have bound := numbered.next_le
  have start : idBehind manager.nextCursorId 0 = manager.nextCursorId := by
    unfold idBehind maxSafeInteger at *
    omega
  unfold allocateCursorId
  cases found : allocateLoop manager.cursors manager.nextCursorId
      maxSafeInteger manager.nextCursorId with
  | none =>
      exact .inl ⟨rfl, full_of_allocateLoop_none positive bound found⟩
  | some cursorId =>
      refine .inr ⟨cursorId, rfl, ?_⟩
      exact
        @allocateLoop_some σ manager.cursors manager.nextCursorId
          maxSafeInteger 0 cursorId (by rw [start]; exact found)

/-- The cursors of a manager after a step come from before or have a number. -/
theorem Numbered.of_keys
    {σ : Type}
    {manager later : CursorManager σ}
    (numbered : manager.Numbered)
    (next : 0 < later.nextCursorId ∧ later.nextCursorId ≤ maxSafeInteger)
    (keys :
      ∀ cursorId ∈ later.cursors.keys,
        cursorId ∈ manager.cursors.keys ∨
          0 < cursorId ∧ cursorId ≤ maxSafeInteger) :
    later.Numbered where
  next_pos := next.1
  next_le := next.2
  keys_pos cursorId member :=
    (keys cursorId member).elim (numbered.keys_pos cursorId) And.left
  keys_le cursorId member :=
    (keys cursorId member).elim (numbered.keys_le cursorId) And.right

/-- A sweep adds no cursor. -/
theorem mem_keys_of_sweepExpired
    {σ : Type}
    {manager : CursorManager σ}
    {time : Int}
    {cursorId : Nat}
    (member : cursorId ∈ (manager.sweepExpired time).2.cursors.keys) :
    cursorId ∈ manager.cursors.keys := by
  obtain ⟨entry, inside, rfl⟩ := List.mem_map.mp member
  exact List.mem_map.mpr
    ⟨entry, (mem_entries_sweepExpired.mp inside).1, rfl⟩

/-- A sweep does not raise the number of cursors. -/
theorem size_sweepExpired_le
    {σ : Type}
    (manager : CursorManager σ)
    (time : Int) :
    (manager.sweepExpired time).2.cursors.size ≤ manager.cursors.size := by
  have fewer :
      (manager.sweepExpired time).2.cursors.keys.Subperm
        manager.cursors.keys :=
    (JsMap.nodup_keys _).subperm fun _ => mem_keys_of_sweepExpired
  simpa [JsMap.keys, JsMap.size] using fewer.length_le

/-- A sweep keeps the numbers of a manager. -/
theorem Numbered.sweepExpired
    {σ : Type}
    {manager : CursorManager σ}
    (numbered : manager.Numbered)
    (time : Int) :
    (manager.sweepExpired time).2.Numbered :=
  numbered.of_keys ⟨numbered.next_pos, numbered.next_le⟩
    fun _ member => .inl (mem_keys_of_sweepExpired member)

/-- The next number after an allocation is a cursor ID. -/
theorem advanceCursorId_bounds
    {cursorId : Nat}
    (bound : cursorId ≤ maxSafeInteger) :
    0 < advanceCursorId cursorId ∧
      advanceCursorId cursorId ≤ maxSafeInteger := by
  unfold advanceCursorId maxSafeInteger at *
  split_ifs <;> omega

/-- The state of a cursor before its first batch. -/
def freshState {σ : Type} (documents : σ) (useTime : Int) : CursorState σ where
  iterator := documents
  buffered := none
  exhausted := false
  lastUsed := useTime

/-- What `open` can do with a valid batch size. -/
theorem openCursor_cases
    {σ : Type}
    {next : σ → Option Document × σ}
    {manager : CursorManager σ}
    (numbered : manager.Numbered)
    {documents : σ}
    {batchSize : JsNumber}
    {size : Nat}
    (valid : positiveSafeInteger? batchSize = some size)
    {sweepTime useTime : Int} :
    let swept := (manager.sweepExpired sweepTime).2
    let taken :=
      takeBatch next (freshState documents useTime) size manager.maxBatchBytes
    let opened :=
      manager.openCursor next documents batchSize sweepTime useTime
    (taken.2.isExhausted = true ∧
      opened = (.ok { cursorId := none, documents := taken.1 }, swept)) ∨
    (maxSafeInteger ≤ manager.cursors.size ∧
      opened = (.error .noCursorIds, swept)) ∨
    (taken.2.isExhausted = false ∧
      ∃ cursorId,
        swept.cursors.get? cursorId = none ∧
          0 < cursorId ∧ cursorId ≤ maxSafeInteger ∧
          opened =
            (.ok { cursorId := some cursorId, documents := taken.1 },
              { swept with
                nextCursorId := advanceCursorId cursorId
                cursors := swept.cursors.set cursorId taken.2 })) := by
  intro swept taken opened
  have opens : opened = manager.openCursor next documents batchSize sweepTime
      useTime := rfl
  simp only [openCursor, validateBatchSize, valid] at opens
  cases exhausted : taken.2.isExhausted with
  | true =>
      exact .inl ⟨rfl, opens.trans (if_pos exhausted)⟩
  | false =>
      have isOpen : ¬ taken.2.isExhausted = true :=
        ne_true_of_eq_false exhausted
      have opens := opens.trans (if_neg isOpen)
      obtain ⟨fails, full⟩ | ⟨cursorId, finds, free, positive, bound⟩ :=
        allocateCursorId_cases (numbered.sweepExpired sweepTime)
      · rw [fails] at opens
        refine .inr (.inl ⟨?_, opens⟩)
        exact full.trans (size_sweepExpired_le manager sweepTime)
      · rw [finds] at opens
        exact .inr (.inr ⟨rfl, cursorId, free, positive, bound, opens⟩)

/-- What `getMore` does with valid arguments. -/
theorem getMore_of_valid
    {σ : Type}
    {next : σ → Option Document × σ}
    {manager : CursorManager σ}
    {cursorNumber batchSize : JsNumber}
    {cursorId size : Nat}
    (validId : positiveSafeInteger? cursorNumber = some cursorId)
    (valid : positiveSafeInteger? batchSize = some size)
    {sweepTime useTime : Int} :
    manager.getMore next cursorNumber batchSize sweepTime useTime =
      let swept := (manager.sweepExpired sweepTime).2
      match swept.cursors.get? cursorId with
      | none => (.error (.cursorNotFound cursorId), swept)
      | some state =>
          let taken :=
            takeBatch next { state with lastUsed := useTime } size
              manager.maxBatchBytes
          if taken.2.isExhausted then
            (.ok { cursorId := none, documents := taken.1 },
              { swept with cursors := swept.cursors.delete cursorId })
          else
            (.ok { cursorId := some cursorId, documents := taken.1 },
              { swept with
                cursors := swept.cursors.set cursorId taken.2 }) := by
  simp only [getMore, validateCursorId, validateBatchSize, validId, valid]
  rfl

/-- A call of a method, with the clock that it reads. -/
inductive Call where
  | openCursor
      (documents : List Document)
      (batchSize : JsNumber)
      (sweepTime useTime : Int)
  | getMore (cursorId batchSize : JsNumber) (sweepTime useTime : Int)
  | close (cursorId : JsNumber)
  | sweepExpired (time : Int)

/-- The manager after a call. -/
def perform (manager : CursorManager (List Document)) :
    Call → CursorManager (List Document)
  | .openCursor documents batchSize sweepTime useTime =>
      (manager.openCursor nextOf documents batchSize sweepTime useTime).2
  | .getMore cursorId batchSize sweepTime useTime =>
      (manager.getMore nextOf cursorId batchSize sweepTime useTime).2
  | .close cursorId => (manager.close cursorId).2
  | .sweepExpired time => (manager.sweepExpired time).2

/-- The cursor that a call names. -/
def Call.cursorId? : Call → Option Nat
  | .getMore cursorId _ _ _ => positiveSafeInteger? cursorId
  | .close cursorId => positiveSafeInteger? cursorId
  | _ => none

/-- The time at which a call sweeps, unless it is refused before. -/
def Call.sweepTime? : Call → Option Int
  | .openCursor _ batchSize sweepTime _ =>
      (positiveSafeInteger? batchSize).map fun _ => sweepTime
  | .getMore cursorId batchSize sweepTime _ =>
      (positiveSafeInteger? cursorId).bind fun _ =>
        (positiveSafeInteger? batchSize).map fun _ => sweepTime
  | .close _ => none
  | .sweepExpired time => some time

/-- A number that is a positive safe integer is within the cursor IDs. -/
theorem positiveSafeInteger?_bounds
    {number : JsNumber}
    {value : Nat}
    (valid : positiveSafeInteger? number = some value) :
    0 < value ∧ value ≤ maxSafeInteger := by
  unfold positiveSafeInteger? at valid
  split at valid
  · rename_i whole integral
    split_ifs at valid with safe
    obtain rfl := Option.some.inj valid
    rw [JsNumber.isSafeInteger, integral] at safe
    simp only [decide_eq_true_eq] at safe
    unfold maxSafeInteger
    omega
  · cases valid

/-- Every call keeps the numbers of a manager. -/
theorem Numbered.perform
    {manager : CursorManager (List Document)}
    (numbered : manager.Numbered)
    (call : Call) :
    (manager.perform call).Numbered := by
  cases call with
  | openCursor documents batchSize sweepTime useTime =>
      have swept := numbered.sweepExpired sweepTime
      rw [CursorManager.perform]
      cases valid : positiveSafeInteger? batchSize with
      | none =>
          simpa [openCursor, validateBatchSize, valid] using numbered
      | some size =>
          obtain ⟨-, same⟩ | ⟨-, same⟩ |
              ⟨-, cursorId, -, positive, bound, same⟩ :=
            @openCursor_cases _ nextOf _ numbered documents _ _ valid
              sweepTime useTime
          · rw [same]
            exact swept
          · rw [same]
            exact swept
          · rw [same]
            refine swept.of_keys (advanceCursorId_bounds bound) ?_
            intro other member
            obtain rfl | old := JsMap.mem_keys_of_set member
            · exact .inr ⟨positive, bound⟩
            · exact .inl old
  | getMore cursorNumber batchSize sweepTime useTime =>
      have swept := numbered.sweepExpired sweepTime
      rw [CursorManager.perform]
      cases validId : positiveSafeInteger? cursorNumber with
      | none =>
          simpa [getMore, validateCursorId, validId] using numbered
      | some cursorId =>
          cases valid : positiveSafeInteger? batchSize with
          | none =>
              simpa [getMore, validateCursorId, validId, validateBatchSize,
                valid] using numbered
          | some size =>
              rw [getMore_of_valid validId valid]
              dsimp only
              split
              · exact swept
              · split_ifs
                · refine swept.of_keys ⟨swept.next_pos, swept.next_le⟩ ?_
                  intro other member
                  rw [JsMap.keys_delete, List.mem_filter] at member
                  exact .inl member.1
                · refine swept.of_keys ⟨swept.next_pos, swept.next_le⟩ ?_
                  intro other member
                  obtain rfl | old := JsMap.mem_keys_of_set member
                  · exact .inr (positiveSafeInteger?_bounds validId)
                  · exact .inl old
  | close cursorNumber =>
      rw [CursorManager.perform, close]
      split
      · exact numbered
      · refine numbered.of_keys ⟨numbered.next_pos, numbered.next_le⟩ ?_
        intro other member
        rw [JsMap.keys_delete, List.mem_filter] at member
        exact .inl member.1
  | sweepExpired time =>
      exact numbered.sweepExpired time

/-- A call for other cursors leaves a cursor that it does not expire. -/
theorem get?_perform
    {manager : CursorManager (List Document)}
    (numbered : manager.Numbered)
    {call : Call}
    {cursorId : Nat}
    {state : CursorState (List Document)}
    (present : manager.cursors.get? cursorId = some state)
    (elsewhere : call.cursorId? ≠ some cursorId)
    (unexpired :
      ∀ time, call.sweepTime? = some time → manager.Unexpired cursorId time) :
    (manager.perform call).cursors.get? cursorId = some state := by
  cases call with
  | openCursor documents batchSize sweepTime useTime =>
      rw [perform]
      cases valid : positiveSafeInteger? batchSize with
      | none =>
          simpa [openCursor, validateBatchSize, valid] using present
      | some size =>
          have kept :=
            get?_sweepExpired present
              (unexpired sweepTime (by simp [Call.sweepTime?, valid]))
          obtain ⟨-, same⟩ | ⟨-, same⟩ | ⟨-, fresh, free, -, -, same⟩ :=
            @openCursor_cases _ nextOf _ numbered documents _ _ valid
              sweepTime useTime
          · rw [same]
            exact kept
          · rw [same]
            exact kept
          · have different : cursorId ≠ fresh := by
              rintro rfl
              rw [free] at kept
              cases kept
            rw [same, JsMap.get?_set, if_neg different]
            exact kept
  | getMore cursorNumber batchSize sweepTime useTime =>
      rw [perform]
      cases validId : positiveSafeInteger? cursorNumber with
      | none =>
          simpa [getMore, validateCursorId, validId] using present
      | some other =>
          cases valid : positiveSafeInteger? batchSize with
          | none =>
              simpa [getMore, validateCursorId, validId, validateBatchSize,
                valid] using present
          | some size =>
              have kept :=
                get?_sweepExpired present
                  (unexpired sweepTime
                    (by simp [Call.sweepTime?, validId, valid]))
              have different : cursorId ≠ other := by
                rintro rfl
                exact elsewhere validId
              rw [getMore_of_valid validId valid]
              dsimp only
              split
              · exact kept
              · split_ifs
                · rw [JsMap.get?_delete, if_neg different]
                  exact kept
                · rw [JsMap.get?_set, if_neg different]
                  exact kept
  | close cursorNumber =>
      rw [perform, close, validateCursorId]
      cases validId : positiveSafeInteger? cursorNumber with
      | none =>
          exact present
      | some other =>
          have different : cursorId ≠ other := by
            rintro rfl
            exact elsewhere validId
          dsimp only
          rw [JsMap.get?_delete, if_neg different]
          exact present
  | sweepExpired time =>
      exact get?_sweepExpired present (unexpired time rfl)

/-- A turn of a run: the reader of a cursor takes a batch, or another call. -/
inductive Turn where
  | own (batchSize : Nat) (sweepTime useTime : Int)
  | other (call : Call)

/-- The number of batches that the reader asks for. -/
def ownTurns : List Turn → Nat
  | [] => 0
  | .own _ _ _ :: turns => ownTurns turns + 1
  | .other _ :: turns => ownTurns turns

/-- A reply with which a reader goes on. -/
def goesOn : Except CursorError CursorBatch → Bool
  | .ok batch => batch.cursorId.isSome
  | .error _ => false

/--
The replies that the reader of a cursor gets, with the batch sizes it asked
for, until one of them has no cursor ID.
-/
def drain (cursorId : Nat) :
    CursorManager (List Document) →
    List Turn →
    List (Nat × Except CursorError CursorBatch)
  | _, [] => []
  | manager, .other call :: turns =>
      drain cursorId (manager.perform call) turns
  | manager, .own batchSize sweepTime useTime :: turns =>
      let reply :=
        manager.getMore nextOf (.ofInt cursorId) (.ofInt batchSize) sweepTime
          useTime
      (batchSize, reply.1) ::
        if goesOn reply.1 then drain cursorId reply.2 turns else []

/--
The turns of a run have valid batch sizes, the other calls are for other
cursors, and no sweep comes when the cursor has expired.
-/
def Undisturbed (cursorId : Nat) :
    CursorManager (List Document) →
    List Turn →
    Prop
  | _, [] => True
  | manager, .other call :: turns =>
      call.cursorId? ≠ some cursorId ∧
        (∀ time,
          call.sweepTime? = some time → manager.Unexpired cursorId time) ∧
        Undisturbed cursorId (manager.perform call) turns
  | manager, .own batchSize sweepTime useTime :: turns =>
      let reply :=
        manager.getMore nextOf (.ofInt cursorId) (.ofInt batchSize) sweepTime
          useTime
      0 < batchSize ∧ batchSize ≤ maxSafeInteger ∧
        manager.Unexpired cursorId sweepTime ∧
        (goesOn reply.1 = true → Undisturbed cursorId reply.2 turns)

/-- The documents of batches, one batch after the other. -/
def returned (batches : List (Nat × CursorBatch)) : List Document :=
  batches.flatMap fun entry => entry.2.documents

/-- Batches, with the sizes asked for, that give a sequence back. -/
structure Delivers
    (documents : List Document)
    (batches : List (Nat × CursorBatch)) : Prop where
  in_order : returned batches <+: documents
  length_le : ∀ entry ∈ batches, entry.2.documents.length ≤ entry.1
  nonempty :
    ∀ entry ∈ batches, entry.2.cursorId ≠ none → entry.2.documents ≠ []
  null_iff :
    ∀ earlier entry later,
      batches = earlier ++ entry :: later →
        (entry.2.cursorId = none ↔
          returned (earlier ++ [entry]) = documents)

/-- Before the first batch nothing has been returned. -/
theorem Delivers.nil (documents : List Document) : Delivers documents [] where
  in_order := List.nil_prefix
  length_le := by simp
  nonempty := by simp
  null_iff := by simp

/-- A batch in front of the batches for the documents behind it. -/
theorem Delivers.cons
    {documents : List Document}
    {size : Nat}
    {batch : CursorBatch}
    {batches : List (Nat × CursorBatch)}
    (bounded : batch.documents.length ≤ size)
    (nonempty : batch.cursorId ≠ none → batch.documents ≠ [])
    (null_iff : batch.cursorId = none ↔ documents = [])
    (later : Delivers documents batches) :
    Delivers (batch.documents ++ documents) ((size, batch) :: batches) where
  in_order := by
    obtain ⟨rest, same⟩ := later.in_order
    exact ⟨rest, by rw [← same]; simp [returned]⟩
  length_le := List.forall_mem_cons.mpr ⟨bounded, later.length_le⟩
  nonempty := List.forall_mem_cons.mpr ⟨nonempty, later.nonempty⟩
  null_iff := by
    intro earlier entry behind split
    cases earlier with
    | nil =>
        obtain ⟨rfl, -⟩ := List.cons.inj split
        simpa [returned, eq_comm] using null_iff
    | cons first earlier =>
        obtain ⟨rfl, rest⟩ := List.cons.inj split
        rw [later.null_iff earlier entry behind rest]
        simp [returned]

/-- The last of the batches has no cursor ID. -/
def Finished (batches : List (Nat × CursorBatch)) : Prop :=
  ∃ last, batches.getLast? = some last ∧ last.2.cursorId = none

/-- A batch in front of finished batches. -/
theorem Finished.cons
    {batches : List (Nat × CursorBatch)}
    (finished : Finished batches)
    (entry : Nat × CursorBatch) :
    Finished (entry :: batches) := by
  obtain ⟨last, isLast, null⟩ := finished
  refine ⟨last, ?_, null⟩
  rw [List.getLast?_cons, isLast]
  rfl

/-- What the reader of a cursor gets when it asks for a batch. -/
theorem getMore_own
    {manager : CursorManager (List Document)}
    (numbered : manager.Numbered)
    {cursorId : Nat}
    {state : CursorState (List Document)}
    (present : manager.cursors.get? cursorId = some state)
    (active : state.exhausted = false)
    {batchSize : Nat}
    (positive : 0 < batchSize)
    (bound : batchSize ≤ maxSafeInteger)
    {sweepTime : Int}
    (unexpired : manager.Unexpired cursorId sweepTime)
    (useTime : Int) :
    ∃ taken later,
      Takes state.pending batchSize taken later ∧
        let reply :=
          manager.getMore nextOf (.ofInt cursorId) (.ofInt batchSize)
            sweepTime useTime
        (later.pending = [] ∧
            reply.1 = .ok { cursorId := none, documents := taken }) ∨
          (later.pending ≠ [] ∧
            reply.1 = .ok { cursorId := some cursorId, documents := taken } ∧
            reply.2.cursors.get? cursorId = some later) := by
  have member : cursorId ∈ manager.cursors.keys := by
    rw [← JsMap.has_iff, JsMap.has_eq_isSome, present]
    rfl
  have validId :=
    positiveSafeInteger?_ofInt (numbered.keys_pos _ member)
      (numbered.keys_le _ member)
  have valid := positiveSafeInteger?_ofInt positive bound
  have kept := get?_sweepExpired present unexpired
  have takes :=
    @takeBatch_takes { state with lastUsed := useTime } batchSize
      manager.maxBatchBytes active positive
  refine ⟨_, _, takes, ?_⟩
  rw [getMore_of_valid validId valid]
  simp only [kept]
  cases exhausted : (takeBatch nextOf { state with lastUsed := useTime }
      batchSize manager.maxBatchBytes).2.isExhausted with
  | true =>
      exact .inl ⟨takes.isExhausted_iff.mp exhausted, rfl⟩
  | false =>
      refine .inr ⟨?_, rfl, ?_⟩
      · intro nothing
        rw [takes.isExhausted_iff.mpr nothing] at exhausted
        cases exhausted
      · rw [if_neg Bool.false_ne_true, JsMap.get?_set, if_pos rfl]

/-- The replies of a run are the batches of its pending documents. -/
theorem drain_delivers
    {cursorId : Nat}
    {turns : List Turn}
    {manager : CursorManager (List Document)}
    (numbered : manager.Numbered)
    {state : CursorState (List Document)}
    (present : manager.cursors.get? cursorId = some state)
    (active : state.exhausted = false)
    (undisturbed : Undisturbed cursorId manager turns) :
    ∃ batches : List (Nat × CursorBatch),
      drain cursorId manager turns =
          batches.map (fun entry => (entry.1, .ok entry.2)) ∧
        Delivers state.pending batches ∧
        (state.pending.length ≤ ownTurns turns →
          state.pending ≠ [] → Finished batches) := by
  induction turns generalizing manager state with
  | nil =>
      refine ⟨[], rfl, Delivers.nil _, ?_⟩
      intro none nonempty
      exact absurd (List.length_eq_zero_iff.mp (Nat.le_zero.mp none)) nonempty
  | cons turn turns inductionHypothesis =>
      cases turn with
      | other call =>
          obtain ⟨elsewhere, unexpired, rest⟩ := undisturbed
          exact inductionHypothesis (numbered.perform call)
            (get?_perform numbered present elsewhere unexpired) active rest
      | own batchSize sweepTime useTime =>
          obtain ⟨positive, bound, unexpired, rest⟩ := undisturbed
          obtain ⟨taken, later, takes, reply⟩ :=
            getMore_own numbered present active positive bound unexpired
              useTime
          have numberedAfter :=
            numbered.perform
              (.getMore (.ofInt cursorId) (.ofInt batchSize) sweepTime useTime)
          rw [perform] at numberedAfter
          rw [drain, takes.pending_eq]
          generalize manager.getMore nextOf (.ofInt cursorId)
            (.ofInt batchSize) sweepTime useTime = result at *
          obtain ⟨nothing, same⟩ | ⟨something, same, presentAfter⟩ := reply
          · refine ⟨[(batchSize, ⟨none, taken⟩)], ?_, ?_, ?_⟩
            · rw [same, goesOn, Option.isSome_none, if_neg Bool.false_ne_true]
              rfl
            · rw [nothing]
              refine @Delivers.cons [] batchSize ⟨none, taken⟩ []
                takes.length_le ?_ ?_ (Delivers.nil [])
              · intro isSome
                exact absurd rfl isSome
              · simp
            · intro _ _
              exact ⟨_, rfl, rfl⟩
          · have nonempty := takes.nonempty positive something
            have stillActive : later.exhausted = false := by
              rw [← Bool.not_eq_true, takes.exhausted_iff]
              exact something
            obtain ⟨batches, sameRest, delivers, finishes⟩ :=
              inductionHypothesis numberedAfter presentAfter stillActive
                (rest (by rw [same]; rfl))
            refine ⟨(batchSize, ⟨some cursorId, taken⟩) :: batches, ?_, ?_, ?_⟩
            · rw [same, goesOn, Option.isSome_some, if_pos rfl, sameRest]
              rfl
            · refine @Delivers.cons later.pending batchSize
                ⟨some cursorId, taken⟩ batches takes.length_le ?_ ?_ delivers
              · intro _
                exact nonempty
              · simp [something]
            · intro enough _
              have shorter := List.length_pos_of_ne_nil nonempty
              rw [List.length_append, ownTurns] at enough
              exact (finishes (by omega) something).cons _

/-- Finished batches give the whole sequence back. -/
theorem Delivers.returned_eq
    {documents : List Document}
    {batches : List (Nat × CursorBatch)}
    (delivers : Delivers documents batches)
    (finished : Finished batches) :
    returned batches = documents := by
  obtain ⟨last, isLast, null⟩ := finished
  obtain ⟨earlier, rfl⟩ := List.getLast?_eq_some_iff.mp isLast
  exact (delivers.null_iff earlier last [] rfl).mp null

/-- A new manager has numbers. -/
theorem Numbered.of_construct
    {options : CursorManagerOptions}
    {manager : CursorManager (List Document)}
    (constructed : construct options = .ok manager) :
    manager.Numbered := by
  unfold construct at constructed
  split at constructed
  · cases constructed
  · split at constructed
    · cases constructed
    · obtain rfl := Except.ok.inj constructed
      constructor <;> simp [JsMap.empty, JsMap.keys, JsMap.entries,
        maxSafeInteger]

/-- The numbers stay through all calls. -/
theorem Numbered.foldl_perform
    {manager : CursorManager (List Document)}
    (numbered : manager.Numbered)
    (calls : List Call) :
    (calls.foldl CursorManager.perform manager).Numbered := by
  induction calls generalizing manager with
  | nil =>
      exact numbered
  | cons call calls inductionHypothesis =>
      exact inductionHypothesis (numbered.perform call)

/--
The replies to a reader that opens a cursor and takes batches from it, with the
batch sizes it asked for, until one of them has no cursor ID.
-/
def readAll
    (manager : CursorManager (List Document))
    (documents : List Document)
    (batchSize : Nat)
    (sweepTime useTime : Int)
    (turns : List Turn) : List (Nat × Except CursorError CursorBatch) :=
  let opened :=
    manager.openCursor nextOf documents (.ofInt batchSize) sweepTime useTime
  (batchSize, opened.1) ::
    match opened.1 with
    | .ok { cursorId := some cursorId, .. } => drain cursorId opened.2 turns
    | _ => []

/--
A reader that opens a cursor on any manager gets the documents in order, each
of them once, while other cursors are opened, advanced and closed and its own
does not expire.
-/
theorem readAll_delivers
    {options : CursorManagerOptions}
    {manager : CursorManager (List Document)}
    (constructed : construct options = .ok manager)
    (calls : List Call)
    (room :
      (calls.foldl perform manager).activeCursorCount < maxSafeInteger)
    (documents : List Document)
    {batchSize : Nat}
    (positive : 0 < batchSize)
    (bound : batchSize ≤ maxSafeInteger)
    (sweepTime useTime : Int)
    (turns : List Turn)
    (undisturbed :
      ∀ first cursorId,
        ((calls.foldl perform manager).openCursor nextOf documents
              (.ofInt batchSize) sweepTime useTime).1 = .ok first →
          first.cursorId = some cursorId →
            Undisturbed cursorId
              ((calls.foldl perform manager).openCursor nextOf documents
                (.ofInt batchSize) sweepTime useTime).2 turns) :
    ∃ batches : List (Nat × CursorBatch),
      (calls.foldl perform manager).readAll documents batchSize sweepTime
            useTime turns =
          batches.map (fun entry => (entry.1, .ok entry.2)) ∧
        Delivers documents batches ∧
        (documents.length ≤ ownTurns turns →
          Finished batches ∧ returned batches = documents) := by
  have numbered := (Numbered.of_construct constructed).foldl_perform calls
  generalize calls.foldl perform manager = before at *
  have valid := positiveSafeInteger?_ofInt positive bound
  have takes :=
    @takeBatch_takes (freshState documents useTime) batchSize
      before.maxBatchBytes rfl positive
  have pending : (freshState documents useTime).pending = documents := rfl
  have outcome :=
    @openCursor_cases _ nextOf before numbered documents _ _ valid sweepTime
      useTime
  have numberedAfter :=
    numbered.perform
      (.openCursor documents (.ofInt batchSize) sweepTime useTime)
  rw [perform] at numberedAfter
  rw [readAll]
  generalize before.openCursor nextOf documents (.ofInt batchSize) sweepTime
    useTime = opened at *
  generalize takeBatch nextOf (freshState documents useTime) batchSize
    before.maxBatchBytes = taken at *
  rw [pending] at takes
  obtain ⟨exhausted, same⟩ | ⟨full, -⟩ |
      ⟨exhausted, cursorId, -, -, -, same⟩ := outcome
  · have nothing := takes.isExhausted_iff.mp exhausted
    have delivers :
        Delivers documents
          [(batchSize, { cursorId := none, documents := taken.1 })] := by
      rw [takes.pending_eq, nothing]
      refine @Delivers.cons [] batchSize ⟨none, taken.1⟩ [] takes.length_le
        ?_ ?_ (Delivers.nil [])
      · intro isSome
        exact absurd rfl isSome
      · simp
    refine ⟨_, ?_, delivers, ?_⟩
    · rw [same]
      rfl
    · intro _
      have finished :
          Finished [(batchSize, { cursorId := none, documents := taken.1 })] :=
        ⟨_, rfl, rfl⟩
      exact ⟨finished, delivers.returned_eq finished⟩
  · rw [activeCursorCount] at room
    exact absurd full (Nat.not_le.mpr room)
  · have something : taken.2.pending ≠ [] := by
      intro nothing
      rw [takes.isExhausted_iff.mpr nothing] at exhausted
      cases exhausted
    have nonempty := takes.nonempty positive something
    have active : taken.2.exhausted = false := by
      rw [← Bool.not_eq_true, takes.exhausted_iff]
      exact something
    have present : opened.2.cursors.get? cursorId = some taken.2 := by
      rw [same, JsMap.get?_set, if_pos rfl]
    obtain ⟨batches, sameRest, later, finishes⟩ :=
      drain_delivers numberedAfter present active
        (undisturbed _ cursorId (by rw [same]) rfl)
    have delivers :
        Delivers documents
          ((batchSize, { cursorId := some cursorId, documents := taken.1 }) ::
            batches) := by
      rw [takes.pending_eq]
      refine @Delivers.cons taken.2.pending batchSize
        ⟨some cursorId, taken.1⟩ batches takes.length_le ?_ ?_ later
      · intro _
        exact nonempty
      · simp [something]
    refine ⟨_, ?_, delivers, ?_⟩
    · rw [same] at sameRest ⊢
      dsimp only at sameRest ⊢
      rw [sameRest]
      rfl
    · intro enough
      have shorter := List.length_pos_of_ne_nil nonempty
      rw [takes.pending_eq, List.length_append] at enough
      have finished := (finishes (by omega) something).cons
        (batchSize, { cursorId := some cursorId, documents := taken.1 })
      exact ⟨finished, delivers.returned_eq finished⟩

/-- A cursor is not expired when no cursor is. -/
theorem Unexpired.of_entries
    {σ : Type}
    {manager : CursorManager σ}
    {time : Int}
    (fresh :
      ∀ entry ∈ manager.cursors.entries,
        manager.isExpired time entry.2 = false)
    (cursorId : Nat) :
    manager.Unexpired cursorId time := by
  intro state held
  exact fresh _ (JsMap.get?_eq_some.mp held)

/-- Two documents are read in two batches around a sweep. -/
theorem readAll_delivers_two :
    let manager : CursorManager (List Document) := {
      cursors := JsMap.empty
      nextCursorId := 1
      idleTimeoutMS := defaultCursorIdleTimeoutMS
      maxBatchBytes := defaultCursorBatchBytes }
    let turns : List Turn :=
      [.other (.sweepExpired 1), .own 1 2 2, .own 1 3 3]
    ∃ batches,
      manager.readAll [[], []] 1 0 0 turns =
          batches.map (fun entry => (entry.1, .ok entry.2)) ∧
        Delivers [[], []] batches ∧
        (2 ≤ ownTurns turns →
          Finished batches ∧ returned batches = [[], []]) := by
  intro manager turns
  refine
    @readAll_delivers ⟨none, none⟩ manager rfl [] (by decide) [[], []] 1
      (by decide) (by decide) 0 0 turns ?_
  intro first cursorId opens isId
  have reply :
      (manager.openCursor nextOf [[], []] (.ofInt 1) 0 0).1 =
        .ok { cursorId := some 1, documents := [[]] } := by
    decide +kernel
  have same :
      first = { cursorId := some 1, documents := [[]] } :=
    Except.ok.inj (opens.symm.trans reply)
  rw [same] at isId
  obtain rfl := Option.some.inj isId
  refine ⟨nofun, ?_, by decide, by decide, ?_, ?_⟩
  · intro time isTime
    cases isTime
    exact Unexpired.of_entries (by decide +kernel) 1
  · exact Unexpired.of_entries (by decide +kernel) 1
  · intro goes
    refine absurd goes ?_
    decide +kernel

end CursorManager

end SinterDb
