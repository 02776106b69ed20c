import SinterDb.Engine.EngineSteps

namespace SinterDb

open Unicode
open Wal

/-!
# The writes of an engine

A write of a collection and its record: when the record is appended the
databases change as it says, and when it is refused nothing that is kept
changes.
-/

section Images

variable
  {image : Image}
  {database collection : JsString}
  {store : StoreImage}

/-- A collection in an image. -/
theorem mem_of_store?
    (isStore : image.store? database collection = some store) :
    ∃ entry ∈ image, entry.1 = database ∧
      (collection, store) ∈ entry.2 := by
  unfold Image.store? OrderedTable.findIn? at isStore
  rcases Option.bind_eq_some_iff.mp isStore with ⟨inside, found, isInside⟩
  exact ⟨(database, inside), OrderedTable.mem_of_find? found, rfl,
    OrderedTable.mem_of_find? isInside⟩

/-- A valid image has valid collections under kept names. -/
theorem Image.Valid.of_store?
    (valid : image.Valid)
    (isStore : image.store? database collection = some store) :
    IsKeptName database ∧ IsKeptName collection ∧ store.Valid := by
  rcases mem_of_store? isStore with ⟨entry, member, rfl, inside⟩
  have collectionValid := valid.collections entry member _ inside
  exact ⟨valid.databases entry member, collectionValid.1, collectionValid.2⟩

/-- A valid image with another valid collection. -/
theorem Image.Valid.putStore
    (valid : image.Valid)
    (isDatabase : IsKeptName database)
    (isCollection : IsKeptName collection)
    (storeValid : store.Valid) :
    (image.putStore database collection store).Valid where
  proper := valid.proper.putIn _ _ _
  databases entry member := by
    unfold Image.putStore OrderedTable.putIn at member
    rcases OrderedTable.mem_put member with rfl | isOld
    · exact isDatabase
    · exact valid.databases entry isOld
  collections entry member inner inside := by
    unfold Image.putStore OrderedTable.putIn at member
    rcases OrderedTable.mem_put member with rfl | isOld
    · rcases OrderedTable.mem_put inside with rfl | isOldInner
      · exact ⟨isCollection, storeValid⟩
      · cases found : OrderedTable.find? image database with
        | none =>
            rw [found] at isOldInner
            cases isOldInner
        | some before =>
            rw [found] at isOldInner
            exact valid.collections (database, before)
              (OrderedTable.mem_of_find? found) inner isOldInner
    · exact valid.collections entry isOld inner inside

/-- A new collection is valid. -/
theorem StoreImage.valid_empty : StoreImage.empty.Valid where
  stored := nofun
  distinct := List.nodup_nil
  normalized := nofun
  few := Nat.zero_le _
  names := nofun

/-- An index that is there after operations was there before them, or they
create it. -/
theorem specs_of_applyAll
    {operations : List JournalOperation}
    {final : StoreImage}
    (applies : store.applyAll operations = some final) :
    ∀ spec ∈ final.indexes,
      spec ∈ store.indexes ∨ .createIndex spec ∈ operations := by
  induction operations generalizing store with
  | nil =>
      intro spec member
      cases applies
      exact .inl member
  | cons operation rest inductionHypothesis =>
      rcases Option.bind_eq_some_iff.mp applies with ⟨next, first, later⟩
      intro spec member
      rcases inductionHypothesis later spec member with inNext | created
      · have inFirst :
            spec ∈ store.indexes ∨ operation = .createIndex spec := by
          cases operation with
          | put key document =>
              cases first
              exact .inl inNext
          | delete key =>
              cases first
              exact .inl inNext
          | createIndex other =>
              unfold StoreImage.apply at first
              dsimp only at first
              split at first
              · cases first
                rcases List.mem_append.mp inNext with isOld | isNew
                · exact .inl isOld
                · rw [List.mem_singleton.mp isNew]
                  exact .inr rfl
              · split_ifs at first
                cases first
                exact .inl inNext
          | dropIndex name =>
              unfold StoreImage.apply at first
              dsimp only at first
              split_ifs at first
              cases first
              exact .inl (List.mem_of_mem_eraseP inNext)
        rcases inFirst with isOld | rfl
        · exact .inl isOld
        · exact .inr List.mem_cons_self
      · exact .inr (List.mem_cons_of_mem _ created)

/-- Creating an index again changes nothing. -/
theorem createIndex_again
    {spec : IndexSpec}
    {next : StoreImage}
    (creates : store.apply (.createIndex spec) = some next) :
    next.apply (.createIndex spec) = some next := by
  unfold StoreImage.apply at creates ⊢
  dsimp only at creates ⊢
  split at creates
  · rename_i absent
    cases creates
    have found :
        (store.indexes ++ [spec]).find?
            (fun index => decide (index.name = spec.name)) = some spec := by
      rw [List.find?_append, absent]
      simp
    simp only [found]
    rw [if_pos]
    simp [sameDefinition]
  · rename_i existing found
    split_ifs at creates with same
    cases creates
    simp only [found, same, if_true]

/-- What is kept of a collection that can be opened again is valid. -/
theorem Collection.Lasting.valid
    {store : Collection}
    (lasting : store.Lasting)
    (names :
      ∀ spec ∈ store.image.indexes,
        IsKeptName spec.name ∧ IsKeptName spec.field) :
    store.image.Valid where
  stored entry member := lasting.stored entry.1 entry.2 member
  distinct := store.documents.nodup_keys
  normalized := lasting.defined.normalized
  few := by
    have few := lasting.defined.few
    unfold Collection.image
    rw [IndexSet.specs_entries, List.length_map]
    exact few
  names := names

end Images

/-- Databases in which one collection was put. -/
theorem Lasting.put
    {databases changed : JsMap JsString CollectionMap}
    (lasting : Lasting databases)
    {database collection : JsString}
    {store : Collection}
    (isLasting : store.Lasting)
    {inside : CollectionMap}
    (entries :
      changed.entries =
        OrderedTable.put databases.entries database inside)
    (inner :
      inside.entries =
        OrderedTable.put
          ((databases.get? database).getD .empty).entries collection
          store) :
    Lasting changed := by
  intro entry member
  rw [entries] at member
  rcases OrderedTable.mem_put member with rfl | isOld
  · dsimp only
    rw [inner]
    refine ⟨OrderedTable.put_ne_nil _ _ _, fun current isInside => ?_⟩
    rcases OrderedTable.mem_put isInside with rfl | isOldInner
    · exact isLasting
    · cases found : databases.get? database with
      | none =>
          rw [found] at isOldInner
          cases isOldInner
      | some before =>
          rw [found] at isOldInner
          rw [OrderedTable.get?_eq_find?] at found
          exact (lasting (database, before)
            (OrderedTable.mem_of_find? found)).2 current isOldInner
  · exact lasting entry isOld

/-- The databases with a collection that can be opened again. -/
theorem Lasting.withCollection
    {engine : StorageEngine}
    (lasting : Lasting engine.databases)
    {store : Collection}
    (isLasting : store.Lasting)
    (database collection : JsString) :
    Lasting (engine.withCollection database collection store).databases :=
  lasting.put isLasting (OrderedTable.entries_set _ _ _)
    (OrderedTable.entries_set _ _ _)

/-- The databases with a collection that was different for a moment. -/
theorem Lasting.overwrite
    {engine later : StorageEngine}
    (lasting : Lasting engine.databases)
    {during store : Collection}
    {database collection : JsString}
    (same :
      later.databases =
        (engine.withCollection database collection during).databases)
    (isLasting : store.Lasting) :
    Lasting (later.withCollection database collection store).databases := by
  have before :
      later.databases.entries =
        OrderedTable.put engine.databases.entries database
          (((engine.databases.get? database).getD .empty).set collection
            during) := by
    rw [same]
    exact OrderedTable.entries_set _ _ _
  have isThere :
      later.databases.get? database =
        some (((engine.databases.get? database).getD .empty).set collection
          during) := by
    rw [OrderedTable.get?_eq_find?, before, OrderedTable.find?_put,
      if_pos rfl]
  have entries :
      (later.withCollection database collection store).databases.entries =
        OrderedTable.put engine.databases.entries database
          (((later.databases.get? database).getD .empty).set collection
            store) := by
    have whole :=
      OrderedTable.entries_set later.databases database
        (((later.databases.get? database).getD .empty).set collection store)
    rw [before, OrderedTable.put_put] at whole
    exact whole
  have inner :
      (((later.databases.get? database).getD .empty).set collection
          store).entries =
        OrderedTable.put
          ((engine.databases.get? database).getD .empty).entries collection
          store := by
    rw [isThere, Option.getD_some, OrderedTable.entries_set,
      OrderedTable.entries_set, OrderedTable.put_put]
  exact lasting.put isLasting entries inner

/-- A collection of an engine can be opened again. -/
theorem Lasting.of_getCollection
    {engine : StorageEngine}
    (lasting : Lasting engine.databases)
    {database collection : JsString}
    {store : Collection}
    (isThere : engine.getCollection database collection = some store) :
    store.Lasting := by
  rcases Option.bind_eq_some_iff.mp isThere with ⟨inside, found, isInside⟩
  rw [OrderedTable.get?_eq_find?] at found isInside
  exact (lasting (database, inside) (OrderedTable.mem_of_find? found)).2
    (collection, store) (OrderedTable.mem_of_find? isInside)

namespace StorageEngine

variable
  {damaged : Prop}
  {history pending : List (List Operation)}
  {databases : JsMap JsString CollectionMap}
  {engine : StorageEngine}

/-- What is kept of databases. -/
abbrev imageOf (databases : JsMap JsString CollectionMap) : Image :=
  viewMaps Collection.image databases

section Recording

variable
  {operations : List Operation}
  {later : StorageEngine}

/-- Recording does not look at the databases. -/
theorem record_withDatabases
    (engine : StorageEngine)
    (databases : JsMap JsString CollectionMap)
    (operations : List Operation) :
    record { engine with databases := databases } operations =
      ({ (engine.record operations).1 with databases := databases },
        (engine.record operations).2) := by
  unfold record
  cases encodeOperations operations with
  | error error =>
      rfl
  | ok payload =>
      dsimp only
      rcases engine.log.append transactionType payload with
        ⟨log, error | lsn⟩
      · cases error <;> rfl
      · rfl

/-- What is kept is the same under databases with the same image. -/
theorem Kept.withDatabases
    (kept : Kept damaged history [] databases engine)
    {others : JsMap JsString CollectionMap}
    (same : imageOf others = engine.image) :
    Kept damaged history [] others { engine with databases := others } where
  isDatabases := rfl
  isOpen := kept.isOpen
  valid := by
    have isSame : image { engine with databases := others } = engine.image :=
      same
    rw [isSame]
    exact kept.valid
  replays := by
    have isSame : image { engine with databases := others } = engine.image :=
      same
    rw [isSame]
    exact kept.replays
  settled := nofun
  records := kept.records
  snapshots := kept.snapshots
  named := kept.named
  active active isActive goesOn := by
    have copies := kept.active active isActive goesOn
    exact ⟨copies.exists_image, copies.inside, copies.counts, copies.covers,
      copies.newest⟩

/-- A record that is refused changes nothing that is kept. -/
theorem Kept.record_error
    (kept : Kept damaged history pending databases engine)
    {error : Thrown}
    (refuses : engine.record operations = (later, .error error)) :
    Upholds damaged history pending databases later := by
  unfold record at refuses
  cases encodes : encodeOperations operations with
  | error reason =>
      rw [encodes] at refuses
      cases refuses
      exact .inr kept
  | ok payload =>
      rw [encodes] at refuses
      dsimp only at refuses
      cases appends : engine.log.append transactionType payload with
      | mk log result =>
          rw [appends] at refuses
          cases result with
          | error reason =>
              have stays :
                  Upholds damaged history pending databases
                    { engine with log := log } :=
                kept.withLog fun _ remembers =>
                  remembers.append_error appends
              cases reason <;> cases refuses <;> exact stays
          | ok lsn =>
              cases refuses

/-- A record that is appended is the next one of the history. -/
theorem Kept.record_ok
    (kept : Kept damaged history pending databases engine)
    (records : engine.record operations = (later, .ok ()))
    (areKept : ∀ operation ∈ operations, operation.IsKept)
    (isPending : pending = [] ∨ pending = [operations])
    {others : JsMap JsString CollectionMap}
    (valid : (imageOf others).Valid)
    (replays :
      Journal.replay Image.applyRecord [] (history ++ [operations]) =
        some (imageOf others)) :
    Kept damaged (history ++ [operations]) [] others
      { later with databases := others } := by
  have whole :
      ∃ more, history ++ [operations] = (history ++ pending) ++ more := by
    rcases isPending with rfl | rfl
    · exact ⟨[operations], by simp⟩
    · exact ⟨[], by simp⟩
  rcases whole with ⟨more, isWhole⟩
  unfold record at records
  cases encodes : encodeOperations operations with
  | error reason =>
      rw [encodes] at records
      cases records
  | ok payload =>
      rw [encodes] at records
      dsimp only at records
      cases appends : engine.log.append transactionType payload with
      | mk log result =>
          rw [appends] at records
          cases result with
          | error reason =>
              cases reason <;> cases records
          | ok lsn =>
              cases records
              rcases kept.records with ⟨acknowledged, remembers, recordsOf⟩
              have remembersNext := remembers.append_ok appends
              have isRecord :=
                Recovered.isRecordOf_of_encode areKept encodes lsn
              have compacted :
                  log.firstLsn - 1 = engine.compacted := by
                rw [remembersNext.firstLsn, Nat.add_sub_cancel_left]
              exact
                { isDatabases := rfl
                  isOpen := kept.isOpen
                  valid := valid
                  replays := by
                    rw [List.append_nil]
                    exact replays
                  settled := nofun
                  records := by
                    refine ⟨_, ?_, List.rel_append recordsOf (.cons isRecord .nil)⟩
                    unfold StorageEngine.compacted
                    dsimp only
                    rw [compacted]
                    exact remembersNext
                  snapshots := by
                    unfold StorageEngine.compacted
                    dsimp only
                    rw [compacted, List.append_nil, isWhole]
                    exact kept.snapshots.append more
                  named := fun file member =>
                    (kept.named file member).trans (by simp)
                  active := by
                    intro active isActive goesOn
                    have copies := kept.active active isActive goesOn
                    refine ⟨?_, copies.inside.trans (by simp), copies.counts,
                      ?_, copies.newest⟩
                    · rcases copies.exists_image with
                        ⟨image, isValid, isView, restores⟩
                      rw [List.append_nil, isWhole]
                      exact ⟨image, isValid, isView, restores.append more⟩
                    · unfold StorageEngine.compacted
                      dsimp only
                      rw [compacted]
                      exact copies.covers }

/-- No engine agrees with a history that cannot be replayed. -/
theorem not_kept_unfounded
    (engine : StorageEngine) :
    ¬ Kept damaged [[.dropIndex [] [] []]] [] databases engine := by
  intro kept
  cases kept.replays

/-- An automatic checkpoint does not mend a log. -/
theorem broken_runDueCheckpoint
    (isBroken : engine.log.broken = true) :
    engine.runDueCheckpoint.log.broken = true := by
  have upholds :
      Upholds False [[.dropIndex [] [] []]] [] .empty engine :=
    .inl isBroken
  exact upholds.runDueCheckpoint.resolve_right (not_kept_unfounded _)

/-- A broken log refuses every record, and stays broken. -/
theorem broken_record
    (isBroken : engine.log.broken = true)
    (operations : List Operation) :
    (engine.record operations).1.log.broken = true ∧
      ∃ error, (engine.record operations).2 = .error error := by
  unfold record
  cases encodeOperations operations with
  | error error =>
      exact ⟨isBroken, _, rfl⟩
  | ok payload =>
      have refuses := call_broken isBroken (.append transactionType payload)
      unfold WriteAheadLog.call at refuses
      dsimp only at refuses ⊢
      revert refuses
      generalize engine.log.append transactionType payload = result
      intro refuses
      rcases result with ⟨log, error | lsn⟩
      · have same : log = engine.log := congrArg Prod.fst refuses
        rw [← same] at isBroken
        cases error <;> exact ⟨isBroken, _, rfl⟩
      · cases congrArg Prod.snd refuses

/-- A broken log refuses every record, also behind a checkpoint. -/
theorem broken_append
    (isBroken : engine.log.broken = true)
    (operations : List Operation) :
    (engine.append operations).1.log.broken = true ∧
      ∃ error, (engine.append operations).2 = .error error := by
  unfold append
  cases engine.assertOpen with
  | error error =>
      exact ⟨isBroken, error, rfl⟩
  | ok _ =>
      exact broken_record (broken_runDueCheckpoint isBroken) operations

/-- A record that is refused behind a checkpoint changes nothing that is
kept. -/
theorem Upholds.append_error
    (upholds : Upholds damaged history pending databases engine)
    {error : Thrown}
    (refuses : engine.append operations = (later, .error error)) :
    Upholds damaged history pending databases later := by
  unfold append at refuses
  cases isOpen : engine.assertOpen with
  | error reason =>
      rw [isOpen] at refuses
      cases refuses
      exact upholds
  | ok _ =>
      rw [isOpen] at refuses
      dsimp only at refuses
      rcases upholds.runDueCheckpoint with isBroken | kept
      · have stays := (broken_record isBroken operations).1
        rw [refuses] at stays
        exact .inl stays
      · exact kept.record_error refuses

/-- A record that is appended behind a checkpoint is the next one of the
history. -/
theorem Upholds.append_ok
    (upholds : Upholds damaged history pending databases engine)
    (appends : engine.append operations = (later, .ok ()))
    (areKept : ∀ operation ∈ operations, operation.IsKept)
    (isPending : pending = [] ∨ pending = [operations])
    {others : JsMap JsString CollectionMap}
    (valid : (imageOf others).Valid)
    (replays :
      Journal.replay Image.applyRecord [] (history ++ [operations]) =
        some (imageOf others)) :
    Upholds damaged (history ++ [operations]) [] others
      { later with databases := others } := by
  unfold append at appends
  cases isOpen : engine.assertOpen with
  | error reason =>
      rw [isOpen] at appends
      cases appends
  | ok _ =>
      rw [isOpen] at appends
      dsimp only at appends
      rcases upholds.runDueCheckpoint with isBroken | kept
      · have stays := (broken_record isBroken operations).1
        rw [appends] at stays
        exact .inl stays
      · exact .inr (kept.record_ok appends areKept isPending valid replays)

/-- When no checkpoint is due, an index that is there before its record is
refused with it. -/
theorem Upholds.append_idle
    (upholds : Upholds damaged history [] databases engine)
    (idle : engine.isDue = false)
    {during final : JsMap JsString CollectionMap}
    {error : Thrown}
    (refuses :
      append { engine with databases := during } operations =
        (later, .error error))
    (same : imageOf final = imageOf databases) :
    Upholds damaged history [] final { later with databases := final } := by
  have isIdle :
      StorageEngine.runDueCheckpoint
          { engine with databases := during } =
        { engine with databases := during } := by
    unfold StorageEngine.runDueCheckpoint
    have stillIdle :
        isDue { engine with databases := during } = false := idle
    rw [stillIdle]
    rfl
  have frame :
      { later with databases := final } =
        ({ engine with databases := final } : StorageEngine) ∨
      ∃ before reason, engine.record operations = (before, .error reason) ∧
        later = { before with databases := during } := by
    unfold append at refuses
    rw [isIdle] at refuses
    cases isOpen : assertOpen { engine with databases := during } with
    | error reason =>
        rw [isOpen] at refuses
        cases refuses
        exact .inl rfl
    | ok _ =>
        rw [isOpen] at refuses
        dsimp only at refuses
        rw [record_withDatabases] at refuses
        have isRefused : (engine.record operations).2 = .error error :=
          congrArg Prod.snd refuses
        exact .inr ⟨(engine.record operations).1, error,
          Prod.ext rfl isRefused, (congrArg Prod.fst refuses).symm⟩
  have change :
      ∀ other : StorageEngine,
        Upholds damaged history [] databases other →
          Upholds damaged history [] final
            { other with databases := final } := by
    intro other otherUpholds
    refine otherUpholds.imp_right fun kept => kept.withDatabases ?_
    rw [same, ← kept.isDatabases]
    rfl
  rcases frame with isSame | ⟨before, reason, isRefused, rfl⟩
  · rw [isSame]
    exact change engine upholds
  · refine change before ?_
    rcases upholds with isBroken | kept
    · have stays := (broken_record isBroken operations).1
      rw [isRefused] at stays
      exact .inl stays
    · exact kept.record_error isRefused

end Recording

/--
A checkpoint that is due copies an index that is there before its record, and
then the record is refused.
-/
def CopiesRefused
    {α : Type}
    (engine : StorageEngine)
    (database collection : JsString)
    (write : Write α) : Prop :=
  engine.isDue = true ∧
    ∃ during operations resume error,
      write = .commit during operations resume ∧
        (engine.getCollection database collection).map Collection.image ≠
          some during.image ∧
        ((engine.withCollection database collection during).append
          (operations.map (toOperation database collection))).2 =
            .error error

section Performing

variable
  {database collection : JsString}
  {store during final : Collection}

/-- The image with another collection, also when it was different for a
moment. -/
theorem imageOf_overwrite
    {later : StorageEngine}
    (same :
      later.databases =
        (engine.withCollection database collection during).databases) :
    imageOf (later.withCollection database collection final).databases =
      engine.image.putStore database collection final.image := by
  have isLater : later.image =
      engine.image.putStore database collection during.image := by
    have isDuring := engine.image_withCollection database collection during
    unfold image at isDuring ⊢
    rw [same]
    exact isDuring
  have isFinal := later.image_withCollection database collection final
  rw [isLater] at isFinal
  exact isFinal.trans (OrderedTable.putIn_putIn _ _ _ _ _)

/-- Putting back what is there changes nothing. -/
theorem putStore_same
    (proper : OrderedTable.Proper engine.image)
    (isThere : engine.getCollection database collection = some store) :
    engine.image.putStore database collection store.image =
      engine.image := by
  refine OrderedTable.putIn_self proper ?_
  have isStore := engine.store?_image database collection
  rw [isThere] at isStore
  exact isStore

end Performing

end StorageEngine

/-- The names that a call brings in are kept ones. -/
def WriteCall.KeepsNames : WriteCall → Prop
  | .createIndex input =>
      ∀ spec, normalizeIndexSpec input = .ok spec →
        IsKeptName spec.name ∧ IsKeptName spec.field
  | _ => True

namespace StorageEngine

variable
  {damaged : Prop}
  {history : List (List Operation)}
  {engine : StorageEngine}
  {database collection : JsString}
  {store : Collection}
  {call : WriteCall}

/-- The operations that a call records are read back. -/
theorem isKept_of_recordedBy
    (lasting : store.Lasting)
    (isDatabase : IsKeptName database)
    (isCollection : IsKeptName collection)
    (valid : store.image.Valid)
    (keepsNames : call.KeepsNames)
    {operation : JournalOperation}
    (recorded : store.RecordedBy call operation) :
    (toOperation database collection operation).IsKept := by
  have ofId : ∀ id : CustomId,
      (bytesFromHex id.toHexString).length = idByteLength := by
    intro id
    have back : bytesFromHex id.toHexString = id.bytes :=
      bytesFromHex_hexString id.bytes
    rw [back]
    exact id.length_eq
  rcases recorded with onDocument | ⟨input, spec, rfl, normalizes, rfl⟩ |
    ⟨name, rfl, present, rfl⟩
  · cases operation with
    | put key document =>
        rcases onDocument with ⟨_, id, -, -, rfl⟩
        refine ⟨?_, ofId id⟩
        simp only [toOperation, Operation.names, List.forall_mem_cons]
        exact ⟨isDatabase, isCollection, by simp⟩
    | delete key =>
        rcases onDocument with ⟨id, rfl⟩
        refine ⟨?_, ofId id⟩
        simp only [toOperation, Operation.names, List.forall_mem_cons]
        exact ⟨isDatabase, isCollection, by simp⟩
    | createIndex spec =>
        exact onDocument.elim
    | dropIndex name =>
        exact onDocument.elim
  · have names := keepsNames spec normalizes
    refine ⟨?_, ⟨input, normalizes⟩⟩
    simp only [toOperation, Operation.names, List.forall_mem_cons]
    exact ⟨isDatabase, isCollection, names.1, names.2, by simp⟩
  · refine ⟨?_, trivial⟩
    have isKey := JsMap.has_iff.mp present
    rw [← lasting.defined.names] at isKey
    rcases List.mem_map.mp isKey with ⟨spec, member, rfl⟩
    simp only [toOperation, Operation.names, List.forall_mem_cons]
    exact ⟨isDatabase, isCollection, (valid.names spec member).1, by simp⟩

/-- A write leaves collections that can be opened again. -/
theorem lasting_perform
    (lasting : Lasting engine.databases)
    (isThere : engine.getCollection database collection = some store)
    (unspoiled : ¬ store.SpoiledBy call) :
    Lasting
      (engine.perform database collection
        (store.perform call)).1.databases := by
  have ensures := (lasting.of_getCollection isThere).perform unspoiled
  revert ensures
  generalize store.perform call = write
  intro ensures
  cases write with
  | done final result =>
      exact lasting.withCollection (ensures (.ok ())) _ _
  | commit during operations resume =>
      have same :=
        databases_append
          (engine.withCollection database collection during)
          (operations.map (toOperation database collection))
      unfold perform
      dsimp only
      revert same
      generalize
        (engine.withCollection database collection during).append
          (operations.map (toOperation database collection)) = result
      intro same
      rcases result with ⟨later, answer⟩
      exact lasting.overwrite same (ensures answer)

/-- A write does not mend a log. -/
theorem broken_perform
    {α : Type}
    (isBroken : engine.log.broken = true)
    (write : Write α) :
    (engine.perform database collection write).1.log.broken = true := by
  cases write with
  | done final result =>
      exact isBroken
  | commit during operations resume =>
      have beforeBroken :
          (engine.withCollection database collection during).log.broken =
            true :=
        isBroken
      have stays :=
        (broken_append beforeBroken
          (operations.map (toOperation database collection))).1
      unfold perform
      dsimp only
      revert stays
      generalize
        (engine.withCollection database collection during).append
          (operations.map (toOperation database collection)) = result
      intro stays
      exact stays

/-- An index that is there before its record is pending. -/
theorem Kept.withPending
    (kept : Kept damaged history [] engine.databases engine)
    {operations : List Operation}
    {during : JsMap JsString CollectionMap}
    (valid : (imageOf during).Valid)
    (applies : engine.image.applyRecord operations = some (imageOf during))
    (again :
      (imageOf during).applyRecord operations = some (imageOf during)) :
    Kept damaged history [operations] during
      { engine with databases := during } where
  isDatabases := rfl
  isOpen := kept.isOpen
  valid := valid
  replays := by
    have before := kept.replays
    rw [List.append_nil] at before
    rw [Journal.replay_append, before, Option.bind_some,
      Journal.replay_singleton]
    exact applies
  settled record member := by
    rw [List.mem_singleton.mp member]
    exact again
  records := kept.records
  snapshots := by
    have before := kept.snapshots
    rw [List.append_nil] at before
    exact before.append [operations]
  named := kept.named
  active active isActive goesOn := by
    have copies := kept.active active isActive goesOn
    rcases copies.exists_image with ⟨image, isValid, isView, restores⟩
    rw [List.append_nil] at restores
    exact ⟨⟨image, isValid, isView, restores.append [operations]⟩,
      copies.inside, copies.counts, copies.covers, copies.newest⟩

section Recorded

variable
  {operations : List JournalOperation}
  {next : StoreImage}

/-- The operations that a call records do to all databases what they do to its
collection. -/
theorem applyRecord_recorded
    (valid : engine.image.Valid)
    (isThere : engine.getCollection database collection = some store)
    (allows : ∀ operation ∈ operations, store.RecordedBy call operation)
    (isNext : store.image.applyAll operations = some next) :
    engine.image.applyRecord
        (operations.map (toOperation database collection)) =
      some (engine.image.putStore database collection next) := by
  have isStore := engine.store?_image database collection
  rw [isThere, Option.map_some] at isStore
  rw [Image.applyRecord_toOperation valid.proper
    (fun operation member => keys_of_recordedBy (allows operation member))
    isStore, isNext]
  rfl

/-- The operations that a call records leave a valid image. -/
theorem valid_recorded
    (valid : engine.image.Valid)
    (lasting : Lasting engine.databases)
    (isThere : engine.getCollection database collection = some store)
    (keepsNames : call.KeepsNames)
    (allows : ∀ operation ∈ operations, store.RecordedBy call operation)
    {other : Collection}
    (isLasting : other.Lasting)
    (isNext : store.image.applyAll operations = some other.image) :
    (∀ operation ∈ operations.map (toOperation database collection),
      operation.IsKept) ∧
      (engine.image.putStore database collection other.image).Valid := by
  have isStore := engine.store?_image database collection
  rw [isThere, Option.map_some] at isStore
  have storeValid := valid.of_store? isStore
  have areKept :
      ∀ operation ∈ operations.map (toOperation database collection),
        operation.IsKept := by
    rw [List.forall_mem_map]
    exact fun operation member =>
      isKept_of_recordedBy (lasting.of_getCollection isThere) storeValid.1
        storeValid.2.1 storeValid.2.2 keepsNames (allows operation member)
  refine ⟨areKept,
    valid.putStore storeValid.1 storeValid.2.1 (isLasting.valid ?_)⟩
  intro spec member
  rcases specs_of_applyAll isNext spec member with isOld | created
  · exact storeValid.2.2.names spec isOld
  · have names := (areKept _ (List.mem_map_of_mem created)).names
    simp only [toOperation, Operation.names, List.forall_mem_cons] at names
    exact ⟨names.2.2.1, names.2.2.2.1⟩

/-- An index that a collection has before it is recorded. -/
theorem Kept.withPendingIndex
    (kept : Kept damaged history [] engine.databases engine)
    (isThere : engine.getCollection database collection = some store)
    {spec : IndexSpec}
    (allows :
      ∀ operation ∈ [JournalOperation.createIndex spec],
        store.RecordedBy call operation)
    {during : Collection}
    (isNext : store.image.applyAll [.createIndex spec] = some during.image)
    (valid :
      (engine.image.putStore database collection during.image).Valid) :
    Kept damaged history
      [[JournalOperation.createIndex spec].map
        (toOperation database collection)]
      (engine.withCollection database collection during).databases
      (engine.withCollection database collection during) := by
  have isDuring :
      imageOf (engine.withCollection database collection
          during).databases =
        engine.image.putStore database collection during.image :=
    engine.image_withCollection database collection during
  have isThereNow :
      (engine.image.putStore database collection during.image).store?
        database collection = some during.image := by
    unfold Image.store? Image.putStore
    rw [OrderedTable.findIn?_putIn, if_pos ⟨rfl, rfl⟩]
  have isAgain :
      during.image.applyAll [.createIndex spec] = some during.image := by
    rw [StoreImage.applyAll, Journal.replay_singleton] at isNext ⊢
    exact createIndex_again isNext
  refine kept.withPending ?_ ?_ ?_
  · rw [isDuring]
    exact valid
  · rw [isDuring]
    exact applyRecord_recorded kept.valid isThere allows isNext
  · rw [isDuring, Image.applyRecord_toOperation valid.proper
      (fun operation member => keys_of_recordedBy (allows operation member))
      isThereNow, isAgain, Option.map_some]
    exact congrArg some (OrderedTable.putIn_self valid.proper isThereNow)

end Recorded

/-- A write changes what is kept exactly as the record that it appends. -/
theorem Upholds.perform
    (upholds : Upholds damaged history [] engine.databases engine)
    (lasting : Lasting engine.databases)
    (isThere : engine.getCollection database collection = some store)
    (unspoiled : ¬ store.SpoiledBy call)
    (keepsNames : call.KeepsNames)
    (noCopy :
      ¬ engine.CopiesRefused database collection (store.perform call)) :
    ∃ more, more.length ≤ 1 ∧
      Upholds damaged (history ++ more) []
        (engine.perform database collection
          (store.perform call)).1.databases
        (engine.perform database collection (store.perform call)).1 := by
  rcases upholds with isBroken | kept
  · exact ⟨[], Nat.zero_le _, .inl (broken_perform isBroken _)⟩
  have storeLasting := lasting.of_getCollection isThere
  have putBack := putStore_same kept.valid.proper isThere
  have journals :=
    Collection.journals_perform storeLasting.toSound storeLasting.defined call
  have ensures := storeLasting.perform unspoiled
  revert journals ensures noCopy
  generalize store.perform call = write
  intro noCopy journals ensures
  cases journals with
  | @done final result same =>
      refine ⟨[], Nat.zero_le _, ?_⟩
      rw [List.append_nil]
      refine .inr (kept.withDatabases ?_)
      have isImage := engine.image_withCollection database collection final
      rw [same, putBack] at isImage
      exact isImage
  | @commit during operations resume waits refused recorded allows =>
      have lastingOk : (resume (.ok ())).1.Lasting := ensures (.ok ())
      rcases valid_recorded kept.valid lasting isThere keepsNames allows
          lastingOk recorded with ⟨areKept, valid⟩
      have isDuring := engine.image_withCollection database collection during
      have frame :=
        databases_append (engine.withCollection database collection during)
          (operations.map (toOperation database collection))
      have unchanged :
          during.image = store.image →
            Kept damaged history []
              (engine.withCollection database collection during).databases
              (engine.withCollection database collection during) := by
        intro same
        rw [same, putBack] at isDuring
        exact kept.withDatabases isDuring
      have started :
          ∃ pending,
            (pending = [] ∨
              pending = [operations.map (toOperation database collection)]) ∧
              Kept damaged history pending
                (engine.withCollection database collection during).databases
                (engine.withCollection database collection during) := by
        rcases waits with same | ⟨⟨spec, rfl⟩, isNext⟩
        · exact ⟨[], .inl rfl, unchanged same⟩
        · have sameImage : during.image = (resume (.ok ())).1.image :=
            Option.some.inj (isNext.symm.trans recorded)
          rw [← sameImage] at valid
          exact ⟨_, .inr rfl,
            kept.withPendingIndex isThere allows isNext valid⟩
      unfold StorageEngine.perform
      dsimp only
      revert frame noCopy
      unfold CopiesRefused
      cases appends :
          (engine.withCollection database collection during).append
            (operations.map (toOperation database collection)) with
      | mk later answer =>
      intro noCopy frame
      dsimp only
      have isFinal :
          ∀ final : Collection,
            imageOf (later.withCollection database collection
                final).databases =
              engine.image.putStore database collection final.image :=
        fun final => imageOf_overwrite frame
      cases answer with
      | ok _ =>
          rcases started with ⟨pending, isPending, startedKept⟩
          refine ⟨[operations.map (toOperation database collection)], le_rfl,
            ?_⟩
          refine Upholds.append_ok (.inr startedKept) appends areKept
            isPending ?_ ?_
          · rw [isFinal]
            exact valid
          · have before := kept.replays
            rw [List.append_nil] at before
            rw [isFinal, Journal.replay_append, before, Option.bind_some,
              Journal.replay_singleton]
            exact applyRecord_recorded kept.valid isThere allows recorded
      | error error =>
          refine ⟨[], Nat.zero_le _, ?_⟩
          rw [List.append_nil]
          have isImage := isFinal (resume (.error error)).1
          rw [refused error, putBack] at isImage
          by_cases same : during.image = store.image
          · rcases Upholds.append_error (.inr (unchanged same)) appends with
              isBroken | keptLater
            · exact .inl isBroken
            · refine .inr (keptLater.withDatabases (isImage.trans ?_))
              have isLater : later.image =
                  (engine.withCollection database collection
                    during).image := by
                unfold image
                rw [frame]
              rw [isLater, isDuring, same, putBack]
          · -- The index was there, so that no checkpoint may copy it.
            have idle : engine.isDue = false := by
              rw [Bool.eq_false_iff]
              intro isDue
              refine noCopy ⟨isDue, during, operations, resume, error, rfl, ?_,
                ?_⟩
              · rw [isThere]
                exact fun isSame => same (Option.some.inj isSame).symm
              · rw [appends]
            exact Upholds.append_idle (.inr kept) idle appends isImage

section Opening

/-- A new collection is in the databases when its record was appended. -/
theorem Upholds.openCollection
    (upholds : Upholds damaged history [] engine.databases engine)
    (isDatabase : IsKeptName database)
    (isCollection : IsKeptName collection) :
    ∃ more, more.length ≤ 1 ∧
      Upholds damaged (history ++ more) []
        (engine.openCollection database collection).1.databases
        (engine.openCollection database collection).1 := by
  have frame :=
    databases_append engine [.createCollection database collection]
  unfold StorageEngine.openCollection
  cases isThere : engine.getCollection database collection with
  | some store =>
      refine ⟨[], Nat.zero_le _, ?_⟩
      rw [List.append_nil]
      exact upholds
  | none =>
      dsimp only
      revert frame
      cases appends :
          engine.append [.createCollection database collection] with
      | mk later answer =>
      intro frame
      cases answer with
      | error error =>
          refine ⟨[], Nat.zero_le _, ?_⟩
          rw [List.append_nil]
          have stays := upholds.append_error appends
          rw [← frame] at stays
          exact stays
      | ok _ =>
          rcases upholds with isBroken | kept
          · have stays :=
              (broken_append isBroken
                [.createCollection database collection]).1
            rw [appends] at stays
            exact ⟨[], Nat.zero_le _, .inl stays⟩
          · have isNew :
                engine.image.store? database collection = none := by
              rw [store?_image, isThere]
              rfl
            have isImage :
                imageOf (later.withCollection database collection
                    .empty).databases =
                  engine.image.putStore database collection .empty := by
              have isFinal :=
                later.image_withCollection database collection .empty
              have isLater : later.image = engine.image := by
                unfold image
                rw [frame]
              rw [isLater] at isFinal
              exact isFinal
            refine ⟨[[.createCollection database collection]], le_rfl, ?_⟩
            refine Upholds.append_ok (.inr kept) appends ?_ (.inl rfl) ?_ ?_
            · intro operation member
              rw [List.mem_singleton.mp member]
              refine ⟨?_, trivial⟩
              simp only [Operation.names, List.forall_mem_cons]
              exact ⟨isDatabase, isCollection, by simp⟩
            · rw [isImage]
              exact kept.valid.putStore isDatabase isCollection
                StoreImage.valid_empty
            · have before := kept.replays
              rw [List.append_nil] at before
              rw [isImage, Journal.replay_append, before, Option.bind_some,
                Journal.replay_singleton]
              exact Image.applyRecord_createCollection isNew

/-- A new collection can be opened again. -/
theorem lasting_openCollection
    (lasting : Lasting engine.databases)
    (database collection : JsString) :
    Lasting (engine.openCollection database collection).1.databases := by
  have frame :=
    databases_append engine [.createCollection database collection]
  unfold StorageEngine.openCollection
  cases engine.getCollection database collection with
  | some store =>
      exact lasting
  | none =>
      dsimp only
      revert frame
      generalize engine.append [.createCollection database collection] =
        result
      intro frame
      rcases result with ⟨later, error | value⟩
      · dsimp only at frame ⊢
        rw [frame]
        exact lasting
      · have lastingLater : Lasting later.databases := by
          have same : later.databases = engine.databases := frame
          rw [same]
          exact lasting
        exact lastingLater.withCollection Collection.lasting_empty _ _

end Opening

end StorageEngine

end SinterDb
