import SinterDb.Storage.CollectionRun
import SinterDb.Storage.Find
import SinterDb.Storage.PlannerSound

namespace SinterDb

open Unicode

/-!
# Reads are scans

Whatever plan is picked, a read gives what a scan of all documents in the order
of their insertion gives.
-/

/-- The entries that decode to a match, in order. -/
def matching
    (test : CompiledFilter)
    (entries : List (JsString × Bytes)) : List LocatedDocument :=
  entries.filterMap fun entry =>
    match decodeDocument entry.2 with
    | .ok document =>
        if test document then
          some ⟨entry.1, entry.2, document⟩
        else
          none
    | .error _ => none

/-- Every entry can be decoded. -/
def AllDecode (entries : List (JsString × Bytes)) : Prop :=
  ∀ entry ∈ entries, ∃ document, decodeDocument entry.2 = .ok document

instance
    (entries : List (JsString × Bytes)) :
    Decidable (AllDecode entries) :=
  decidable_of_iff
    (∀ entry ∈ entries, (decodeDocument entry.2).isOk = true)
    (forall₂_congr fun _ _ => Result.isOk_iff_exists)

section Lists

variable
  {test : CompiledFilter}
  {entries : List (JsString × Bytes)}

/-- The loop over all candidates finds the matches. -/
theorem allMatches_eq
    (decodes : AllDecode entries) :
    allMatches test entries = .ok (matching test entries) := by
  induction entries with
  | nil =>
      rfl
  | cons entry rest inductionHypothesis =>
      obtain ⟨⟨document, isDocument⟩, later⟩ := List.forall_mem_cons.mp decodes
      unfold allMatches
      rw [isDocument, inductionHypothesis later]
      simp only [liftProtocol, Result.ok_bind, matching, List.filterMap_cons,
        isDocument]
      split_ifs <;> rfl

/-- The loop up to the first match finds the first match. -/
theorem firstMatch_eq
    (decodes : AllDecode entries) :
    firstMatch test entries = .ok (matching test entries).head? := by
  induction entries with
  | nil =>
      rfl
  | cons entry rest inductionHypothesis =>
      obtain ⟨⟨document, isDocument⟩, later⟩ := List.forall_mem_cons.mp decodes
      unfold firstMatch
      rw [isDocument, inductionHypothesis later]
      simp only [liftProtocol, Result.ok_bind, matching, List.filterMap_cons,
        isDocument]
      split_ifs <;> rfl

/-- Leaving out entries that do not match changes nothing. -/
theorem matching_filter
    {keep : JsString × Bytes → Bool}
    (keeps :
      ∀ entry ∈ entries, ∀ document, decodeDocument entry.2 = .ok document →
        test document = true → keep entry = true) :
    matching test (entries.filter keep) = matching test entries := by
  induction entries with
  | nil =>
      rfl
  | cons entry rest inductionHypothesis =>
      obtain ⟨keepsFirst, keepsRest⟩ := List.forall_mem_cons.mp keeps
      have later := inductionHypothesis keepsRest
      unfold matching at later ⊢
      cases kept : keep entry with
      | true =>
          rw [List.filter_cons_of_pos kept, List.filterMap_cons,
            List.filterMap_cons, later]
      | false =>
          rw [List.filter_cons_of_neg (by simp [kept]), List.filterMap_cons,
            later]
          cases isDocument : decodeDocument entry.2 with
          | error error =>
              rfl
          | ok document =>
              have fails : test document = false := by
                by_contra passes
                rw [keepsFirst document isDocument
                  (by simpa using passes)] at kept
                cases kept
              simp [fails]

end Lists

/-- Keys that are added one by one are distinct. -/
theorem nodup_foldl_addKey
    {added keys : List JsString}
    (distinct : keys.Nodup) :
    (added.foldl addKey keys).Nodup := by
  induction added generalizing keys with
  | nil =>
      exact distinct
  | cons key rest inductionHypothesis =>
      apply inductionHypothesis
      unfold addKey
      split_ifs with present
      · exact distinct
      · rw [List.nodup_append]
        refine ⟨distinct, List.nodup_singleton _, ?_⟩
        intro left member right isKey same
        obtain rfl := List.mem_singleton.mp isKey
        exact present (same ▸ member)

/-- Keys that nested loops add are distinct. -/
theorem nodup_foldl_addKeys
    {α : Type}
    {keysOf : α → List JsString}
    {items : List α}
    {keys : List JsString}
    (distinct : keys.Nodup) :
    (items.foldl (fun keys item => (keysOf item).foldl addKey keys)
      keys).Nodup := by
  induction items generalizing keys with
  | nil =>
      exact distinct
  | cons item rest inductionHypothesis =>
      exact inductionHypothesis (nodup_foldl_addKey distinct)

/-- The keys of a plan are distinct. -/
theorem nodup_candidateKeys
    {plan : QueryPlan}
    {keys : List JsString}
    (isKeys : candidateKeys plan = some keys) :
    keys.Nodup := by
  cases plan with
  | collScan estimated =>
      cases isKeys
  | idLookup own estimated =>
      obtain rfl := Option.some.inj isKeys
      exact nodup_foldl_addKey List.nodup_nil
  | ixScan index access viaMembership estimated =>
      cases access with
      | equal values =>
          obtain rfl := Option.some.inj isKeys
          exact nodup_foldl_addKeys List.nodup_nil
      | range valueClass lower upper =>
          obtain rfl := Option.some.inj isKeys
          exact nodup_foldl_addKeys List.nodup_nil

namespace Collection

variable
  {collection : Collection}
  {filter : Document}
  {test : CompiledFilter}

/-- Numbers give keys the order in which they were inserted. -/
theorem orderedKeys_eq
    (sequenced : collection.Sequenced)
    (indexed : IndexSet.isEmpty collection.indexes = false)
    {keys : List JsString}
    (distinct : keys.Nodup) :
    collection.orderedKeys keys =
      collection.documents.keys.filter fun key => key ∈ keys := by
  obtain ⟨sequence, isSequence⟩ :=
    Option.ne_none_iff_exists'.mp (sequenced.exists_sequence indexed)
  have numbered := sequenced.numbered sequence isSequence
  have number :
      ∀ key, collection.sequenceOf key = (sequence.get? key).getD 0 := by
    intro key
    simp [sequenceOf, isSequence]
  have increasing :
      collection.documents.keys.Pairwise fun left right =>
        collection.sequenceOf left < collection.sequenceOf right := by
    simp only [number]
    exact numbered.increasing
  have same :
      ∀ key,
        key ∈ keys.filter collection.documents.has ↔
          key ∈ collection.documents.keys.filter fun key => key ∈ keys := by
    intro key
    simp [List.mem_filter, JsMap.has_iff, and_comm]
  have perm :
      (keys.filter collection.documents.has).Perm
        (collection.documents.keys.filter fun key => key ∈ keys) :=
    (List.perm_ext_iff_of_nodup (distinct.filter _)
      (collection.documents.nodup_keys.filter _)).mpr same
  let le : JsString → JsString → Prop := fun left right =>
    collection.sequenceOf left ≤ collection.sequenceOf right
  have total : Std.Total le := ⟨fun _ _ => Nat.le_total _ _⟩
  have transitive : IsTrans JsString le := ⟨fun _ _ _ => Nat.le_trans⟩
  have sorted :
      (collection.orderedKeys keys).Pairwise le :=
    List.pairwise_insertionSort le _
  have sortedStored :
      (collection.documents.keys.filter fun key => key ∈ keys).Pairwise le :=
    (increasing.sublist List.filter_sublist).imp fun less => Nat.le_of_lt less
  refine List.Perm.eq_of_pairwise ?_ sorted sortedStored
    ((List.perm_insertionSort _ _).trans perm)
  intro left right leftMember rightMember forward backward
  -- Stored keys with the same number are the same.
  have stored :
      ∀ key ∈ collection.orderedKeys keys,
        key ∈ collection.documents.keys := by
    intro key member
    rw [orderedKeys, List.mem_insertionSort, List.mem_filter] at member
    exact JsMap.has_iff.mp member.2
  have leftStored := stored left leftMember
  have rightStored := (List.mem_filter.mp rightMember).1
  have distinctNumbers :
      (collection.documents.keys.map collection.sequenceOf).Nodup := by
    rw [List.Nodup, List.pairwise_map]
    exact increasing.imp fun less => Nat.ne_of_lt less
  exact List.inj_on_of_nodup_map distinctNumbers leftStored rightStored
    (Nat.le_antisymm forward backward)

/-- An index lookup leaves the candidates in the order of insertion. -/
theorem candidates_eq
    (sound : collection.Sound)
    (filter : Document) :
    collection.candidates filter =
      collection.documents.entries.filter fun entry =>
        (collection.planKeys filter).all fun keys => entry.1 ∈ keys := by
  unfold candidates
  cases isKeys : collection.planKeys filter with
  | none =>
      simp
  | some keys =>
      have isPlanned := isKeys
      unfold planKeys at isPlanned
      split_ifs at isPlanned with noIndexes
      simp only [Option.all_some]
      rw [orderedKeys_eq sound.toSequenced (by simpa using noIndexes)
        (nodup_candidateKeys isPlanned)]
      exact collection.documents.filterMap_get? fun key => key ∈ keys

/-- Whatever plan is picked, it reaches the stored documents that match. -/
theorem mem_planKeys
    (sound : collection.Sound)
    (compiles : compileFilter filter = .ok test)
    {key : JsString}
    {encoded : Bytes}
    {document : Document}
    (member : (key, encoded) ∈ collection.documents.entries)
    (decodes : decodeDocument encoded = .ok document)
    (passes : test document = true)
    {keys : List JsString}
    (isKeys : collection.planKeys filter = some keys) :
    key ∈ keys := by
  obtain ⟨hasKey, id, hasId, rfl⟩ :=
    (sound.stored key encoded member).decoded decodes
  unfold planKeys at isKeys
  split_ifs at isKeys
  refine reaches_planQuery compiles passes hasId ?_
    (sound.keyed member decodes) keys isKeys
  intro index isIndex
  obtain ⟨⟨name, _⟩, isEntry, rfl⟩ := List.mem_map.mp isIndex
  have found := JsMap.get?_eq_some.mpr isEntry
  exact ⟨sound.wellFormed name _ found,
    sound.known _ document ⟨encoded, member, decodes⟩ name _ found⟩

/-- The candidates hold every document that matches. -/
theorem matching_candidates
    (sound : collection.Sound)
    (compiles : compileFilter filter = .ok test) :
    matching test (collection.candidates filter) =
      matching test collection.documents.entries := by
  rw [candidates_eq sound]
  apply matching_filter
  rintro ⟨key, encoded⟩ member document decodes passes
  rw [Option.all_eq_true]
  intro keys isKeys
  exact decide_eq_true
    (mem_planKeys sound compiles member decodes passes isKeys)

/-- The candidates decode if everything does. -/
theorem allDecode_candidates
    (decodes : AllDecode collection.documents.entries) :
    AllDecode (collection.candidates filter) := fun _ member =>
  decodes _ (mem_candidates member)

/-- An id in a filter is one of the constraints that the planner collects. -/
theorem mem_collect_id
    {id : CustomId}
    (asksFor : Document.get? filter idField = some (.customId id)) :
    (idField, Constraint.equal (.customId id)) ∈ collect filter := by
  have member := Document.mem_of_get? asksFor
  clear asksFor
  induction filter with
  | nil =>
      cases member
  | cons field rest inductionHypothesis =>
      rw [collect, List.mem_append]
      rcases List.mem_cons.mp member with rfl | inRest
      · left
        have isField : ¬ idField = utf16 "$and" := by decide
        have noDollar : ¬ startsWithDollar idField = true := by decide
        rw [if_neg isField, if_neg noDollar]
        exact List.mem_map.mpr ⟨_, List.mem_singleton.mpr rfl, rfl⟩
      · exact .inr (inductionHypothesis inRest)

/-- Only the document with the id that a filter asks for can match it. -/
theorem matching_id
    (sound : collection.Sound)
    (compiles : compileFilter filter = .ok test)
    {id : CustomId}
    (asksFor : Document.get? filter idField = some (.customId id)) :
    matching test
        ((collection.documents.get? id.toHexString).map fun encoded =>
          (id.toHexString, encoded)).toList =
      matching test collection.documents.entries := by
  rw [← JsMap.filter_key]
  apply matching_filter
  rintro ⟨key, encoded⟩ member document decodes passes
  obtain ⟨-, own, hasId, rfl⟩ :=
    (sound.stored key encoded member).decoded decodes
  have satisfied :=
    satisfiesAll_of_compileFilter compiles passes _ (mem_collect_id asksFor)
  have found :
      resolveField document (splitPath idField) = some (.customId own) :=
    hasId
  rw [found] at satisfied
  have isOwn := mem_idKeys satisfied rfl
  simpa [idKey?] using isOwn

/-- `locate` finds the first document of the scan that matches. -/
theorem locate_eq
    (sound : collection.Sound)
    (decodes : AllDecode collection.documents.entries)
    (compiles : compileFilter filter = .ok test) :
    collection.locate filter test =
      .ok (matching test collection.documents.entries).head? := by
  unfold locate
  split
  · rename_i id asksFor
    rw [← matching_id sound compiles asksFor]
    simp only
    cases found : collection.documents.get? id.toHexString with
    | none =>
        rfl
    | some encoded =>
        obtain ⟨document, isDocument⟩ :=
          decodes _ (JsMap.get?_eq_some.mp found)
        simp only [isDocument, liftProtocol, Result.ok_bind, matching,
          Option.map_some, Option.toList_some, List.filterMap_cons,
          List.filterMap_nil]
        split_ifs <;> rfl
  · rw [firstMatch_eq (allDecode_candidates decodes),
      matching_candidates sound compiles]

/-- `findOne` returns what `locate` finds. -/
theorem findOne_eq
    (compiles : compileFilter filter = .ok test) :
    collection.findOne filter = do
      let located ← collection.locate filter test
      return located.map LocatedDocument.document := by
  unfold findOne locate findById
  rw [compiles, Result.ok_bind]
  split
  · rename_i id _
    simp only
    cases collection.documents.get? id.toHexString with
    | none =>
        rfl
    | some encoded =>
        simp only
        cases decodeDocument encoded with
        | error error =>
            rfl
        | ok document =>
            cases passes : test document <;>
              simp [liftProtocol, passes, Option.filter]
  · rfl

/-- The slots hold the entries. -/
theorem documentsFrom_entries
    (position : Nat)
    (slots : List (Option (JsString × Bytes))) :
    (documentsFrom position slots).map Prod.fst = slots.filterMap id := by
  induction slots generalizing position with
  | nil =>
      rfl
  | cons slot rest inductionHypothesis =>
      cases slot with
      | none =>
          exact inductionHypothesis (position + 1)
      | some entry =>
          simp [documentsFrom, inductionHypothesis]

/-- Each document comes with the position behind it. -/
theorem documentsFrom_source
    {position : Nat}
    {slots : List (Option (JsString × Bytes))}
    {before rest : List ((JsString × Bytes) × CandidateSource)}
    {entry : JsString × Bytes}
    {source : CandidateSource}
    (isSplit : documentsFrom position slots = before ++ (entry, source) :: rest) :
    ∃ count, source = .documents (position + count) ∧
      rest = documentsFrom (position + count) (slots.drop count) := by
  induction slots generalizing position before with
  | nil =>
      simp [documentsFrom] at isSplit
  | cons slot later inductionHypothesis =>
      have shift :
          ∀ {before : List ((JsString × Bytes) × CandidateSource)},
            documentsFrom (position + 1) later =
              before ++ (entry, source) :: rest →
            ∃ count, source = .documents (position + count) ∧
              rest = documentsFrom (position + count)
                ((slot :: later).drop count) := by
        intro before inLater
        obtain ⟨count, isSource, isRest⟩ := inductionHypothesis inLater
        refine ⟨count + 1, ?_, ?_⟩
        · rw [isSource, Nat.add_right_comm, Nat.add_assoc]
        · rw [isRest, List.drop_succ_cons, Nat.add_right_comm, Nat.add_assoc]
      cases slot with
      | none =>
          exact shift isSplit
      | some first =>
          cases before with
          | nil =>
              obtain ⟨isFirst, isRest⟩ := List.cons.inj isSplit
              obtain ⟨rfl, rfl⟩ := Prod.mk.inj isFirst
              exact ⟨1, rfl, isRest.symm⟩
          | cons head before =>
              exact shift (List.cons.inj isSplit).2

/-- The keys give the candidates of a plan. -/
theorem keysFrom_entries
    (collection : Collection)
    (keys : List JsString) :
    (collection.keysFrom keys).map Prod.fst =
      keys.filterMap fun key =>
        (collection.documents.get? key).map fun encoded => (key, encoded) := by
  induction keys with
  | nil =>
      rfl
  | cons key rest inductionHypothesis =>
      unfold keysFrom
      cases found : collection.documents.get? key <;>
        simp [found, inductionHypothesis]

/-- Each document comes with the keys behind it. -/
theorem keysFrom_source
    {keys : List JsString}
    {before rest : List ((JsString × Bytes) × CandidateSource)}
    {entry : JsString × Bytes}
    {source : CandidateSource}
    (isSplit :
      collection.keysFrom keys = before ++ (entry, source) :: rest) :
    ∃ later, source = .keys later ∧ rest = collection.keysFrom later := by
  induction keys generalizing before with
  | nil =>
      simp [keysFrom] at isSplit
  | cons key keys inductionHypothesis =>
      unfold keysFrom at isSplit
      split at isSplit
      · cases before with
        | nil =>
            obtain ⟨isFirst, isRest⟩ := List.cons.inj isSplit
            obtain ⟨-, rfl⟩ := Prod.mk.inj isFirst
            exact ⟨keys, rfl, isRest.symm⟩
        | cons head before =>
            exact inductionHypothesis (List.cons.inj isSplit).2
      · exact inductionHypothesis isSplit

/-- The place behind a candidate is where the later candidates remain. -/
theorem remaining_source
    {source next : CandidateSource}
    {before rest : List ((JsString × Bytes) × CandidateSource)}
    {entry : JsString × Bytes}
    (isSplit : collection.remaining source = before ++ (entry, next) :: rest) :
    collection.remaining next = rest := by
  cases source with
  | documents position =>
      obtain ⟨count, rfl, rfl⟩ := documentsFrom_source isSplit
      rw [remaining, List.drop_drop]
  | keys keys =>
      obtain ⟨later, rfl, rfl⟩ := keysFrom_source isSplit
      rfl

/-- What remains at the start are the candidates. -/
theorem remaining_openCandidates
    (collection : Collection)
    (filter : Document) :
    (collection.remaining (collection.openCandidates filter)).map Prod.fst =
      collection.candidates filter := by
  unfold openCandidates candidates
  cases collection.planKeys filter with
  | none =>
      exact documentsFrom_entries 0 collection.documents.slots
  | some keys =>
      exact keysFrom_entries collection _

/-- What `find` is to yield: the scan of all documents, sorted and sliced. -/
def plainScan
    (collection : Collection)
    (filter : Document)
    (options : StorageFindOptions) : Except Thrown (List Document) := do
  let test ← compileFilter filter
  let sorter ← options.sort.mapM compileSort
  let skip ← validateSkip options.skip
  let limit ← validateLimit options.limit
  let matched :=
    (matching test collection.documents.entries).map LocatedDocument.document
  let sorted := (sorter.map fun sort => sort matched).getD matched
  return match limit with
    | none => sorted.drop skip
    | some limit => (sorted.drop skip).take limit

end Collection

namespace Scan

variable
  {scan : Scan}
  {collection : Collection}

/-- The documents that a list of candidates still leads to. -/
def pending
    (scan : Scan)
    (items : List ((JsString × Bytes) × CandidateSource))
    (skipped yielded : Nat) : List Document :=
  let later :=
    ((matching scan.test (items.map Prod.fst)).map
      LocatedDocument.document).drop (scan.skip - skipped)
  match scan.limit with
  | none => later
  | some limit => later.take (limit - yielded)

/-- An outcome of the loop that yields the first of some documents. -/
inductive YieldsFirst
    (scan : Scan)
    (items : List ((JsString × Bytes) × CandidateSource))
    (yielded : Nat) :
    List Document → Except Thrown (Option Document) × ScanState → Prop where
  | finished : YieldsFirst scan items yielded [] (.ok none, .finished)
  | yields
      (document : Document)
      (before : List ((JsString × Bytes) × CandidateSource))
      (entry : JsString × Bytes)
      (source : CandidateSource)
      (rest : List ((JsString × Bytes) × CandidateSource))
      (skipped : Nat)
      (isSplit : items = before ++ (entry, source) :: rest) :
      YieldsFirst scan items yielded
        (document :: scan.pending rest skipped (yielded + 1))
        (.ok (some document), .unsorted source skipped (yielded + 1))

/-- A candidate that is passed over changes nothing. -/
theorem YieldsFirst.cons
    {items : List ((JsString × Bytes) × CandidateSource)}
    {yielded : Nat}
    {documents : List Document}
    {outcome : Except Thrown (Option Document) × ScanState}
    (later : YieldsFirst scan items yielded documents outcome)
    (item : (JsString × Bytes) × CandidateSource) :
    YieldsFirst scan (item :: items) yielded documents outcome := by
  cases later with
  | finished =>
      exact .finished
  | yields document before entry source rest skipped isSplit =>
      exact .yields document (item :: before) entry source rest skipped
        (by rw [isSplit, List.cons_append])

/-- A match that is not skipped comes first, while the limit lasts. -/
theorem pending_cons
    {key : JsString}
    {encoded : Bytes}
    {source : CandidateSource}
    {items : List ((JsString × Bytes) × CandidateSource)}
    {document : Document}
    {skipped yielded : Nat}
    (decodes : decodeDocument encoded = .ok document)
    (passes : scan.test document = true)
    (enough : scan.skip - skipped = 0)
    (notFull : ¬ scan.limit.any (· ≤ yielded) = true) :
    scan.pending (((key, encoded), source) :: items) skipped yielded =
      document :: scan.pending items skipped (yielded + 1) := by
  cases isLimit : scan.limit with
  | none =>
      simp [pending, matching, decodes, passes, isLimit, enough]
  | some limit =>
      have takes : limit - yielded = limit - (yielded + 1) + 1 := by
        rw [isLimit] at notFull
        simp only [Option.any_some, decide_eq_true_eq] at notFull
        omega
      simp [pending, matching, decodes, passes, isLimit, enough, takes]

/-- One run of the loop yields the first of the documents it leads to. -/
theorem advance_spec
    {items : List ((JsString × Bytes) × CandidateSource)}
    (decodes : AllDecode (items.map Prod.fst))
    (skipped yielded : Nat) :
    YieldsFirst scan items yielded (scan.pending items skipped yielded)
      (scan.advance items skipped yielded) := by
  induction items generalizing skipped with
  | nil =>
      have nothing : scan.pending [] skipped yielded = [] := by
        unfold pending
        cases scan.limit <;> simp [matching]
      rw [nothing]
      exact .finished
  | cons item items inductionHypothesis =>
      obtain ⟨⟨key, encoded⟩, source⟩ := item
      obtain ⟨⟨document, isDocument⟩, later⟩ := List.forall_mem_cons.mp decodes
      simp only at isDocument
      unfold advance
      by_cases full : scan.limit.any (· ≤ yielded) = true
      · have nothing :
            scan.pending (((key, encoded), source) :: items) skipped yielded =
              [] := by
          obtain ⟨limit, isLimit, reached⟩ := (Option.any_eq_true _ _).mp full
          have none : limit - yielded = 0 :=
            Nat.sub_eq_zero_of_le (of_decide_eq_true reached)
          simp [pending, isLimit, none]
        rw [nothing, if_pos full]
        exact .finished
      · rw [if_neg full, isDocument]
        cases passes : scan.test document with
        | false =>
            have same :
                scan.pending (((key, encoded), source) :: items) skipped
                    yielded =
                  scan.pending items skipped yielded := by
              simp [pending, matching, isDocument, passes]
            rw [same]
            simpa [passes] using (inductionHypothesis later skipped).cons _
        | true =>
            simp only [passes, Bool.not_true, Bool.false_eq_true, if_false]
            split_ifs with skips
            · have same :
                  scan.pending (((key, encoded), source) :: items) skipped
                      yielded =
                    scan.pending items (skipped + 1) yielded := by
                have drops :
                    scan.skip - skipped = scan.skip - (skipped + 1) + 1 := by
                  omega
                simp only [pending, matching, List.map_cons,
                  List.filterMap_cons, isDocument, passes, if_true, drops,
                  List.drop_succ_cons]
              rw [same]
              exact (inductionHypothesis later (skipped + 1)).cons _
            · rw [pending_cons isDocument passes (by omega) full]
              exact .yields document [] (key, encoded) source items skipped rfl

/-- One call of `next` inside the loop. -/
theorem consume_advance
    {calls : Nat}
    {source : CandidateSource}
    {skipped yielded : Nat}
    (decodes : AllDecode ((collection.remaining source).map Prod.fst))
    (steps :
      scan.step collection =
        scan.advance (collection.remaining source) skipped yielded)
    (goesOn :
      ∀ next nowSkipped,
        AllDecode ((collection.remaining next).map Prod.fst) →
        consume collection calls
            { scan with state := .unsorted next nowSkipped (yielded + 1) } =
          .ok ((scan.pending (collection.remaining next) nowSkipped
            (yielded + 1)).take calls)) :
    consume collection (calls + 1) scan =
      .ok ((scan.pending (collection.remaining source) skipped yielded).take
        (calls + 1)) := by
  have advances := @advance_spec scan _ decodes skipped yielded
  rw [← steps] at advances
  unfold consume next
  generalize scan.step collection = outcome at advances
  generalize scan.pending (collection.remaining source) skipped yielded =
    documents at advances
  cases advances with
  | finished =>
      rfl
  | yields document before entry next rest nowSkipped isSplit =>
      obtain rfl := Collection.remaining_source isSplit
      have inside :
          AllDecode ((collection.remaining next).map Prod.fst) := by
        intro other member
        refine decodes other ?_
        rw [isSplit, List.map_append, List.map_cons]
        exact List.mem_append_right _ (List.mem_cons_of_mem _ member)
      simp only
      rw [goesOn next nowSkipped inside, List.take_succ_cons]
      rfl

/-- Inside the loop, `consume` collects the documents it leads to. -/
theorem consume_unsorted
    (calls : Nat)
    {source : CandidateSource}
    {skipped yielded : Nat}
    (decodes : AllDecode ((collection.remaining source).map Prod.fst)) :
    consume collection calls
        { scan with state := .unsorted source skipped yielded } =
      .ok ((scan.pending (collection.remaining source) skipped yielded).take
        calls) := by
  induction calls generalizing source skipped yielded with
  | zero =>
      rfl
  | succ calls inductionHypothesis =>
      exact consume_advance decodes rfl fun next nowSkipped inside =>
        inductionHypothesis inside

/-- One call of `next` once the documents are in order. -/
theorem consume_nextSorted
    {calls : Nat}
    {rest : List Document}
    (steps : scan.step collection = nextSorted rest)
    (goesOn :
      ∀ later,
        consume collection calls { scan with state := .sorted later } =
          .ok (later.take calls)) :
    consume collection (calls + 1) scan = .ok (rest.take (calls + 1)) := by
  unfold consume next
  rw [steps]
  cases rest with
  | nil =>
      rfl
  | cons document rest =>
      simp only [nextSorted]
      rw [goesOn rest]
      rfl

/-- Once the documents are in order, `consume` collects them. -/
theorem consume_sorted
    (calls : Nat)
    (rest : List Document) :
    consume collection calls { scan with state := .sorted rest } =
      .ok (rest.take calls) := by
  induction calls generalizing rest with
  | zero =>
      rfl
  | succ calls inductionHypothesis =>
      exact consume_nextSorted rfl inductionHypothesis

end Scan

end SinterDb
