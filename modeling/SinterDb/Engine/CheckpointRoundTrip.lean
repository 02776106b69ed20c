import SinterDb.Engine.Checkpoint

namespace SinterDb

open Unicode
open Crc32

/-!
# Snapshots are read back

The chunks of a snapshot add up to its header and its collections, whatever
pauses lie between them, and the reader takes exactly these bytes.
-/

/-- A name that can be written and that the text coding restores. -/
structure IsRestoredName (name : JsString) : Prop where
  decodes : TextDecoder.decode (TextEncoder.encode name) = some name
  notEmpty : 0 < (TextEncoder.encode name).length
  short : (TextEncoder.encode name).length ≤ maxNameByteLength

/-- The bytes of a document and its key. -/
def rawEntry (entry : JsString × Bytes) : Bytes :=
  (bytesFromHex entry.1 ++ List.replicate idByteLength 0).take idByteLength ++
    lengthPrefixed entry.2

/-- The bytes of a collection. -/
def rawCollection (collection : CheckpointCollection) : Bytes :=
  rawName collection.database ++ (rawName collection.collection ++
    (BigEndian.encode 2 collection.indexes.length ++
      (collection.indexes.flatMap rawIndexSpec ++
        (BigEndian.encode 4 collection.documentCount ++
          collection.documents.flatMap rawEntry))))

/-- A collection that can be written and read back. -/
structure CheckpointCollection.Valid
    (collection : CheckpointCollection) : Prop where
  database : IsRestoredName collection.database
  name : IsRestoredName collection.collection
  indexes :
    ∀ spec ∈ collection.indexes,
      (∃ input, normalizeIndexSpec input = .ok spec) ∧
        IsRestoredName spec.name ∧ IsRestoredName spec.field
  fewIndexes : collection.indexes.length < 2 ^ 16
  keys :
    ∀ entry ∈ collection.documents,
      ∃ id : Bytes, id.length = idByteLength ∧ entry.1 = hexString id
  distinct : (collection.documents.map Prod.fst).Nodup
  count : collection.documentCount = collection.documents.length
  fewDocuments : collection.documents.length < 2 ^ 32
  sizes : ∀ entry ∈ collection.documents, entry.2.length < 2 ^ 32

/-- A name is written as its bytes. -/
theorem encodeName_restored
    {name : JsString}
    (isName : IsRestoredName name) :
    encodeName name = .ok (rawName name) := by
  have positive := isName.notEmpty
  have short := isName.short
  unfold encodeName
  simp only
  rw [if_neg (by omega)]
  rfl

namespace SnapshotWriter

/-- The bytes that a writer has taken, with the checksum of those in the
file. -/
structure Holds (writer : SnapshotWriter) (data : Bytes) : Prop where
  contents : writer.file ++ writer.pending.flatten = data
  count : writer.pendingBytes = writer.pending.flatten.length
  checksum : writer.checksum = crc32 writer.file

variable
  {writer : SnapshotWriter}
  {data : Bytes}

/-- Adding bytes adds them at the end. -/
theorem Holds.add
    (holds : writer.Holds data)
    (bytes : Bytes) :
    (writer.add bytes).Holds (data ++ bytes) := by
  refine ⟨?_, ?_, holds.checksum⟩
  · simp only [SnapshotWriter.add, List.flatten_append, List.flatten_singleton,
      ← List.append_assoc, holds.contents]
  · simp [SnapshotWriter.add, holds.count]

/-- A flush moves the bytes to the file. -/
theorem Holds.flush
    (holds : writer.Holds data) :
    writer.flush.Holds data ∧ writer.flush.file = data := by
  unfold SnapshotWriter.flush
  split_ifs with nothing
  · have empty : writer.pending.flatten = [] := by
      rw [← List.length_eq_zero_iff, ← holds.count, nothing]
    have contents := holds.contents
    rw [empty, List.append_nil] at contents
    exact ⟨holds, contents⟩
  · refine ⟨⟨?_, rfl, ?_⟩, holds.contents⟩
    · simpa using holds.contents
    · simp only [holds.checksum]
      exact crc32From_crc32 _ _

/-- A pause changes nothing about the bytes. -/
theorem Holds.pause
    (holds : writer.Holds data) :
    writer.pause.Holds data := by
  unfold SnapshotWriter.pause
  split_ifs
  · obtain ⟨flushed, -⟩ := holds.flush
    exact ⟨flushed.contents, flushed.count, flushed.checksum⟩
  · exact holds

/-- A loop of steps that each add their bytes adds all of them. -/
theorem Holds.foldlM
    {item : Type}
    {step : SnapshotWriter → item → Except Thrown SnapshotWriter}
    {raw : item → Bytes}
    {items : List item}
    (steps :
      ∀ value ∈ items, ∀ (writer : SnapshotWriter) (data : Bytes),
        writer.Holds data →
          ∃ next, step writer value = .ok next ∧
            next.Holds (data ++ raw value))
    (holds : writer.Holds data) :
    ∃ final, items.foldlM step writer = .ok final ∧
      final.Holds (data ++ items.flatMap raw) := by
  induction items generalizing writer data with
  | nil =>
      exact ⟨writer, rfl, by simpa using holds⟩
  | cons value items inductionHypothesis =>
      obtain ⟨first, later⟩ := List.forall_mem_cons.mp steps
      obtain ⟨next, isNext, holdsNext⟩ := first writer data holds
      obtain ⟨final, isFinal, holdsFinal⟩ :=
        inductionHypothesis later holdsNext
      refine ⟨final, ?_, ?_⟩
      · rw [List.foldlM_cons, isNext]
        exact isFinal
      · rw [List.flatMap_cons, ← List.append_assoc]
        exact holdsFinal

/-- A document adds its bytes. -/
theorem Holds.addDocument
    (holds : writer.Holds data)
    {entry : JsString × Bytes}
    (small : entry.2.length < 2 ^ 32) :
    ∃ next, writer.addDocument entry = .ok next ∧
      next.Holds (data ++ rawEntry entry) := by
  have fits : entry.2.length < 256 ^ 4 := by simpa using small
  unfold SnapshotWriter.addDocument writeUIntBE
  rw [if_pos fits]
  refine ⟨_, rfl, ?_⟩
  rw [rawEntry, lengthPrefixed, ← List.append_assoc, ← List.append_assoc,
    List.append_assoc data]
  exact ((holds.add _).add entry.2).pause

/-- An index adds its bytes. -/
theorem Holds.addIndex
    (holds : writer.Holds data)
    {spec : IndexSpec}
    (name : IsRestoredName spec.name)
    (field : IsRestoredName spec.field) :
    ∃ next, writer.addIndex spec = .ok next ∧
      next.Holds (data ++ rawIndexSpec spec) := by
  unfold SnapshotWriter.addIndex encodeIndexSpec
  rw [encodeName_restored name, encodeName_restored field]
  refine ⟨_, rfl, ?_⟩
  have added := holds.add (rawIndexSpec spec)
  rw [rawIndexSpec, ← List.append_assoc (rawName spec.name)] at added
  rw [rawIndexSpec, ← List.append_assoc (rawName spec.name)]
  exact added

/-- A collection adds its bytes. -/
theorem Holds.addCollection
    (holds : writer.Holds data)
    {collection : CheckpointCollection}
    (valid : collection.Valid) :
    ∃ next, writer.addCollection collection = .ok next ∧
      next.Holds (data ++ rawCollection collection) := by
  have fewIndexes : collection.indexes.length < 256 ^ 2 := by
    simpa using valid.fewIndexes
  have fewDocuments : collection.documentCount < 256 ^ 4 := by
    simpa [valid.count] using valid.fewDocuments
  have addsIndex :
      ∀ spec ∈ collection.indexes,
        ∀ (writer : SnapshotWriter) (data : Bytes), writer.Holds data →
          ∃ next, writer.addIndex spec = .ok next ∧
            next.Holds (data ++ rawIndexSpec spec) := by
    intro spec member writer data holds
    obtain ⟨-, name, field⟩ := valid.indexes spec member
    exact holds.addIndex name field
  have addsDocument :
      ∀ entry ∈ collection.documents,
        ∀ (writer : SnapshotWriter) (data : Bytes), writer.Holds data →
          ∃ next, writer.addDocument entry = .ok next ∧
            next.Holds (data ++ rawEntry entry) :=
    fun entry member writer data holds =>
      holds.addDocument (valid.sizes entry member)
  obtain ⟨indexed, isIndexed, holdsIndexed⟩ :=
    Holds.foldlM addsIndex
      (((holds.add (rawName collection.database)).add
        (rawName collection.collection)).add
          (BigEndian.encode 2 collection.indexes.length))
  obtain ⟨final, isFinal, holdsFinal⟩ :=
    Holds.foldlM addsDocument
      (holdsIndexed.add (BigEndian.encode 4 collection.documentCount))
  refine ⟨final, ?_, ?_⟩
  · unfold SnapshotWriter.addCollection writeUIntBE
    rw [encodeName_restored valid.database, encodeName_restored valid.name,
      if_pos fewIndexes, if_pos fewDocuments]
    simp only [Result.ok_bind]
    rw [isIndexed]
    exact isFinal
  · simpa only [rawCollection, List.append_assoc] using holdsFinal

end SnapshotWriter

/-- The file of valid collections. -/
theorem writeCheckpointSteps_eq
    {lsn : Nat}
    {collections : List CheckpointCollection}
    (small : lsn < 2 ^ 64)
    (few : collections.length < 2 ^ 32)
    (valid : ∀ collection ∈ collections, collection.Valid) :
    writeCheckpointSteps lsn collections =
      .ok (snapshotHeader lsn collections.length ++
        collections.flatMap rawCollection ++
          (BigEndian.encode 4
            (crc32 (snapshotHeader lsn collections.length ++
              collections.flatMap rawCollection)) ++ endMagic)) := by
  have fitsLsn : lsn < 256 ^ 8 := by simpa using small
  have fitsCount : collections.length < 256 ^ 4 := by simpa using few
  have start : ({} : SnapshotWriter).Holds [] := ⟨rfl, rfl, rfl⟩
  have adds :
      ∀ collection ∈ collections,
        ∀ (writer : SnapshotWriter) (data : Bytes), writer.Holds data →
          ∃ next, writer.addCollection collection = .ok next ∧
            next.Holds (data ++ rawCollection collection) :=
    fun collection member writer data holds =>
      holds.addCollection (valid collection member)
  obtain ⟨final, isFinal, holdsFinal⟩ :=
    SnapshotWriter.Holds.foldlM adds
      (start.add (snapshotHeader lsn collections.length))
  obtain ⟨flushed, isFile⟩ := holdsFinal.flush
  have checksum := flushed.checksum
  unfold writeCheckpointSteps writeUIntBE
  rw [if_pos fitsLsn, if_pos fitsCount]
  simp only [Result.ok_bind]
  rw [isFinal]
  simp only [Result.ok_bind]
  rw [checksum, isFile]
  rfl

/-- A hexadecimal digit is read back. -/
theorem hexValue?_hexDigit
    {value : Nat}
    (small : value < 16) :
    hexValue? (hexDigit value) = some value := by
  interval_cases value <;> rfl

/-- Bytes come back from their hexadecimal form. -/
theorem bytesFromHex_hexString
    (bytes : Bytes) :
    bytesFromHex (hexString bytes) = bytes := by
  induction bytes with
  | nil =>
      rfl
  | cons byte rest inductionHypothesis =>
      have shape :
          hexString (byte :: rest) =
            hexDigit (byte.toNat / 16) :: hexDigit (byte.toNat % 16) ::
              hexString rest := rfl
      have bound := byte.toNat_lt
      rw [shape, bytesFromHex, hexValue?_hexDigit (by omega),
        hexValue?_hexDigit (Nat.mod_lt _ (by decide))]
      simp only
      rw [inductionHypothesis, Nat.div_add_mod, UInt8.ofNat_toNat]

/-- The bytes of a document under a valid key. -/
theorem rawEntry_eq
    {entry : JsString × Bytes}
    {id : Bytes}
    (length : id.length = idByteLength)
    (isKey : entry.1 = hexString id) :
    rawEntry entry = id ++ lengthPrefixed entry.2 := by
  rw [rawEntry, isKey, bytesFromHex_hexString, List.take_left' length]

namespace SnapshotReader

/-- A name is read back. -/
theorem reads_name
    {name : JsString}
    (isName : IsRestoredName name) :
    SnapshotReader.name.Reads (rawName name) (.ok name) := by
  have short := isName.short
  unfold maxNameByteLength at short
  exact Reader.reads_text _ _ _ isName.decodes isName.notEmpty (by omega)

/-- An index is read back. -/
theorem reads_index
    {spec : IndexSpec}
    {input : CreateIndexInput}
    (normalizes : normalizeIndexSpec input = .ok spec)
    (isName : IsRestoredName spec.name)
    (isField : IsRestoredName spec.field) :
    index.Reads (rawIndexSpec spec) (.ok spec) := by
  have reads :=
    @reads_indexSpec _ _ unexpectedEnd (fun reason => ⟨malformedMessage reason⟩)
      _ _ _ (reads_name isName) (reads_name isField)
  rw [decodeIndexSpec_eq _ (isIndexSpec_of_normalized normalizes)] at reads
  intro rest
  change Except.mapError _ _ = _
  rw [show readIndexSpec name (uint 1) (fun reason => ⟨malformedMessage reason⟩)
    (rawIndexSpec spec ++ rest) = _ from reads rest]
  rfl

/-- A document is read back. -/
theorem reads_document
    {entry : JsString × Bytes}
    {id : Bytes}
    (length : id.length = idByteLength)
    (isKey : entry.1 = hexString id)
    (small : entry.2.length < 2 ^ 32) :
    document.Reads (rawEntry entry) (.ok entry) := by
  have readsId := Reader.reads_bytes unexpectedEnd id
  rw [length] at readsId
  have readsLength :=
    Reader.reads_uint unexpectedEnd
      (by simpa using small : entry.2.length < 256 ^ 4)
  rw [rawEntry_eq length isKey, lengthPrefixed]
  unfold document
  refine readsId.bind (readsLength.bind ?_)
  refine (Reader.reads_bytes unexpectedEnd entry.2).bind_nil ?_
  rw [← isKey]
  exact .pure entry

/-- Values that are read back one by one are read back in a row. -/
theorem reads_all
    {α : Type}
    {read : Reader CheckpointDamagedError α}
    {raw : α → Bytes}
    {items : List α}
    (reads : ∀ item ∈ items, read.Reads (raw item) (.ok item)) :
    (Reader.times read items.length).Reads (items.flatMap raw)
      (.ok items) := by
  have results := Reader.reads_times reads
  rwa [Result.mapM_eq_self_iff.mpr fun _ _ => rfl] at results

/-- What a collection is recovered as. -/
def recovered (collection : CheckpointCollection) : RecoveredCollection :=
  ⟨collection.database, collection.collection,
    .ofEntries collection.documents, collection.indexes⟩

/-- A collection is read back. -/
theorem reads_collection
    {source : CheckpointCollection}
    (valid : source.Valid) :
    (collection checkpointFormatVersion).Reads (rawCollection source)
      (.ok (recovered source)) := by
  have fewIndexes : source.indexes.length < 256 ^ 2 := by
    simpa using valid.fewIndexes
  have fewDocuments : source.documentCount < 256 ^ 4 := by
    simpa [valid.count] using valid.fewDocuments
  have readsIndexes : (Reader.times index source.indexes.length).Reads
      (source.indexes.flatMap rawIndexSpec) (.ok source.indexes) := by
    refine reads_all ?_
    intro spec member
    obtain ⟨⟨input, normalizes⟩, name, field⟩ := valid.indexes spec member
    exact reads_index normalizes name field
  have readsDocuments : (Reader.times document source.documentCount).Reads
      (source.documents.flatMap rawEntry) (.ok source.documents) := by
    rw [valid.count]
    refine reads_all ?_
    intro entry member
    obtain ⟨id, length, isKey⟩ := valid.keys entry member
    exact reads_document length isKey (valid.sizes entry member)
  have readsSpecs : (indexes checkpointFormatVersion).Reads
      (BigEndian.encode 2 source.indexes.length ++
        source.indexes.flatMap rawIndexSpec) (.ok source.indexes) :=
    (Reader.reads_uint unexpectedEnd fewIndexes).bind readsIndexes
  unfold collection rawCollection
  refine (reads_name valid.database).bind ((reads_name valid.name).bind ?_)
  rw [← List.append_assoc]
  refine readsSpecs.bind ?_
  refine (Reader.reads_uint unexpectedEnd fewDocuments).bind ?_
  exact readsDocuments.bind_nil (.pure _)

/-- Reading a collection is local. -/
theorem isLocal_collection
    (version : Nat) :
    (collection version).IsLocal := by
  have localName : name.IsLocal := Reader.isLocal_text _ _ _
  have localIndex : index.IsLocal := by
    refine Reader.IsLocal.mapError ?_
    exact localName.bind fun _ => localName.bind fun _ =>
      (Reader.isLocal_uint _ _).bind fun _ => .lift _
  have localDocument : document.IsLocal :=
    (Reader.isLocal_bytes _ _).bind fun _ =>
      (Reader.isLocal_uint _ _).bind fun _ =>
        (Reader.isLocal_bytes _ _).bind fun _ => .pure _
  have localIndexes : (indexes version).IsLocal := by
    unfold indexes
    split_ifs
    · exact (Reader.isLocal_uint _ _).bind fun count =>
        Reader.isLocal_times localIndex count
    · exact .pure _
  exact localName.bind fun _ => localName.bind fun _ =>
    localIndexes.bind fun _ => (Reader.isLocal_uint _ _).bind fun count =>
      (Reader.isLocal_times localDocument count).bind fun _ => .pure _

end SnapshotReader

/-- The bytes of a snapshot: its header, its collections and its footer. -/
def snapshotFile (header body : Bytes) : Bytes :=
  header ++ (body ++
    (BigEndian.encode 4 (crc32 (header ++ body)) ++ endMagic))

/-- The length of a header. -/
@[simp] theorem length_snapshotHeader
    (lsn count : Nat) :
    (snapshotHeader lsn count).length = 24 := by
  simp [snapshotHeader, snapshotMagic]

/-- A byte string in front of the bytes that are read does not matter. -/
theorem subarray_take
    (bytes : Bytes)
    {start stop count : Nat}
    (within : stop ≤ count) :
    Buffer.subarray (bytes.take count) start stop =
      Buffer.subarray bytes start stop := by
  unfold Buffer.subarray
  rw [List.drop_take, List.take_take]
  congr 1
  omega

/-- A part of a byte string in two parts. -/
theorem subarray_split
    (bytes : Bytes)
    {start middle stop : Nat}
    (startsBefore : start ≤ middle)
    (stopsAfter : middle ≤ stop) :
    Buffer.subarray bytes start stop =
      Buffer.subarray bytes start middle ++
        Buffer.subarray bytes middle stop := by
  unfold Buffer.subarray
  have length : stop - start = (middle - start) + (stop - middle) := by omega
  have offset : start + (middle - start) = middle := by omega
  rw [length, List.take_add, List.drop_drop, offset]

/-- What has been checked of the bytes that `parseCheckpoint` accepts. -/
theorem parseCheckpoint_ok
    {bytes : Bytes}
    {result : ReadCheckpoint}
    (reads : parseCheckpoint bytes = .ok result) :
    36 ≤ bytes.length ∧
      Reader.times
          (SnapshotReader.collection (Buffer.readUIntBE bytes 8 4))
          (Buffer.readUIntBE bytes 20 4)
          (Buffer.subarray bytes 24 (bytes.length - 12)) =
        .ok (result.collections, []) := by
  unfold parseCheckpoint at reads
  simp only [snapshotHeaderSize, snapshotFooterSize] at reads
  obtain ⟨longEnough, reads⟩ := Result.else_of_ok reads
  obtain ⟨-, reads⟩ := Result.else_of_ok reads
  obtain ⟨-, reads⟩ := Result.else_of_ok reads
  obtain ⟨-, reads⟩ := Result.else_of_ok reads
  obtain ⟨-, reads⟩ := Result.else_of_ok reads
  obtain ⟨⟨collections, rest⟩, isOutput, reads⟩ := Result.bind_eq_ok.mp reads
  simp only at reads
  split_ifs at reads with atEnd
  · obtain rfl := Except.ok.inj reads
    subst atEnd
    exact ⟨by omega, isOutput⟩

/-- The bytes of the file of a snapshot are accepted. -/
theorem parseCheckpoint_file
    {lsn count : Nat}
    {body : Bytes}
    {collections : List RecoveredCollection}
    (small : lsn < 2 ^ 64)
    (few : count < 2 ^ 32)
    (reads :
      (Reader.times (SnapshotReader.collection checkpointFormatVersion)
        count).Reads body (.ok collections)) :
    parseCheckpoint (snapshotFile (snapshotHeader lsn count) body) =
      .ok ⟨lsn, collections⟩ := by
  have fitsLsn : lsn < 256 ^ 8 := by simpa using small
  have fitsCount : count < 256 ^ 4 := by simpa using few
  obtain ⟨header, isHeader⟩ : ∃ header, snapshotHeader lsn count = header :=
    ⟨_, rfl⟩
  have headerLength : header.length = 24 := by
    rw [← isHeader, length_snapshotHeader]
  obtain ⟨checksum, isChecksum⟩ :
      ∃ checksum, BigEndian.encode 4 (crc32 (header ++ body)) = checksum :=
    ⟨_, rfl⟩
  have checksumLength : checksum.length = 4 := by
    rw [← isChecksum, BigEndian.length_encode]
  have endLength : endMagic.length = 8 := rfl
  have length :
      (header ++ (body ++ (checksum ++ endMagic))).length =
        24 + body.length + 12 := by
    simp only [List.length_append, headerLength, checksumLength, endLength]
    omega
  have ending :
      (header ++ (body ++ (checksum ++ endMagic))).drop
        (24 + body.length + 4) = endMagic := by
    rw [← List.append_assoc, ← List.append_assoc]
    refine List.drop_left' ?_
    simp only [List.length_append, headerLength, checksumLength]
  have sum :
      Buffer.readUIntBE (header ++ (body ++ (checksum ++ endMagic)))
        (24 + body.length) 4 = crc32 (header ++ body) := by
    rw [← List.append_assoc, Buffer.readUIntBE_middle (header ++ body)
      checksum endMagic (by simp [headerLength]) checksumLength, ← isChecksum,
      BigEndian.decode_encode_of_lt (crc32_lt _)]
  have front :
      (header ++ (body ++ (checksum ++ endMagic))).take (24 + body.length) =
        header ++ body := by
    rw [← List.append_assoc]
    exact List.take_left' (by simp [headerLength])
  have middle :
      Buffer.subarray (header ++ (body ++ (checksum ++ endMagic))) 24
        (24 + body.length) = body :=
    Buffer.subarray_middle header body _ headerLength (by omega)
  -- The numbers of the header are read from its own bytes.
  have parts :
      ∀ after : Bytes,
        (snapshotHeader lsn count ++ after).take 8 = snapshotMagic ∧
          Buffer.readUIntBE (snapshotHeader lsn count ++ after) 8 4 =
            checkpointFormatVersion ∧
          Buffer.readUIntBE (snapshotHeader lsn count ++ after) 12 8 = lsn ∧
          Buffer.readUIntBE (snapshotHeader lsn count ++ after) 20 4 =
            count := by
    intro after
    have version :
        BigEndian.decode (BigEndian.encode 4 checkpointFormatVersion) =
          checkpointFormatVersion :=
      BigEndian.decode_encode_of_lt (by decide)
    unfold snapshotHeader
    simp only [List.append_assoc]
    refine ⟨List.take_left' rfl, ?_, ?_, ?_⟩
    · rw [Buffer.readUIntBE_middle snapshotMagic _ _
        (by rfl : snapshotMagic.length = 8) (BigEndian.length_encode _ _),
        version]
    · rw [← List.append_assoc, Buffer.readUIntBE_middle _ _ _
        (by simp [snapshotMagic] : _ = 12) (BigEndian.length_encode _ _),
        BigEndian.decode_encode_of_lt fitsLsn]
    · rw [← List.append_assoc, ← List.append_assoc,
        Buffer.readUIntBE_middle _ _ _ (by simp [snapshotMagic] : _ = 20)
          (BigEndian.length_encode _ _),
        BigEndian.decode_encode_of_lt fitsCount]
  obtain ⟨isMagic, isVersion, isLsn, isCount⟩ :=
    parts (body ++ (checksum ++ endMagic))
  have output := reads []
  rw [List.append_nil] at output
  rw [isHeader] at isMagic isVersion isLsn isCount
  unfold parseCheckpoint snapshotFile
  rw [isHeader, isChecksum]
  simp only [snapshotHeaderSize, snapshotFooterSize, length,
    Nat.add_sub_cancel]
  rw [if_neg (by omega), if_neg (by rw [ending]; simp),
    if_neg (by rw [sum, front]; simp), if_neg (by rw [isMagic]; simp),
    isVersion, if_neg (by decide), isLsn, isCount, middle, output]
  rfl

section Sizes

/-- How many bytes a name takes. -/
def nameSize (name : JsString) : Nat :=
  2 + (TextEncoder.encode name).length

/-- How many bytes the definition of an index takes. -/
def indexSpecSize (spec : IndexSpec) : Nat :=
  nameSize spec.name + nameSize spec.field + 1

/-- How many bytes a document takes with its key and its length. -/
def entrySize (entry : JsString × Bytes) : Nat :=
  idByteLength + 4 + entry.2.length

/-- How many bytes a collection takes. -/
def collectionSize (collection : CheckpointCollection) : Nat :=
  nameSize collection.database + nameSize collection.collection +
    (2 + (collection.indexes.map indexSpecSize).sum) +
    (4 + (collection.documents.map entrySize).sum)

/-- How many bytes the snapshot of some collections takes. -/
def checkpointSize (collections : List CheckpointCollection) : Nat :=
  snapshotHeaderSize + (collections.map collectionSize).sum +
    snapshotFooterSize

/-- The length of a written name. -/
theorem length_rawName
    (name : JsString) :
    (rawName name).length = nameSize name := by
  simp [rawName, nameSize]

/-- The length of a written index definition. -/
theorem length_rawIndexSpec
    (spec : IndexSpec) :
    (rawIndexSpec spec).length = indexSpecSize spec := by
  simp [rawIndexSpec, indexSpecSize, length_rawName, Nat.add_assoc]

/-- The length of a written document. -/
theorem length_rawEntry
    (entry : JsString × Bytes) :
    (rawEntry entry).length = entrySize entry := by
  simp [rawEntry, entrySize, lengthPrefixed, Nat.add_assoc]

/-- The length of a written collection. -/
theorem length_rawCollection
    (collection : CheckpointCollection) :
    (rawCollection collection).length = collectionSize collection := by
  simp only [rawCollection, collectionSize, List.length_append,
    List.length_flatMap, BigEndian.length_encode, length_rawName,
    List.map_congr_left fun spec _ => length_rawIndexSpec spec,
    List.map_congr_left fun entry _ => length_rawEntry entry]
  omega

/-- The length of a snapshot. -/
theorem length_snapshotFile
    (lsn : Nat)
    (collections : List CheckpointCollection) :
    (snapshotFile (snapshotHeader lsn collections.length)
      (collections.flatMap rawCollection)).length =
        checkpointSize collections := by
  have endLength : endMagic.length = 8 := rfl
  simp only [snapshotFile, checkpointSize, List.length_append,
    List.length_flatMap, BigEndian.length_encode, length_snapshotHeader,
    List.map_congr_left fun collection _ => length_rawCollection collection,
    endLength, snapshotHeaderSize, snapshotFooterSize]
  omega

/-- A snapshot takes what the documents of one of its collections take. -/
theorem entries_le_checkpointSize
    (collection : CheckpointCollection) :
    (collection.documents.map entrySize).sum ≤
      checkpointSize [collection] := by
  simp only [checkpointSize, collectionSize, List.map_singleton,
    List.sum_singleton]
  omega

end Sizes

/-- No front part of bytes that are read as a snapshot is one itself. -/
theorem parseCheckpoint_take
    {file : Bytes}
    {whole : ReadCheckpoint}
    (isFile : parseCheckpoint file = .ok whole)
    {count : Nat}
    (isShorter : count < file.length)
    (result : ReadCheckpoint) :
    parseCheckpoint (file.take count) ≠ .ok result := by
  intro accepted
  obtain ⟨longEnough, output⟩ := parseCheckpoint_ok accepted
  obtain ⟨-, whole⟩ := parseCheckpoint_ok isFile
  have length : (file.take count).length = count := by
    rw [List.length_take]
    omega
  rw [length] at longEnough output
  rw [Buffer.readUIntBE, Buffer.readUIntBE,
    subarray_take file (by omega), subarray_take file (by omega),
    subarray_take file (by omega)] at output
  -- The whole file continues the part that was read.
  have continues :
      Buffer.subarray file 24 (file.length - 12) =
        Buffer.subarray file 24 (count - 12) ++
          Buffer.subarray file (count - 12) (file.length - 12) :=
    subarray_split file (by omega) (by omega)
  have isLocal :=
    Reader.isLocal_times (SnapshotReader.isLocal_collection
      (Buffer.readUIntBE file 8 4)) (Buffer.readUIntBE file 20 4)
  have goesOn :=
    isLocal _ _ _ (Buffer.subarray file (count - 12) (file.length - 12))
      output
  rw [← continues, whole] at goesOn
  have nothing := (Prod.mk.inj (Except.ok.inj goesOn)).2
  have none := congrArg List.length nothing
  simp only [Buffer.subarray, List.nil_append, List.length_nil,
    List.length_take, List.length_drop] at none
  omega

/-- A file that is short enough is read as what its bytes are. -/
theorem readCheckpoint_of_le
    {bytes : Bytes}
    (short : bytes.length ≤ maxReadFileSize) :
    readCheckpoint bytes = parseCheckpoint bytes :=
  if_neg (Nat.not_lt.mpr short)

/-- What is read is what the bytes are, in a file that is short enough. -/
theorem readCheckpoint_eq_ok
    {bytes : Bytes}
    {result : ReadCheckpoint}
    (reads : readCheckpoint bytes = .ok result) :
    bytes.length ≤ maxReadFileSize ∧ parseCheckpoint bytes = .ok result := by
  unfold readCheckpoint at reads
  obtain ⟨short, parses⟩ := Result.else_of_ok reads
  exact ⟨Nat.le_of_not_lt short, parses⟩

/-- The bytes that `writeCheckpointSteps` writes are those of the
collections. -/
theorem exists_snapshot
    {lsn : Nat}
    {collections : List CheckpointCollection}
    (small : lsn < 2 ^ 64)
    (few : collections.length < 2 ^ 32)
    (valid : ∀ collection ∈ collections, collection.Valid) :
    ∃ file, writeCheckpointSteps lsn collections = .ok file ∧
      file.length = checkpointSize collections ∧
      parseCheckpoint file =
        .ok ⟨lsn, collections.map SnapshotReader.recovered⟩ := by
  have reads :
      (Reader.times (SnapshotReader.collection checkpointFormatVersion)
        collections.length).Reads (collections.flatMap rawCollection)
        (.ok (collections.map SnapshotReader.recovered)) := by
    have results :=
      Reader.reads_times fun collection member =>
        SnapshotReader.reads_collection (valid collection member)
    rwa [Result.mapM_eq_ok fun _ _ => rfl] at results
  refine ⟨_, ?_, length_snapshotFile lsn collections,
    parseCheckpoint_file small few reads⟩
  rw [writeCheckpointSteps_eq small few valid, snapshotFile,
    List.append_assoc]

/--
What `writeCheckpointSteps` writes is read back, and no front part of it is
accepted, exactly if the snapshot is shorter than 2 GiB: the writer goes on
beyond that, but `readFileSync` refuses a longer file.
-/
theorem readCheckpoint_writeCheckpointSteps_iff
    {lsn : Nat}
    {collections : List CheckpointCollection}
    (small : lsn < 2 ^ 64)
    (few : collections.length < 2 ^ 32)
    (valid : ∀ collection ∈ collections, collection.Valid) :
    (∃ file, writeCheckpointSteps lsn collections = .ok file ∧
      readCheckpoint file =
        .ok ⟨lsn, collections.map SnapshotReader.recovered⟩ ∧
      (∀ collection ∈ collections,
        (SnapshotReader.recovered collection).documents.entries =
          collection.documents) ∧
      ∀ count < file.length, ∀ result,
        readCheckpoint (file.take count) ≠ .ok result) ↔
      checkpointSize collections < 2 ^ 31 := by
  obtain ⟨file, writes, length, isFile⟩ := exists_snapshot small few valid
  have limit : maxReadFileSize = 2 ^ 31 - 1 := rfl
  constructor
  · rintro ⟨other, writesOther, reads, -⟩
    have same : other = file :=
      Except.ok.inj (writesOther.symm.trans writes)
    subst same
    have short := (readCheckpoint_eq_ok reads).1
    omega
  · intro short
    refine ⟨file, writes, ?_, ?_, ?_⟩
    · rw [readCheckpoint_of_le (by omega)]
      exact isFile
    · intro collection member
      exact JsMap.entries_ofEntries (valid collection member).distinct
    · intro count isShorter result accepted
      exact parseCheckpoint_take isFile isShorter result
        (readCheckpoint_eq_ok accepted).2

/-- A collection with an index and a document. -/
def sampleCollection : CheckpointCollection where
  database := utf16 "shop"
  collection := utf16 "items"
  documents := [(hexString (List.replicate 16 7), [11, 0, 0, 0, 0])]
  documentCount := 1
  indexes := [⟨utf16 "price_1", utf16 "price", false, true, false⟩]

/-- A sample collection can be written and read back. -/
theorem sampleCollection_valid : sampleCollection.Valid where
  database := ⟨by decide +kernel, by decide +kernel, by decide +kernel⟩
  name := ⟨by decide +kernel, by decide +kernel, by decide +kernel⟩
  indexes := by
    intro spec member
    obtain rfl := List.mem_singleton.mp member
    exact ⟨⟨{ field := utf16 "price", unique := some true },
      by decide +kernel⟩,
      ⟨by decide +kernel, by decide +kernel, by decide +kernel⟩,
      ⟨by decide +kernel, by decide +kernel, by decide +kernel⟩⟩
  fewIndexes := by decide
  keys := by
    intro entry member
    obtain rfl := List.mem_singleton.mp member
    exact ⟨List.replicate 16 7, rfl, rfl⟩
  distinct := by decide
  count := rfl
  fewDocuments := by decide
  sizes := by decide

/-- A snapshot of one collection is read back. -/
theorem readCheckpoint_sampleCollection :
    ∃ file, writeCheckpointSteps 3 [sampleCollection] = .ok file ∧
      readCheckpoint file =
        .ok ⟨3, [SnapshotReader.recovered sampleCollection]⟩ := by
  obtain ⟨file, writes, reads, -⟩ :=
    (@readCheckpoint_writeCheckpointSteps_iff 3 [sampleCollection] (by decide)
      (by decide) (by simpa using sampleCollection_valid)).mpr
        (by decide +kernel)
  exact ⟨file, writes, reads⟩

/-- A document of 16 MiB. -/
@[irreducible] def largeDocument : Bytes :=
  List.replicate (2 ^ 24) 0

/-- The length of the large document. -/
theorem length_largeDocument :
    largeDocument.length = 2 ^ 24 := by
  unfold largeDocument
  exact List.length_replicate

/-- A collection of 128 documents of 16 MiB. -/
def largeCollection : CheckpointCollection where
  database := utf16 "shop"
  collection := utf16 "items"
  documents :=
    (List.range 128).map fun number =>
      (hexString (BigEndian.encode 16 number), largeDocument)
  documentCount := 128
  indexes := []

/-- The large collection can be written. -/
theorem largeCollection_valid : largeCollection.Valid where
  database := ⟨by decide +kernel, by decide +kernel, by decide +kernel⟩
  name := ⟨by decide +kernel, by decide +kernel, by decide +kernel⟩
  indexes := by
    intro spec member
    cases member
  fewIndexes := by decide
  keys := by
    intro entry member
    simp only [largeCollection, List.mem_map] at member
    obtain ⟨number, -, same⟩ := member
    subst same
    refine ⟨BigEndian.encode 16 number, BigEndian.length_encode _ _, ?_⟩
    dsimp only
  distinct := by
    simp only [largeCollection, List.map_map]
    refine List.Nodup.map_on ?_ List.nodup_range
    intro first isFirst second isSecond same
    have sameBytes := congrArg bytesFromHex same
    simp only [Function.comp_apply, bytesFromHex_hexString] at sameBytes
    have sameNumber := congrArg BigEndian.decode sameBytes
    rw [List.mem_range] at isFirst isSecond
    rwa [BigEndian.decode_encode_of_lt (by omega),
      BigEndian.decode_encode_of_lt (by omega)] at sameNumber
  count := by simp [largeCollection]
  fewDocuments := by simp [largeCollection]
  sizes := by
    intro entry member
    simp only [largeCollection, List.mem_map] at member
    obtain ⟨number, -, same⟩ := member
    subst same
    dsimp only
    rw [length_largeDocument]
    norm_num

/-- A snapshot of 2 GiB is written, and not read back. -/
theorem not_readCheckpoint_largeCollection :
    largeCollection.Valid ∧
      ∃ file, writeCheckpointSteps 3 [largeCollection] = .ok file ∧
        ∀ result, readCheckpoint file ≠ .ok result := by
  refine ⟨largeCollection_valid, ?_⟩
  obtain ⟨file, writes, length, -⟩ :=
    @exists_snapshot 3 [largeCollection] (by decide) (by decide)
      (by simpa using largeCollection_valid)
  refine ⟨file, writes, ?_⟩
  intro result reads
  have short := (readCheckpoint_eq_ok reads).1
  have documents :
      (largeCollection.documents.map entrySize).sum =
        128 * (20 + 2 ^ 24) := by
    simp [largeCollection, entrySize, idByteLength, Function.comp_def,
      length_largeDocument]
  have size := entries_le_checkpointSize largeCollection
  rw [documents, ← length] at size
  have limit : maxReadFileSize = 2 ^ 31 - 1 := rfl
  omega

end SinterDb
