import SinterDb.Engine.Operations
import SinterDb.Lib.Crc32
import SinterDb.Lib.JsMap

namespace SinterDb

open Unicode
open Crc32

/-!
# Snapshots

A snapshot is written in chunks that feed a running checksum, and read as a
whole.  What was written is read back, and no front part of it is accepted.
-/

/-- `CHECKPOINT_FORMAT_VERSION`. -/
def checkpointFormatVersion : Nat := 2

/-- `OLDEST_READABLE_VERSION`. -/
def oldestReadableVersion : Nat := 1

/-- `MAGIC`: the bytes of `SINTSNP` and a null byte. -/
def snapshotMagic : Bytes :=
  [0x53, 0x49, 0x4e, 0x54, 0x53, 0x4e, 0x50, 0x00]

/-- `END_MAGIC`: the bytes of `SINTEND` and a null byte. -/
def endMagic : Bytes :=
  [0x53, 0x49, 0x4e, 0x54, 0x45, 0x4e, 0x44, 0x00]

/-- `HEADER_SIZE`. -/
def snapshotHeaderSize : Nat := 24

/-- `FOOTER_SIZE`. -/
def snapshotFooterSize : Nat := 12

/-- `FLUSH_THRESHOLD`. -/
def flushThreshold : Nat := 1024 * 1024

/-- The longest file that `readFileSync` reads, `kIoMaxLength`. -/
def maxReadFileSize : Nat := 2 ^ 31 - 1

/-- `CheckpointCollection`. -/
structure CheckpointCollection where
  database : JsString
  collection : JsString
  documents : List (JsString × Bytes)
  documentCount : Nat
  indexes : List IndexSpec
  deriving Repr, DecidableEq

/-- `RecoveredCollection`. -/
structure RecoveredCollection where
  database : JsString
  collection : JsString
  documents : JsMap JsString Bytes
  indexes : List IndexSpec

/-- `ReadCheckpoint`. -/
structure ReadCheckpoint where
  lsn : Nat
  collections : List RecoveredCollection

/-- `CheckpointDamagedError`; the callers of `readCheckpoint` treat every error
alike and keep its message only. -/
structure CheckpointDamagedError where
  message : JsString
  deriving Repr, DecidableEq

/-- The hexadecimal form of some bytes. -/
def hexString (bytes : Bytes) : JsString :=
  bytes.flatMap fun byte =>
    [hexDigit (byte.toNat / 16), hexDigit (byte.toNat % 16)]

/-- The value of a hexadecimal digit. -/
def hexValue? (unit : UInt16) : Option Nat :=
  if 0x30 ≤ unit.toNat ∧ unit.toNat ≤ 0x39 then
    some (unit.toNat - 0x30)
  else if 0x41 ≤ unit.toNat ∧ unit.toNat ≤ 0x46 then
    some (unit.toNat - 0x37)
  else if 0x61 ≤ unit.toNat ∧ unit.toNat ≤ 0x66 then
    some (unit.toNat - 0x57)
  else
    none

/-- `Buffer.from(text, "hex")`, which stops at the first pair that is none. -/
def bytesFromHex : JsString → Bytes
  | high :: low :: rest =>
      match hexValue? high, hexValue? low with
      | some high, some low =>
          UInt8.ofNat (16 * high + low) :: bytesFromHex rest
      | _, _ => []
  | _ => []

/-- What `writeCheckpointSteps` keeps: the bytes in the file, their checksum,
what is not yet written, and how often it has paused. -/
structure SnapshotWriter where
  file : Bytes := []
  checksum : Nat := 0
  pending : List Bytes := []
  pendingBytes : Nat := 0
  pauses : Nat := 0
  deriving Repr, DecidableEq

namespace SnapshotWriter

/-- `flush`. -/
def flush (writer : SnapshotWriter) : SnapshotWriter :=
  if writer.pendingBytes = 0 then
    writer
  else
    let chunk := writer.pending.flatten
    { writer with
      file := writer.file ++ chunk
      checksum := crc32From writer.checksum chunk
      pending := []
      pendingBytes := 0 }

/-- `add`. -/
def add (writer : SnapshotWriter) (bytes : Bytes) : SnapshotWriter :=
  { writer with
    pending := writer.pending ++ [bytes]
    pendingBytes := writer.pendingBytes + bytes.length }

/-- The pause after enough bytes. -/
def pause (writer : SnapshotWriter) : SnapshotWriter :=
  if flushThreshold ≤ writer.pendingBytes then
    let flushed := writer.flush
    { flushed with pauses := flushed.pauses + 1 }
  else
    writer

/-- One document in the loop of `writeCheckpointSteps`. -/
def addDocument
    (writer : SnapshotWriter)
    (entry : JsString × Bytes) : Except Thrown SnapshotWriter := do
  let id := (bytesFromHex entry.1 ++ List.replicate idByteLength 0).take
    idByteLength
  let length ← writeUIntBE 4 entry.2.length
  return ((writer.add (id ++ length)).add entry.2).pause

/-- One index in the loop of `writeCheckpointSteps`. -/
def addIndex
    (writer : SnapshotWriter)
    (index : IndexSpec) : Except Thrown SnapshotWriter := do
  let bytes ← encodeIndexSpec index
  return writer.add bytes

/-- One collection in the loop of `writeCheckpointSteps`. -/
def addCollection
    (writer : SnapshotWriter)
    (collection : CheckpointCollection) : Except Thrown SnapshotWriter := do
  let database ← encodeName collection.database
  let name ← encodeName collection.collection
  let indexCount ← writeUIntBE 2 collection.indexes.length
  let writer := ((writer.add database).add name).add indexCount
  let writer ← collection.indexes.foldlM addIndex writer
  let count ← writeUIntBE 4 collection.documentCount
  collection.documents.foldlM addDocument (writer.add count)

end SnapshotWriter

/-- The header of a snapshot. -/
def snapshotHeader (lsn count : Nat) : Bytes :=
  snapshotMagic ++ (BigEndian.encode 4 checkpointFormatVersion ++
    (BigEndian.encode 8 lsn ++ BigEndian.encode 4 count))

/-- `writeCheckpointSteps`: the bytes of the file. -/
def writeCheckpointSteps
    (lsn : Nat)
    (collections : List CheckpointCollection) : Except Thrown Bytes := do
  let _ ← writeUIntBE 8 lsn
  let _ ← writeUIntBE 4 collections.length
  let writer : SnapshotWriter := {}
  let writer ←
    collections.foldlM SnapshotWriter.addCollection
      (writer.add (snapshotHeader lsn collections.length))
  let writer := writer.flush
  return writer.file ++ (BigEndian.encode 4 writer.checksum ++ endMagic)

namespace SnapshotReader

/-- The error of a message. -/
def damaged (message : String) : CheckpointDamagedError :=
  ⟨utf16 message⟩

/-- The error at the end of the bytes. -/
def unexpectedEnd : CheckpointDamagedError :=
  damaged "The snapshot ends unexpectedly."

/-- `SnapshotReader.u8`, `SnapshotReader.u16` and `SnapshotReader.u32`. -/
def uint (width : Nat) : Reader CheckpointDamagedError Nat :=
  Reader.uint unexpectedEnd width

/-- `SnapshotReader.bytes`. -/
def bytes (length : Nat) : Reader CheckpointDamagedError Bytes :=
  Reader.bytes unexpectedEnd length

/-- `SnapshotReader.name`. -/
def name : Reader CheckpointDamagedError JsString :=
  Reader.text unexpectedEnd (damaged "The snapshot contains an empty name.")
    (damaged "The snapshot contains a name that is not valid UTF-8.")

/-- One index in the loop of `readCheckpoint`. -/
def index : Reader CheckpointDamagedError IndexSpec :=
  (readIndexSpec name (uint 1) fun reason =>
    ⟨malformedMessage reason⟩).mapError fun error =>
      ⟨utf16 "The snapshot contains an invalid index definition: " ++
        error.message⟩

/-- The indexes of a collection; version 1 has none. -/
def indexes (version : Nat) : Reader CheckpointDamagedError (List IndexSpec) :=
  if 2 ≤ version then do
    let count ← uint 2
    Reader.times index count
  else
    return []

/-- One document in the loop of `readCheckpoint`. -/
def document : Reader CheckpointDamagedError (JsString × Bytes) := do
  let id ← bytes idByteLength
  let length ← uint 4
  let document ← bytes length
  return (hexString id, document)

/-- One collection in the loop of `readCheckpoint`. -/
def collection
    (version : Nat) : Reader CheckpointDamagedError RecoveredCollection := do
  let database ← name
  let collection ← name
  let indexes ← indexes version
  let count ← uint 4
  let documents ← Reader.times document count
  return ⟨database, collection, .ofEntries documents, indexes⟩

end SnapshotReader

/-- The error of `readFileSync` for a longer file. -/
def fileTooLarge (size : Nat) : CheckpointDamagedError :=
  SnapshotReader.damaged s!"File size ({size}) is greater than 2 GiB"

/-- `readCheckpoint` behind `readFileSync`: what the bytes are read as. -/
def parseCheckpoint
    (bytes : Bytes) : Except CheckpointDamagedError ReadCheckpoint :=
  let footerStart := bytes.length - snapshotFooterSize
  let version := Buffer.readUIntBE bytes 8 4
  if bytes.length < snapshotHeaderSize + snapshotFooterSize then
    .error (SnapshotReader.damaged "The snapshot file is too short.")
  else if bytes.drop (footerStart + 4) ≠ endMagic then
    .error (SnapshotReader.damaged
      "The snapshot file is incomplete: its end marker is missing.")
  else if Buffer.readUIntBE bytes footerStart 4 ≠
      crc32 (bytes.take footerStart) then
    .error (SnapshotReader.damaged "The snapshot checksum does not match.")
  else if bytes.take 8 ≠ snapshotMagic then
    .error (SnapshotReader.damaged "The file is not a SinterDB snapshot.")
  else if version < oldestReadableVersion ∨
      checkpointFormatVersion < version then
    .error (SnapshotReader.damaged
      s!"The snapshot uses unsupported format version {version}.")
  else do
    let lsn := Buffer.readUIntBE bytes 12 8
    let count := Buffer.readUIntBE bytes 20 4
    let (collections, rest) ←
      Reader.times (SnapshotReader.collection version) count
        (Buffer.subarray bytes snapshotHeaderSize footerStart)
    if rest = [] then
      return ⟨lsn, collections⟩
    else
      throw (SnapshotReader.damaged "The snapshot has trailing bytes.")

/-- `readCheckpoint`, for a file with these bytes. -/
def readCheckpoint
    (bytes : Bytes) : Except CheckpointDamagedError ReadCheckpoint :=
  if maxReadFileSize < bytes.length then
    .error (fileTooLarge bytes.length)
  else
    parseCheckpoint bytes

end SinterDb
