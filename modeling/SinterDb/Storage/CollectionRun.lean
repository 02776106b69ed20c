import SinterDb.Storage.CollectionWrites

namespace SinterDb

open Unicode

/-!
# Runs of a collection

A collection as it is after any sequence of writes, each with any answer of
the journal.
-/

/-- A call of a write, with the ids that are generated for it. -/
inductive WriteCall where
  | insertOne (generated : CustomId) (document : Document)
  | insertMany (generated : Nat → CustomId) (documents : List Document)
  | updateOne
      (filter update : Document)
      (upserts : Bool)
      (generated : CustomId)
  | updateMany
      (filter update : Document)
      (upserts : Bool)
      (generated : CustomId)
  | replaceOne
      (filter replacement : Document)
      (upserts : Bool)
      (generated : CustomId)
  | deleteOne (filter : Document)
  | deleteMany (filter : Document)
  | createIndex (input : CreateIndexInput)
  | dropIndex (name : JsString)

/-- What a write returns. -/
inductive WriteResult where
  | inserted (ids : List CustomId)
  | updated (result : StorageUpdateResult)
  | deleted (count : Nat)
  | indexCreated (name : JsString) (created : Bool)
  | indexDropped
  deriving Repr, DecidableEq

namespace Collection

/-- The write that a call makes. -/
def perform (collection : Collection) : WriteCall → Write WriteResult
  | .insertOne generated document =>
      (collection.insertOne generated document).map fun id => .inserted [id]
  | .insertMany generated documents =>
      (collection.insertMany generated documents).map .inserted
  | .updateOne filter update upserts generated =>
      (collection.updateOne filter update upserts generated).map .updated
  | .updateMany filter update upserts generated =>
      (collection.updateMany filter update upserts generated).map .updated
  | .replaceOne filter replacement upserts generated =>
      (collection.replaceOne filter replacement upserts generated).map .updated
  | .deleteOne filter => (collection.deleteOne filter).map .deleted
  | .deleteMany filter => (collection.deleteMany filter).map .deleted
  | .createIndex input =>
      (collection.createIndex input).map fun result =>
        .indexCreated result.1 result.2
  | .dropIndex name =>
      (collection.dropIndex name).map fun _ => .indexDropped

/-- A write keeps a collection sound. -/
theorem ensures_perform
    {collection : Collection}
    (sound : collection.Sound)
    (call : WriteCall) :
    (collection.perform call).Ensures Sound := by
  cases call with
  | insertOne generated document =>
      exact Write.ensures_map (ensures_insertOne sound _ _) _
  | insertMany generated documents =>
      exact Write.ensures_map (ensures_insertMany sound _ _) _
  | updateOne filter update upserts generated =>
      exact Write.ensures_map (ensures_updateOne sound _ _ _ _) _
  | updateMany filter update upserts generated =>
      exact Write.ensures_map (ensures_updateMany sound _ _ _ _) _
  | replaceOne filter replacement upserts generated =>
      exact Write.ensures_map (ensures_replaceOne sound _ _ _ _) _
  | deleteOne filter =>
      exact Write.ensures_map (ensures_deleteOne sound _) _
  | deleteMany filter =>
      exact Write.ensures_map (ensures_deleteMany sound _) _
  | createIndex input =>
      exact Write.ensures_map (ensures_createIndex sound _) _
  | dropIndex name =>
      exact Write.ensures_map (ensures_dropIndex sound _) _

/-- A collection after a sequence of calls with the answers of the journal. -/
def run
    (collection : Collection)
    (calls : List (WriteCall × Except Thrown Unit)) : Collection :=
  calls.foldl
    (fun collection call => ((collection.perform call.1).run call.2).1)
    collection

/-- Runs keep a collection sound. -/
theorem sound_run
    {collection : Collection}
    (sound : collection.Sound)
    (calls : List (WriteCall × Except Thrown Unit)) :
    (collection.run calls).Sound := by
  unfold run
  induction calls generalizing collection with
  | nil =>
      exact sound
  | cons call rest inductionHypothesis =>
      exact inductionHypothesis (ensures_perform sound call.1 call.2)

/-- An id of one byte sixteen times. -/
def plainId (byte : UInt8) : CustomId :=
  ⟨List.replicate 16 byte, CustomId.length_repeated byte⟩

end Collection

end SinterDb
