import SinterDb.Storage.Collection

namespace SinterDb

open Unicode

/-!
# Reading a collection

`find` returns a generator: nothing happens before the first `next`, and the
collection may change between two of them.
-/

/-- Where `candidates` stands: at a slot of the documents, or at some keys. -/
inductive CandidateSource where
  | documents (position : Nat)
  | keys (rest : List JsString)
  deriving Repr, DecidableEq

/-- Where `scan` stands. -/
inductive ScanState where
  | waiting
  | unsorted (source : CandidateSource) (skipped yielded : Nat)
  | sorted (rest : List Document)
  | finished

/-- The generator that `find` returns. -/
structure Scan where
  filter : Document
  test : CompiledFilter
  sorter : Option CompiledSort
  skip : Nat
  limit : Option Nat
  state : ScanState

namespace Collection

/-- The slots from a position on, with the position behind each document. -/
def documentsFrom
    (position : Nat) :
    List (Option (JsString × Bytes)) →
      List ((JsString × Bytes) × CandidateSource)
  | [] => []
  | none :: rest => documentsFrom (position + 1) rest
  | some entry :: rest =>
      (entry, .documents (position + 1)) :: documentsFrom (position + 1) rest

/-- The stored ones of some keys, with the keys behind each of them. -/
def keysFrom
    (collection : Collection) :
    List JsString → List ((JsString × Bytes) × CandidateSource)
  | [] => []
  | key :: rest =>
      match collection.documents.get? key with
      | some encoded => ((key, encoded), .keys rest) :: keysFrom collection rest
      | none => keysFrom collection rest

/-- What `candidates` would still yield if the collection did not change. -/
def remaining
    (collection : Collection) :
    CandidateSource → List ((JsString × Bytes) × CandidateSource)
  | .documents position =>
      documentsFrom position (collection.documents.slots.drop position)
  | .keys rest => collection.keysFrom rest

/-- The start of `candidates`. -/
def openCandidates
    (collection : Collection)
    (filter : Document) : CandidateSource :=
  match collection.planKeys filter with
  | none => .documents 0
  | some keys => .keys (collection.orderedKeys keys)

/-- `find`. -/
def find
    (filter : Document)
    (options : StorageFindOptions) : Except Thrown Scan := do
  let test ← compileFilter filter
  let sorter ← options.sort.mapM compileSort
  let skip ← validateSkip options.skip
  let limit ← validateLimit options.limit
  return ⟨filter, test, sorter, skip, limit, .waiting⟩

end Collection

/-- The part of a list that a skip and a limit leave. -/
def sliceOf
    (skip : Nat)
    (limit : Option Nat)
    (documents : List Document) : List Document :=
  match limit with
  | none => documents.drop skip
  | some limit => (documents.drop skip).take limit

namespace Scan

/-- The loop of `scan` without a sorter, up to the next document. -/
def advance
    (scan : Scan) :
    List ((JsString × Bytes) × CandidateSource) → Nat → Nat →
      Except Thrown (Option Document) × ScanState
  | [], _, _ => (.ok none, .finished)
  | ((_, encoded), source) :: rest, skipped, yielded =>
      if scan.limit.any (· ≤ yielded) then
        (.ok none, .finished)
      else
        match decodeDocument encoded with
        | .error error => (.error (.protocol error), .finished)
        | .ok document =>
            if !scan.test document then
              advance scan rest skipped yielded
            else if skipped < scan.skip then
              advance scan rest (skipped + 1) yielded
            else
              (.ok (some document), .unsorted source skipped (yielded + 1))

/-- The next document of those that are already in order. -/
def nextSorted :
    List Document → Except Thrown (Option Document) × ScanState
  | [] => (.ok none, .finished)
  | document :: rest => (.ok (some document), .sorted rest)

/-- The part of a list that the scan leaves. -/
def slice (scan : Scan) (documents : List Document) : List Document :=
  sliceOf scan.skip scan.limit documents

/-- One step of the generator. -/
def step
    (scan : Scan)
    (collection : Collection) :
    Except Thrown (Option Document) × ScanState :=
  match scan.state with
  | .waiting =>
      match scan.sorter with
      | none =>
          scan.advance
            (collection.remaining (collection.openCandidates scan.filter)) 0 0
      | some sorter =>
          match allMatches scan.test (collection.candidates scan.filter) with
          | .error error => (.error error, .finished)
          | .ok matched =>
              nextSorted
                (scan.slice (sorter (matched.map LocatedDocument.document)))
  | .unsorted source skipped yielded =>
      scan.advance (collection.remaining source) skipped yielded
  | .sorted rest => nextSorted rest
  | .finished => (.ok none, .finished)

/-- `next`: the next document, if there is one, and the generator after it. -/
def next
    (scan : Scan)
    (collection : Collection) : Except Thrown (Option Document) × Scan :=
  let (result, state) := scan.step collection
  (result, { scan with state := state })

/-- The documents of at most so many calls of `next` in a row. -/
def consume
    (collection : Collection) :
    Nat → Scan → Except Thrown (List Document)
  | 0, _ => .ok []
  | calls + 1, scan =>
      match scan.next collection with
      | (.error error, _) => .error error
      | (.ok none, _) => .ok []
      | (.ok (some document), scan) =>
          (document :: ·) <$> consume collection calls scan

end Scan

end SinterDb
