import SinterDb.Storage.CleanRun
import SinterDb.Storage.UniqueWrites

namespace SinterDb

open Unicode

/-!
# What clean calls can rely on

With arguments without byte order marks no batch of inserts leaves an index
behind, and no stored document is unreadable.  The contracts of a collection
then hold after every run, without a condition on what happened in it.
-/

namespace Collection

variable
  {collection : Collection}
  {calls : List (WriteCall × Except Thrown Unit)}

/-- A clean call does not spoil the indexes. -/
theorem not_spoiledBy_of_clean
    {call : WriteCall}
    (clean : call.Clean) :
    ¬ collection.SpoiledBy call := by
  cases call with
  | insertMany generated documents =>
      rintro ⟨-, front, document, back, reached, accepted, rollbacks, prepared,
        error, rfl, -, -, prepares, fails⟩
      obtain ⟨source, ⟨distinct, unmarked⟩, encodes⟩ :=
        plain_prepareInsert (clean document (by simp)) prepares
      obtain ⟨decoded, decodes, -⟩ :=
        decoded_of_unmarked distinct unmarked encodes
      rw [decodes] at fails
      cases fails
  | _ =>
      exact id

/-- Clean calls are a careful run. -/
theorem careful_of_clean
    (clean : ∀ call ∈ calls, call.1.Clean) :
    collection.Careful calls := by
  induction calls generalizing collection with
  | nil =>
      trivial
  | cons call rest inductionHypothesis =>
      rw [List.forall_mem_cons] at clean
      exact ⟨not_spoiledBy_of_clean clean.1, inductionHypothesis clean.2⟩

/-- Every entry of a plain collection can be decoded. -/
theorem Plain.allDecode
    (plain : collection.Plain) :
    AllDecode collection.documents.entries := by
  intro entry member
  obtain ⟨source, ⟨distinct, unmarked⟩, encodes⟩ := plain entry member
  obtain ⟨document, decodes, -⟩ :=
    decoded_of_unmarked distinct unmarked encodes
  exact ⟨document, decodes⟩

/--
What a caller of a collection can rely on.  Results do not depend on the plan of
a filter, unique indexes refuse exactly what would break them, and a clean call
that throws changes nothing, an `insertMany` with a part inserted apart.
-/
structure KeepsContracts (collection : Collection) : Prop where
  scans :
    ∀ filter test, compileFilter filter = .ok test →
      collection.AgreesWithScan filter test
  unique : collection.EnforcesUnique
  atomic :
    ∀ (call : WriteCall) (answer : Except Thrown Unit) (error : Thrown),
      call.Clean → ((collection.perform call).run answer).2 = .error error →
        ¬ IsInsertMany error →
          collection.Unchanged ((collection.perform call).run answer).1

end Collection

end SinterDb
