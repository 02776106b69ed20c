import Mathlib.Data.List.Basic
import Mathlib.Data.List.Nodup
import Mathlib.Order.Nat
import SinterDb.Lib.Lists

namespace SinterDb.Journal

/-!
# Journals with snapshots

A state is kept as a journal of records and as snapshots that let the older
records go.  A snapshot is good for a journal when its state is the one behind
its position, or one that is a few records ahead if these records change
nothing about it.  Any good snapshot and the records behind it give the whole
state back.
-/

variable {σ ρ : Type}

/-- The state after some records, unless one of them does not apply. -/
def replay
    (apply : σ → ρ → Option σ)
    (state : σ)
    (records : List ρ) : Option σ :=
  records.foldlM apply state

/-- The state of a snapshot, and the number of records that it covers. -/
structure Snapshot (σ : Type) where
  position : Nat
  state : σ

/-- A snapshot that gives the state of a journal back. -/
structure Restores
    (apply : σ → ρ → Option σ)
    (initial : σ)
    (history : List ρ)
    (snapshot : Snapshot σ) : Prop where
  exists_reached :
    ∃ reached, snapshot.position ≤ reached ∧ reached ≤ history.length ∧
      replay apply initial (history.take reached) = some snapshot.state ∧
      ∀ record ∈ (history.take reached).drop snapshot.position,
        apply snapshot.state record = some snapshot.state

section Replay

variable
  {apply : σ → ρ → Option σ}
  {initial state : σ}
  {history : List ρ}

/-- Without records the state stays. -/
@[simp] theorem replay_nil
    (apply : σ → ρ → Option σ)
    (state : σ) :
    replay apply state [] = some state :=
  rfl

/-- One record is applied. -/
@[simp] theorem replay_singleton
    (apply : σ → ρ → Option σ)
    (state : σ)
    (record : ρ) :
    replay apply state [record] = apply state record := by
  simp [replay]

/-- Records in two parts are applied one part after the other. -/
theorem replay_append
    (apply : σ → ρ → Option σ)
    (state : σ)
    (first second : List ρ) :
    replay apply state (first ++ second) =
      (replay apply state first).bind fun reached =>
        replay apply reached second :=
  List.foldlM_append

/-- Records that change nothing leave the state. -/
theorem replay_of_settled
    {records : List ρ}
    (settled : ∀ record ∈ records, apply state record = some state) :
    replay apply state records = some state := by
  induction records with
  | nil =>
      rfl
  | cons record rest inductionHypothesis =>
      rw [List.forall_mem_cons] at settled
      have later := inductionHypothesis settled.2
      simpa [replay, settled.1] using later

/--
A second way of applying records, on states that are seen as those of the
journal: it goes through the same states if it does so for each record.
-/
theorem foldlM_of_replay
    {τ ι ε : Type}
    {view : τ → σ}
    {step : τ → ι → Except ε τ}
    {related : ι → ρ → Prop}
    (simulates :
      ∀ state item record next, related item record →
        apply (view state) record = some next →
          ∃ reached, step state item = .ok reached ∧ view reached = next)
    {items : List ι}
    {records : List ρ}
    (pairs : List.Forall₂ related items records)
    {start : τ}
    {final : σ}
    (replays : replay apply (view start) records = some final) :
    ∃ reached, items.foldlM step start = .ok reached ∧
      view reached = final := by
  induction pairs generalizing start with
  | nil =>
      exact ⟨start, rfl, Option.some.inj replays⟩
  | cons isRelated _ inductionHypothesis =>
      rcases Option.bind_eq_some_iff.mp replays with ⟨next, applies, later⟩
      rcases simulates _ _ _ _ isRelated applies with
        ⟨reached, stepOk, rfl⟩
      rcases inductionHypothesis later with ⟨last, folds, isFinal⟩
      refine ⟨last, ?_, isFinal⟩
      rw [List.foldlM_cons, stepOk]
      exact folds

end Replay

namespace Restores

variable
  {apply : σ → ρ → Option σ}
  {initial state : σ}
  {history pending : List ρ}
  {snapshot : Snapshot σ}

/--
A snapshot of the current state is good, also when the state already has the
effect of records that are about to follow.
-/
theorem taken
    (replays : replay apply initial (history ++ pending) = some state)
    (settled : ∀ record ∈ pending, apply state record = some state) :
    Restores apply initial (history ++ pending)
      ⟨history.length, state⟩ where
  exists_reached := by
    refine ⟨(history ++ pending).length, by simp, le_rfl, ?_, ?_⟩
    · rw [List.take_length]
      exact replays
    · rw [List.take_length, List.drop_left]
      exact settled

/-- A good snapshot stays good when records follow. -/
theorem append
    (restores : Restores apply initial history snapshot)
    (more : List ρ) :
    Restores apply initial (history ++ more) snapshot where
  exists_reached := by
    rcases restores.exists_reached with
      ⟨reached, ahead, inside, replays, settled⟩
    have same : (history ++ more).take reached = history.take reached :=
      List.take_append_of_le_length inside
    refine ⟨reached, ahead, ?_, ?_, ?_⟩
    · exact inside.trans (by simp)
    · rw [same]
      exact replays
    · rw [same]
      exact settled

/--
A good snapshot and the records behind it, up to any of them, give the state
after a front part of the journal that has at least these records.
-/
theorem recovers
    (restores : Restores apply initial history snapshot)
    {count : Nat}
    (inside : count ≤ history.length) :
    ∃ reached, count ≤ reached ∧ reached ≤ history.length ∧
      replay apply snapshot.state
          ((history.take count).drop snapshot.position) =
        replay apply initial (history.take reached) := by
  rcases restores.exists_reached with
    ⟨reached, ahead, reachedInside, replays, settled⟩
  rcases Nat.le_total count reached with notReached | beyond
  · -- The snapshot has everything already, and what is replayed changes
    -- nothing about it.
    refine ⟨reached, notReached, reachedInside, ?_⟩
    rw [replays]
    refine replay_of_settled fun record member => settled record ?_
    have isPrefix : history.take count <+: history.take reached :=
      List.take_prefix_take_left notReached
    rcases isPrefix with ⟨rest, whole⟩
    rw [← whole, List.drop_append]
    exact List.mem_append_left _ member
  · refine ⟨count, le_rfl, inside, ?_⟩
    have split :
        history.take count =
          history.take reached ++ (history.take count).drop reached := by
      have parts := List.take_append_drop reached (history.take count)
      rw [List.take_take, Nat.min_eq_left beyond] at parts
      exact parts.symm
    have front :
        (history.take count).drop snapshot.position =
          (history.take reached).drop snapshot.position ++
            (history.take count).drop reached := by
      conv_lhs => rw [split]
      refine List.drop_append_of_le_length ?_
      rw [List.length_take, Nat.min_eq_left reachedInside]
      exact ahead
    have settles :
        replay apply snapshot.state
            ((history.take reached).drop snapshot.position) =
          some snapshot.state :=
      replay_of_settled settled
    conv_rhs => rw [split]
    rw [front, replay_append, replay_append, settles, replays]

/-- A good snapshot and all records behind it give the state. -/
theorem recovers_all
    (restores : Restores apply initial history snapshot) :
    replay apply snapshot.state (history.drop snapshot.position) =
      replay apply initial history := by
  rcases restores.recovers le_rfl with
    ⟨reached, least, inside, recovers⟩
  have isAll : reached = history.length := le_antisymm inside least
  rw [List.take_length, isAll, List.take_length] at recovers
  exact recovers

end Restores

/-!
## Files of snapshots
-/

/-- A file that holds a good snapshot, or one that was damaged, so that it
cannot be read. -/
def IsGood
    {φ : Type}
    (apply : σ → ρ → Option σ)
    (initial : σ)
    (position : φ → Nat)
    (contents read : φ → Option σ)
    (history : List ρ)
    (damaged : Prop)
    (file : φ) : Prop :=
  (damaged ∧ read file = none) ∨
    ∃ state, contents file = some state ∧
      Restores apply initial history ⟨position file, state⟩

/-- A file under the same name that is the same or cannot be read. -/
def Damages
    {φ : Type}
    (position : φ → Nat)
    (read : φ → Option σ)
    (before after : φ) : Prop :=
  position after = position before ∧ (after = before ∨ read after = none)

/--
The files of a journaled state, of which some may have been damaged.  The
records that are gone are covered by each file; before any record goes there is
a file that holds a snapshot, and without damage there are two.  What a file
holds is not always what it is read as: the reader may refuse a good file.
-/
structure Keeps
    {φ : Type}
    (apply : σ → ρ → Option σ)
    (initial : σ)
    (position : φ → Nat)
    (contents read : φ → Option σ)
    (history : List ρ)
    (damaged : Prop)
    (files : List φ)
    (gone : Nat) : Prop where
  distinct : (files.map position).Nodup
  good :
    ∀ file ∈ files,
      IsGood apply initial position contents read history damaged file
  covered : ∀ file ∈ files, gone ≤ position file
  spare :
    gone = 0 ∨
      (∃ file ∈ files, (contents file).isSome = true) ∧
        (damaged ∨ 2 ≤ files.length)

namespace Keeps

variable
  {φ : Type}
  {apply : σ → ρ → Option σ}
  {initial : σ}
  {position : φ → Nat}
  {contents read : φ → Option σ}
  {history : List ρ}
  {damaged : Prop}
  {files : List φ}
  {gone : Nat}

/-- An empty journal has no files. -/
theorem nothing :
    Keeps apply initial position contents read history damaged [] 0 where
  distinct := List.nodup_nil
  good := by simp
  covered := by simp
  spare := .inl rfl

/-- Records may follow. -/
theorem append
    (keeps :
      Keeps apply initial position contents read history damaged files gone)
    (more : List ρ) :
    Keeps apply initial position contents read (history ++ more) damaged files
      gone where
  distinct := keeps.distinct
  good file member := by
    rcases keeps.good file member with isDamaged | ⟨state, reads, restores⟩
    · exact .inl isDamaged
    · exact .inr ⟨state, reads, restores.append more⟩
  covered := keeps.covered
  spare := keeps.spare

/-- A good file may be added, or written again. -/
theorem place
    (keeps :
      Keeps apply initial position contents read history damaged files gone)
    {file : φ}
    {state : σ}
    {placed : List φ}
    (holds : contents file = some state)
    (restores : Restores apply initial history ⟨position file, state⟩)
    (covers : gone ≤ position file)
    (distinct : (placed.map position).Nodup)
    (isPlaced : file ∈ placed)
    (others : ∀ other ∈ placed, other = file ∨ other ∈ files)
    (grows : files.length ≤ placed.length) :
    Keeps apply initial position contents read history damaged placed gone where
  distinct := distinct
  good other member := by
    rcases others other member with rfl | isOld
    · exact .inr ⟨state, holds, restores⟩
    · exact keeps.good other isOld
  covered other member := by
    rcases others other member with rfl | isOld
    · exact covers
    · exact keeps.covered other isOld
  spare := by
    rcases keeps.spare with nothingGone | ⟨-, two⟩
    · exact .inl nothingGone
    · refine .inr ⟨⟨file, isPlaced, by rw [holds]; rfl⟩, ?_⟩
      exact two.imp_right fun enough => enough.trans grows

/-- Files may go as long as enough of them are left. -/
theorem sublist
    (keeps :
      Keeps apply initial position contents read history damaged files gone)
    {kept : List φ}
    (isSublist : kept.Sublist files)
    (held : ∃ file ∈ kept, (contents file).isSome = true)
    (enough : 2 ≤ kept.length ∨ kept = files) :
    Keeps apply initial position contents read history damaged kept gone where
  distinct := (isSublist.map position).nodup keeps.distinct
  good file member := keeps.good file (isSublist.subset member)
  covered file member := keeps.covered file (isSublist.subset member)
  spare := by
    rcases keeps.spare with nothingGone | ⟨-, two⟩
    · exact .inl nothingGone
    · rcases enough with enough | rfl
      · exact .inr ⟨held, .inr enough⟩
      · exact .inr ⟨held, two⟩

/-- Records may go that every file covers, as long as two files are left. -/
theorem compact
    (keeps :
      Keeps apply initial position contents read history damaged files gone)
    {later : Nat}
    (covered : ∀ file ∈ files, later ≤ position file)
    (held : ∃ file ∈ files, (contents file).isSome = true)
    (enough : 2 ≤ files.length) :
    Keeps apply initial position contents read history damaged files later where
  distinct := keeps.distinct
  good := keeps.good
  covered := covered
  spare := .inr ⟨held, .inr enough⟩

/-- Files may be damaged as long as one of them can be read, or all records
are there. -/
theorem damage
    (keeps :
      Keeps apply initial position contents read history damaged files gone)
    {later : List φ}
    (honest :
      ∀ file state, read file = some state → contents file = some state)
    (damages : List.Forall₂ (Damages position read) files later)
    (readable :
      gone = 0 ∨ ∃ file ∈ later, (read file).isSome = true) :
    Keeps apply initial position contents read history True later gone := by
  have origin :
      ∀ file ∈ later, ∃ old ∈ files, Damages position read old file :=
    fun file member => Lists.exists_of_mem_right damages member
  have positions : later.map position = files.map position := by
    clear keeps readable origin
    induction damages with
    | nil =>
        rfl
    | cons isDamage _ inductionHypothesis =>
        rw [List.map_cons, List.map_cons, isDamage.1, inductionHypothesis]
  constructor
  · rw [positions]
    exact keeps.distinct
  · intro file member
    rcases origin file member with ⟨old, isOld, -, rfl | unreadable⟩
    · rcases keeps.good file isOld with ⟨-, unreadable⟩ | isGood
      · exact .inl ⟨trivial, unreadable⟩
      · exact .inr isGood
    · exact .inl ⟨trivial, unreadable⟩
  · intro file member
    rcases origin file member with ⟨old, isOld, same, -⟩
    rw [same]
    exact keeps.covered old isOld
  · rcases readable with nothingGone | ⟨file, member, isReadable⟩
    · exact .inl nothingGone
    · rcases Option.isSome_iff_exists.mp isReadable with ⟨state, reads⟩
      refine .inr ⟨⟨file, member, ?_⟩, .inl trivial⟩
      rw [honest file state reads]
      rfl

/-- Every file that can be read gives the state with the records behind it. -/
theorem restores
    (keeps :
      Keeps apply initial position contents read history damaged files gone)
    (honest :
      ∀ file state, read file = some state → contents file = some state)
    {file : φ}
    (member : file ∈ files)
    {state : σ}
    (reads : read file = some state) :
    Restores apply initial history ⟨position file, state⟩ := by
  rcases keeps.good file member with
    ⟨-, unreadable⟩ | ⟨other, holdsOther, restores⟩
  · rw [reads] at unreadable
    cases unreadable
  · have same : other = state :=
      Option.some.inj (holdsOther.symm.trans (honest file state reads))
    rw [← same]
    exact restores

section Retention

variable
  {sorted removed : List φ}
  {retention : Nat}

/-- What is in front in the order is newer than what is behind. -/
theorem newer_of_take
    (distinct : (files.map position).Nodup)
    (isPerm : sorted.Perm files)
    (isSorted :
      sorted.Pairwise fun first second => position second ≤ position first)
    {front behind : φ}
    (isFront : front ∈ sorted.take retention)
    (isBehind : behind ∈ sorted.drop retention) :
    position behind < position front := by
  have whole := List.take_append_drop retention sorted
  have names : (sorted.map position).Nodup :=
    (isPerm.map position).nodup_iff.mpr distinct
  rw [← whole] at isSorted
  rw [← whole, List.map_append] at names
  have notAbove := (List.pairwise_append.mp isSorted).2.2 _ isFront _ isBehind
  have notSame := (List.nodup_append.mp names).2.2 _
    (List.mem_map_of_mem isFront) _ (List.mem_map_of_mem isBehind)
  exact lt_of_le_of_ne notAbove fun same => notSame same.symm

/-- The files in front stay when only files behind them go. -/
theorem filter_take
    (distinct : (files.map position).Nodup)
    (isPerm : sorted.Perm files)
    (isSorted :
      sorted.Pairwise fun first second => position second ≤ position first)
    (isOld : ∀ file ∈ removed, file ∈ sorted.drop retention) :
    ∀ file ∈ sorted.take retention,
      file ∈ files.filter fun file => position file ∉ removed.map position := by
  intro file isFront
  refine List.mem_filter.mpr
    ⟨isPerm.subset (List.mem_of_mem_take isFront), decide_eq_true ?_⟩
  intro isRemoved
  rcases List.mem_map.mp isRemoved with ⟨old, oldRemoved, same⟩
  have newer :=
    newer_of_take distinct isPerm isSorted isFront (isOld old oldRemoved)
  rw [same] at newer
  exact lt_irrefl _ newer

/-- Two files stay when two are kept, or all of them. -/
theorem enough_of_retention
    (distinct : (files.map position).Nodup)
    (isPerm : sorted.Perm files)
    (isSorted :
      sorted.Pairwise fun first second => position second ≤ position first)
    (two : 2 ≤ retention)
    (isOld : ∀ file ∈ removed, file ∈ sorted.drop retention) :
    2 ≤ (files.filter fun file =>
        position file ∉ removed.map position).length ∨
      sorted.length < retention ∧
        (files.filter fun file => position file ∉ removed.map position) =
          files := by
  by_cases few : sorted.length < retention
  · right
    have nothingOld : sorted.drop retention = [] :=
      List.drop_eq_nil_of_le few.le
    refine ⟨few, List.filter_eq_self.mpr fun file _ => decide_eq_true ?_⟩
    intro isRemoved
    rcases List.mem_map.mp isRemoved with ⟨old, oldRemoved, -⟩
    have inNothing := isOld old oldRemoved
    rw [nothingOld] at inNothing
    cases inNothing
  · left
    have front : (sorted.take retention).Nodup := by
      refine (List.take_sublist _ _).nodup ?_
      exact isPerm.nodup_iff.mpr (List.Nodup.of_map _ distinct)
    have stay := filter_take distinct isPerm isSorted isOld
    have lengths := (List.subperm_of_subset front stay).length_le
    rw [List.length_take, Nat.min_eq_left (Nat.le_of_not_lt few)] at lengths
    exact two.trans lengths

/-- Files behind the newest ones may go, when the newest holds a snapshot. -/
theorem prune
    (keeps :
      Keeps apply initial position contents read history damaged files gone)
    (isPerm : sorted.Perm files)
    (isSorted :
      sorted.Pairwise fun first second => position second ≤ position first)
    (two : 2 ≤ retention)
    (isOld : ∀ file ∈ removed, file ∈ sorted.drop retention)
    {newest : φ}
    (isNewest : newest ∈ files)
    (held : (contents newest).isSome = true)
    (newer : ∀ file ∈ files, position file ≤ position newest) :
    Keeps apply initial position contents read history damaged
        (files.filter fun file => position file ∉ removed.map position)
        gone ∧
      newest ∈
        files.filter fun file => position file ∉ removed.map position := by
  have inFront : newest ∈ sorted.take retention := by
    have inSorted := isPerm.mem_iff.mpr isNewest
    rw [← List.take_append_drop retention sorted] at inSorted
    rcases List.mem_append.mp inSorted with inFront | isBehind
    · exact inFront
    · have long : retention < sorted.length := by
        have notEmpty := List.length_pos_of_mem isBehind
        rw [List.length_drop] at notEmpty
        exact Nat.lt_of_sub_pos notEmpty
      have someFront : ∃ front, front ∈ sorted.take retention := by
        refine List.exists_mem_of_length_pos ?_
        rw [List.length_take, Nat.min_eq_left long.le]
        exact two.trans_lt' Nat.zero_lt_two
      rcases someFront with ⟨front, isFront⟩
      have older :=
        newer_of_take keeps.distinct isPerm isSorted isFront isBehind
      have notNewer :=
        newer front (isPerm.subset (List.mem_of_mem_take isFront))
      exact absurd older (Nat.not_lt.mpr notNewer)
  have stays :=
    filter_take keeps.distinct isPerm isSorted isOld newest inFront
  refine ⟨keeps.sublist List.filter_sublist ⟨newest, stays, held⟩ ?_,
    stays⟩
  exact (enough_of_retention keeps.distinct isPerm isSorted two isOld).imp_right
    And.right

/-- When all files behind the newest ones are gone, the records may go that the
oldest of the newest ones covers. -/
theorem compactBehind
    (keeps :
      Keeps apply initial position contents read history damaged files gone)
    (isPerm : sorted.Perm files)
    (isSorted :
      sorted.Pairwise fun first second => position second ≤ position first)
    (two : 2 ≤ retention)
    {newest oldest : φ}
    (isNewest : newest ∈ files)
    (held : (contents newest).isSome = true)
    (newer : ∀ file ∈ files, position file ≤ position newest)
    (isOldest : sorted[retention - 1]? = some oldest)
    {later : Nat}
    (isCovered : later = gone ∨ later ≤ position oldest) :
    Keeps apply initial position contents read history damaged
      (files.filter fun file =>
        position file ∉ (sorted.drop retention).map position)
      later := by
  rcases keeps.prune isPerm isSorted two (fun _ isOld => isOld) isNewest
      held newer with ⟨pruned, stays⟩
  have long : retention ≤ sorted.length := by
    have inside := (List.getElem?_eq_some_iff.mp isOldest).1
    omega
  refine pruned.compact ?_ ⟨newest, stays, held⟩ ?_
  · intro file member
    rcases List.mem_filter.mp member with ⟨isFile, kept⟩
    rcases isCovered with rfl | covered
    · exact keeps.covered file isFile
    · refine covered.trans ?_
      have notOld := of_decide_eq_true kept
      have inSorted := isPerm.mem_iff.mpr isFile
      rw [← List.take_append_drop retention sorted] at inSorted
      rcases List.mem_append.mp inSorted with inFront | isBehind
      · have isLast :
            sorted.take retention = sorted.take (retention - 1) ++ [oldest] := by
          have step : retention = retention - 1 + 1 := by omega
          conv_lhs => rw [step]
          rw [List.take_add_one, isOldest]
          rfl
        have frontSorted :=
          isSorted.sublist (List.take_sublist retention sorted)
        rw [isLast] at frontSorted inFront
        rcases List.mem_append.mp inFront with isEarlier | isSame
        · exact (List.pairwise_append.mp frontSorted).2.2 file isEarlier
            oldest List.mem_cons_self
        · rw [List.mem_singleton.mp isSame]
      · exact absurd (List.mem_map_of_mem isBehind) notOld
  · rcases enough_of_retention keeps.distinct isPerm isSorted two
        (fun _ isOld => isOld) with enough | ⟨few, -⟩
    · exact enough
    · exact absurd few (Nat.not_lt.mpr long)

end Retention

end Keeps

end SinterDb.Journal
