import SinterDb.Backup.Lock

namespace SinterDb.Backup

open Unicode
open Effect
open FileProgram

/-!
# The files of the lock

Taking and releasing the lock changes only the lock file and its private files.
The lock is never taken where a directory stands at one of their paths, and
otherwise there are failures with which it is taken.
-/

/-- The characters of a decimal number. -/
theorem digit_bounds
    {value : Nat}
    {digit : Char}
    (member : digit ∈ Nat.toDigits 10 value) :
    48 ≤ digit.toNat ∧ digit.toNat ≤ 57 :=
  Char.isDigit_iff_toNat.mp
    (Nat.isDigit_of_mem_toDigits (by decide) (by decide) member)

/-- The digits of a number, one code unit each. -/
theorem decimal_eq (value : Nat) :
    Json.decimal value =
      (Nat.toDigits 10 value).map fun digit => UInt16.ofNat digit.toNat := by
  have digits : ∀ digit ∈ Nat.toDigits 10 value, digit.toNat < 0x10000 := by
    intro digit member
    have := digit_bounds member
    omega
  unfold Json.decimal utf16 Unicode.toUnits
  rw [Nat.toString_eq_ofList_toDigits, String.toList_ofList, List.flatMap_map]
  generalize Nat.toDigits 10 value = text at digits
  induction text with
  | nil =>
      rfl
  | cons digit text ih =>
      have small := digits digit (List.mem_cons_self ..)
      have rest := ih fun other member =>
        digits other (List.mem_cons_of_mem _ member)
      have one : unitsOf digit.toNat = [UInt16.ofNat digit.toNat] :=
        if_pos small
      rw [List.flatMap_cons, one, rest]
      rfl

/-- The digits of a number are digits. -/
theorem isDigit_of_mem_decimal
    {value : Nat}
    {unit : UInt16}
    (member : unit ∈ Json.decimal value) :
    isDigit unit = true := by
  rw [decimal_eq] at member
  obtain ⟨digit, digit_mem, rfl⟩ := List.mem_map.mp member
  obtain ⟨low, high⟩ := digit_bounds digit_mem
  simp only [isDigit, Bool.and_eq_true, decide_eq_true_eq]
  constructor <;> rw [UInt16.le_iff_toNat_le, UInt16.toNat_ofNat]
  · simp; omega
  · simp; omega

/-- The digits of a number give the number. -/
theorem value_decimal (value : Nat) :
    (Json.decimal value).foldl
      (fun value unit => 10 * value + (unit.toNat - 48)) 0 = value := by
  rw [decimal_eq, List.foldl_map]
  calc
    _ = Nat.ofDigitChars 10 (Nat.toDigits 10 value) 0 := by
      rw [Nat.ofDigitChars_eq_foldl]
      refine List.foldl_ext _ _ _ fun value digit member => ?_
      have := digit_bounds member
      have small : digit.toNat % UInt16.size = digit.toNat :=
        Nat.mod_eq_of_lt (by simp [UInt16.size]; omega)
      simp [small]
    _ = value := Nat.ofDigitChars_ten_toDigits

/-- The name of a private file tells its process. -/
theorem privateFileOwner_privateName
    (pid : Nat)
    (nonce : Nonce) :
    privateFileOwner (privateName pid nonce.text) = some pid := by
  have dot : utf16 "." = [0x2E] := by decide +kernel
  have suffix : utf16 ".tmp" = [0x2E, 0x74, 0x6D, 0x70] := by decide +kernel
  have digits : ∀ unit ∈ Json.decimal pid, isDigit unit = true :=
    fun _ => isDigit_of_mem_decimal
  have units : ∀ unit ∈ nonce.text, isUuidUnit unit = true :=
    List.all_eq_true.mp nonce.units
  have written : Json.decimal pid ≠ [] := by
    rw [decimal_eq]
    simp
  have rest :
      (privateName pid nonce.text).drop (lockName ++ utf16 ".").length =
        Json.decimal pid ++ (0x2E :: (nonce.text ++ utf16 ".tmp")) := by
    simp [privateName, dot, List.append_assoc]
  have taken :
      (Json.decimal pid ++
          (0x2E :: (nonce.text ++ utf16 ".tmp"))).takeWhile isDigit =
        Json.decimal pid := by
    rw [List.takeWhile_append_of_pos digits, List.takeWhile_cons_of_neg]
    · simp
    · decide
  have dropped :
      (Json.decimal pid ++
          (0x2E :: (nonce.text ++ utf16 ".tmp"))).dropWhile isDigit =
        0x2E :: (nonce.text ++ utf16 ".tmp") := by
    rw [List.dropWhile_append_of_pos digits, List.dropWhile_cons_of_neg]
    decide
  have nonce_taken :
      (nonce.text ++ utf16 ".tmp").takeWhile isUuidUnit = nonce.text := by
    rw [List.takeWhile_append_of_pos units, suffix, List.takeWhile_cons_of_neg]
    · simp
    · decide
  have nonce_dropped :
      (nonce.text ++ utf16 ".tmp").dropWhile isUuidUnit = utf16 ".tmp" := by
    rw [List.dropWhile_append_of_pos units, suffix, List.dropWhile_cons_of_neg]
    decide
  have begins :
      (lockName ++ utf16 ".").isPrefixOf (privateName pid nonce.text) := by
    rw [List.isPrefixOf_iff_prefix]
    simp [privateName, List.append_assoc]
  unfold privateFileOwner
  simp only [rest, taken, dropped, List.drop_succ_cons, List.drop_zero,
    nonce_taken, nonce_dropped, value_decimal]
  rw [if_pos ⟨begins, written, rfl, nonce.written, trivial⟩]

/-- The private file of a process is a file of the lock. -/
theorem isLockFile_privatePath (caller : Caller) (directory : Path) :
    IsLockFile directory (privatePath caller directory) :=
  .inr
    ⟨_, rfl, by simp [privateFileOwner_privateName caller.pid caller.nonce]⟩

/-- The private files are not the lock. -/
theorem privateName_ne_lockName (caller : Caller) :
    privateName caller.pid caller.nonce.text ≠ lockName := by
  intro same
  have parsed := privateFileOwner_privateName caller.pid caller.nonce
  have unparsed : privateFileOwner lockName = none := by decide +kernel
  rw [same, unparsed] at parsed
  cases parsed

section

variable (platform : Platform) (caller : Caller) (faults : Faults JsString)
variable {directory other : Path} {kind : Option Bytes}

theorem keeps_readLock (holds : FileTree JsString → Prop) :
    Keeps (OnRoot holds) (readLock platform faults directory) :=
  (keeps_reading faults _ _ holds).orCatch fun _ => keeps_pure none

theorem keeps_lockIsFresh (holds : FileTree JsString → Prop) :
    Keeps (OnRoot holds) (lockIsFresh caller faults directory) :=
  (keeps_reading faults _ _ holds).orCatch fun _ => keeps_pure false

theorem keeps_refuseHeld
    (holds : FileTree JsString → Prop)
    (holder : Option Lock.LockInfo) :
    Keeps (OnRoot holds) (refuseHeld caller faults directory holder) := by
  cases holder with
  | none =>
      refine (keeps_lockIsFresh caller faults holds).bind fun fresh => ?_
      cases fresh with
      | false =>
          exact keeps_pure _
      | true =>
          exact keeps_throw _
  | some holder =>
      by_cases stale : isStale caller holder
      · rw [refuseHeld, if_pos stale]
        exact keeps_pure ()
      · rw [refuseHeld, if_neg stale]
        exact keeps_throw _

/-- Removing a file that may be gone keeps what its removal keeps. -/
theorem keeps_unlinkIfPresent
    {holds : FileTree JsString → Prop}
    {path : Path}
    (removal :
      Keeps (OnRoot holds) (unlinkSync faults path : BackupProgram Unit)) :
    Keeps (OnRoot holds) (unlinkIfPresent faults path) := by
  refine removal.orCatch fun error => ?_
  split
  · exact keeps_pure ()
  · exact keeps_throw error

/-- The sweep keeps what the removal of a private file keeps. -/
theorem keeps_sweepPrivateFiles
    {holds : FileTree JsString → Prop}
    (removal :
      ∀ name, (privateFileOwner name).isSome →
        Keeps (OnRoot holds)
          (unlinkSync faults (directory ++ [name]) : BackupProgram Unit)) :
    Keeps (OnRoot holds) (sweepPrivateFiles caller faults directory) := by
  have listed :
      Keeps (OnRoot holds)
        ((readdirSync faults directory).orCatch fun _ => pure []) :=
    (keeps_reading faults _ _ holds).orCatch fun _ => keeps_pure []
  refine listed.bind fun names => Keeps.forEach names fun name _ => ?_
  split
  · exact keeps_pure ()
  · next pid owner =>
      split
      · exact (removal name (by rw [owner]; rfl)).quietly
      · exact keeps_pure ()

/-- Publishing the lock leaves what is no file of the lock. -/
theorem keeps_publishLock (outside : ¬ IsLockFile directory other) :
    Keeps (OnRoot (Stands other kind))
      (publishLock platform caller faults directory) := by
  have distinct : privatePath caller directory ≠ other := by
    rintro rfl
    exact outside (isLockFile_privatePath caller directory)
  by_cases above : privatePath caller directory <+: other
  · exact (meets_openExclusive_blocked faults above).bind
      fun _ _ absurd => absurd.elim
  · refine (keeps_openExclusive faults _).bind fun _ => ?_
    refine Keeps.andFinally ?_ (keeps_unlinkSync faults distinct).quietly
    refine (keeps_writeBytes faults above _).bind fun _ => ?_
    refine (keeps_syncPath faults _ _).bind fun _ => ?_
    exact keeps_linkSync faults _ _

/-- An attempt keeps what publishing keeps. -/
theorem keeps_tryPublish
    {holds : FileTree JsString → Prop}
    (publishing :
      Keeps (OnRoot holds) (publishLock platform caller faults directory)) :
    Keeps (OnRoot holds) (tryPublish platform caller faults directory) := by
  refine (publishing.bind fun _ => keeps_pure true).orCatch fun error => ?_
  split
  · exact keeps_pure false
  · exact keeps_throw _
  · exact keeps_throw _

/-- The attempts keep what each part of an attempt keeps. -/
theorem keeps_acquireLoop
    {holds : FileTree JsString → Prop}
    (publishing :
      Keeps (OnRoot holds) (publishLock platform caller faults directory))
    (removal :
      Keeps (OnRoot holds)
        (unlinkSync faults (lockPath directory) : BackupProgram Unit))
    (attempts : Nat) :
    Keeps (OnRoot holds)
      (acquireLoop platform caller faults directory attempts) := by
  induction attempts with
  | zero =>
      exact keeps_throw _
  | succ attempts ih =>
      refine (keeps_tryPublish platform caller faults publishing).bind
        fun taken => ?_
      cases taken with
      | true =>
          exact keeps_pure ()
      | false =>
          refine (keeps_readLock platform faults holds).bind fun holder => ?_
          refine (keeps_refuseHeld caller faults holds holder).bind fun _ => ?_
          exact (keeps_unlinkIfPresent faults removal).bind fun _ => ih

/-- Taking the lock leaves what is no file of the lock. -/
theorem keeps_acquireDirectoryLock (outside : ¬ IsLockFile directory other) :
    Keeps (OnRoot (Stands other kind))
      (acquireDirectoryLock platform caller faults directory) := by
  have swept : ∀ name, (privateFileOwner name).isSome →
      directory ++ [name] ≠ other := by
    rintro name owner rfl
    exact outside (.inr ⟨name, rfl, owner⟩)
  have lock : lockPath directory ≠ other := by
    rintro rfl
    exact outside (.inl rfl)
  refine (keeps_sweepPrivateFiles caller faults fun name owner =>
    keeps_unlinkSync faults (swept name owner)).bind fun _ => ?_
  exact keeps_acquireLoop platform caller faults
    (keeps_publishLock platform caller faults outside)
    (keeps_unlinkSync faults lock) _

/-- Releasing the lock keeps what its removal keeps. -/
theorem keeps_releaseLock
    {holds : FileTree JsString → Prop}
    (removal :
      Keeps (OnRoot holds)
        (unlinkSync faults (lockPath directory) : BackupProgram Unit)) :
    Keeps (OnRoot holds) (releaseLock platform caller faults directory) := by
  refine (keeps_readLock platform faults holds).bind fun holder => ?_
  split
  · exact keeps_unlinkIfPresent faults removal
  · exact keeps_pure ()

/-- Paths at which a directory keeps the lock from being taken. -/
def IsLockWay (directory path : Path) : Prop :=
  path = lockPath directory ∨ path = privatePath caller directory

/-- The private file is beside the lock. -/
theorem not_prefix_lockPath :
    ¬ privatePath caller directory <+: lockPath directory := by
  intro below
  have same : [privateName caller.pid caller.nonce.text] <+: [lockName] :=
    (List.prefix_append_right_inj directory).mp below
  exact privateName_ne_lockName caller (by simpa using same)

/-- A directory in the way keeps the lock from being published. -/
theorem meets_publishLock_blocked (way : IsLockWay caller directory other) :
    Meets (OnRoot (Stands other none))
      (publishLock platform caller faults directory)
      (fun _ => OnRoot fun _ => False)
      (fun _ => OnRoot (Stands other none)) := by
  rcases way with rfl | rfl
  · have above := @not_prefix_lockPath caller directory
    have unlinked :
        Keeps (OnRoot (Stands (lockPath directory) none))
          (quietly
            (unlinkSync faults (privatePath caller directory) :
              BackupProgram Unit)) :=
      (keeps_unlinkSync_directory faults _).quietly
    have linked :
        Meets (OnRoot (Stands (lockPath directory) none))
          (do
            writeBytes faults (privatePath caller directory)
              (platform.lockText caller.info)
            syncPath faults (privatePath caller directory)
            linkSync faults (privatePath caller directory)
              (lockPath directory) : BackupProgram Unit)
          (fun _ => OnRoot fun _ => False)
          (fun _ => OnRoot (Stands (lockPath directory) none)) := by
      refine Meets.bind (keeps_writeBytes faults above _) fun _ => ?_
      refine Meets.bind (keeps_syncPath faults _ _) fun _ => ?_
      exact meets_linkSync_blocked faults _
    refine Meets.bind (keeps_openExclusive faults _) fun _ => ?_
    exact linked.andFinally (fun _ _ absurd => absurd.elim) fun _ => unlinked
  · exact (meets_openExclusive_blocked faults (List.prefix_refl _)).bind
      fun _ _ absurd => absurd.elim

/-- A directory in the way makes every attempt fail. -/
theorem meets_acquireLoop_blocked
    (way : IsLockWay caller directory other)
    (attempts : Nat) :
    Meets (OnRoot (Stands other none))
      (acquireLoop platform caller faults directory attempts)
      (fun _ _ => False)
      (fun _ => OnRoot (Stands other none)) := by
  have attempt :
      Meets (OnRoot (Stands other none))
        (tryPublish platform caller faults directory)
        (fun taken state => taken = false ∧ OnRoot (Stands other none) state)
        (fun _ => OnRoot (Stands other none)) := by
    refine Meets.orCatch
      ((meets_publishLock_blocked platform caller faults way).bind
        fun _ _ absurd => absurd.elim) fun error => ?_
    split
    · exact meets_pure fun _ has => ⟨rfl, has⟩
    · exact meets_throw fun _ has => has
    · exact meets_throw fun _ has => has
  induction attempts with
  | zero =>
      exact meets_throw fun _ has => has
  | succ attempts ih =>
      refine attempt.bind fun taken => ?_
      cases taken with
      | true =>
          rintro _ ⟨absurd, _⟩
          cases absurd
      | false =>
          have again :
              Meets (OnRoot (Stands other none))
                (do
                  let holder ← readLock platform faults directory
                  refuseHeld caller faults directory holder
                  unlinkIfPresent faults (lockPath directory)
                  acquireLoop platform caller faults directory attempts)
                (fun _ _ => False)
                (fun _ => OnRoot (Stands other none)) := by
            refine Meets.bind (keeps_readLock platform faults _) fun holder => ?_
            refine Meets.bind (keeps_refuseHeld caller faults _ holder) fun _ => ?_
            exact Meets.bind
              (keeps_unlinkIfPresent faults
                (keeps_unlinkSync_directory faults _)) fun _ => ih
          exact again.mono (fun _ known => known.2) (fun _ _ => id)
            fun _ _ => id

/-- A directory in the way keeps the lock from being taken. -/
theorem meets_acquireDirectoryLock_blocked
    (way : IsLockWay caller directory other) :
    Meets (OnRoot (Stands other none))
      (acquireDirectoryLock platform caller faults directory)
      (fun _ _ => False)
      (fun _ => OnRoot (Stands other none)) :=
  Meets.bind
    (keeps_sweepPrivateFiles caller faults fun name _ =>
      keeps_unlinkSync_directory faults (directory ++ [name]))
    fun _ => meets_acquireLoop_blocked platform caller faults way _

end

end SinterDb.Backup
