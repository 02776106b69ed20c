import SinterDb.Engine.Lock

namespace SinterDb.Lock

/-!
# The lock excludes other processes

A lock file stays in place from the moment a process has linked it until that
process removes it, as long as no starter removes another file than the one
that it judged to be left behind.
-/

/-- The lock file with this nonce is in use by the process. -/
def Process.Uses (process : Process) (nonce : JsString) : Prop :=
  nonce ∈ process.locks ∨
    process.call = .releasing nonce ∨ process.call = .removing nonce

/-- The file that a call has judged. -/
def LockCall.judged : LockCall → Option LockFile
  | .examining _ _ judged => judged
  | .unlinking _ _ judged => judged
  | _ => none

/-- The owner that a call is about to publish. -/
def LockCall.info : LockCall → Option LockInfo
  | .linking _ info => some info
  | .reading _ info => some info
  | .examining _ info _ => some info
  | .unlinking _ info _ => some info
  | _ => none

/-- A call that gives a lock back. -/
def LockCall.givesBack : LockCall → Bool
  | .releasing _ => true
  | .removing _ => true
  | _ => false

/-- The lock file belongs to the process and has this nonce. -/
def System.IsOwner
    (host : JsString)
    (system : System)
    (pid : Nat)
    (nonce : JsString) : Prop :=
  ∃ inode info,
    system.file = some ⟨inode, some info⟩ ∧
      info.pid = pid ∧ info.hostname = host ∧ info.nonce = nonce

/-- What holds of a process in every undisturbed run. -/
structure Process.Sound
    (host : JsString)
    (inodes pid : Nat)
    (process : Process) : Prop where
  nodup : process.locks.Nodup
  givenBack : process.call.givesBack = true → process.locks = []
  held : process.locks ≠ [] → process.held = true
  info :
    ∀ info, process.call.info = some info →
      info.pid = pid ∧ info.hostname = host
  inode :
    ∀ file, process.call.judged = some file → file.inode < inodes

/-- What holds in every undisturbed run. -/
structure System.Sound
    (host : JsString)
    (alive : Nat → Prop)
    (system : System) : Prop where
  alive :
    ∀ pid nonce, (system.process pid).Uses nonce → alive pid
  owner :
    ∀ pid nonce,
      (system.process pid).Uses nonce → system.IsOwner host pid nonce
  process : ∀ pid, (system.process pid).Sound host system.inodes pid
  inode : ∀ file, system.file = some file → file.inode < system.inodes
  /-- A file that was judged to be left behind is not in use. -/
  leftBehind :
    ∀ pid file,
      (system.process pid).call.judged = some file →
        system.file = some file →
        ∀ other nonce, ¬ (system.process other).Uses nonce

variable
  {host : JsString}
  {alive : Nat → Prop}
  {system : System}
  {pid : Nat}

/-- Two owners of the lock file are the same. -/
theorem System.IsOwner.unique
    {other : Nat}
    {nonce otherNonce : JsString}
    (isOwner : system.IsOwner host pid nonce)
    (isOther : system.IsOwner host other otherNonce) :
    pid = other ∧ nonce = otherNonce := by
  obtain ⟨_, info, isFile, rfl, -, rfl⟩ := isOwner
  obtain ⟨_, otherInfo, isOtherFile, rfl, -, rfl⟩ := isOther
  rw [isFile] at isOtherFile
  cases isOtherFile
  exact ⟨rfl, rfl⟩

namespace System.Sound

/-- At most one process holds the lock. -/
theorem exclusive
    (sound : system.Sound host alive) :
    system.Exclusive := by
  intro first second firstHolds secondHolds
  obtain ⟨nonce, member⟩ := List.exists_mem_of_ne_nil _ firstHolds
  obtain ⟨otherNonce, otherMember⟩ := List.exists_mem_of_ne_nil _ secondHolds
  exact ((sound.owner first nonce (.inl member)).unique
    (sound.owner second otherNonce (.inl otherMember))).1

/-- Without a lock file nobody uses one. -/
theorem unused_of_none
    (sound : system.Sound host alive)
    (none : system.file = none)
    (other : Nat)
    (nonce : JsString) :
    ¬ (system.process other).Uses nonce := by
  intro uses
  obtain ⟨_, _, isFile, -⟩ := sound.owner other nonce uses
  rw [none] at isFile
  cases isFile

/-- A process goes on without using another lock than before. -/
theorem setProcess
    (sound : system.Sound host alive)
    {process : Process}
    (uses :
      ∀ nonce, process.Uses nonce → (system.process pid).Uses nonce)
    (processSound : process.Sound host system.inodes pid)
    (leftBehind :
      ∀ file, process.call.judged = some file → system.file = some file →
        ∀ other nonce, ¬ (system.process other).Uses nonce) :
    (system.setProcess pid process).Sound host alive := by
  have usesBefore :
      ∀ other nonce,
        ((system.setProcess pid process).process other).Uses nonce →
          (system.process other).Uses nonce := by
    intro other nonce
    by_cases same : other = pid
    · subst same
      simpa [System.setProcess] using uses nonce
    · simp [System.setProcess, same]
  refine ⟨?_, ?_, ?_, sound.inode, ?_⟩
  · intro other nonce isUsed
    exact sound.alive other nonce (usesBefore other nonce isUsed)
  · intro other nonce isUsed
    exact sound.owner other nonce (usesBefore other nonce isUsed)
  · intro other
    by_cases same : other = pid
    · subst same
      simpa [System.setProcess] using processSound
    · have otherSound := sound.process other
      simpa [System.setProcess, same] using otherSound
  · intro judge file judges isFile other nonce isUsed
    refine absurd (usesBefore other nonce isUsed) ?_
    by_cases same : judge = pid
    · subst same
      exact leftBehind file (by simpa [System.setProcess] using judges) isFile
        other nonce
    · exact sound.leftBehind judge file
        (by simpa [System.setProcess, same] using judges) isFile other nonce

/-- A process goes on to a call that gives no lock back. -/
theorem goTo
    (sound : system.Sound host alive)
    {call : LockCall}
    (keeps : call.givesBack = false)
    (info :
      ∀ info, call.info = some info → info.pid = pid ∧ info.hostname = host)
    (inode : ∀ file, call.judged = some file → file.inode < system.inodes)
    (leftBehind :
      ∀ file, call.judged = some file → system.file = some file →
        ∀ other nonce, ¬ (system.process other).Uses nonce) :
    (system.goTo pid call).Sound host alive := by
  have processSound := sound.process pid
  refine sound.setProcess ?_ ⟨processSound.nodup, ?_, processSound.held, info,
    inode⟩ leftBehind
  · rintro nonce (member | isCall | isCall)
    · exact .inl member
    · simp only at isCall
      rw [isCall] at keeps
      cases keeps
    · simp only at isCall
      rw [isCall] at keeps
      cases keeps
  · intro givesBack
    simp only [keeps, Bool.false_eq_true] at givesBack

/-- A call of a process ends. -/
theorem ends
    (sound : system.Sound host alive) :
    (system.goTo pid .idle).Sound host alive := by
  refine sound.goTo rfl ?_ ?_ ?_
  · intro info isInfo
    cases isInfo
  · intro file isFile
    cases isFile
  · intro file isFile
    cases isFile

/-- A lock file that nobody uses can be removed. -/
theorem withoutFile
    (sound : system.Sound host alive)
    (unused : ∀ other nonce, ¬ (system.process other).Uses nonce) :
    System.Sound host alive { system with file := none } := by
  refine ⟨?_, ?_, ?_, ?_, ?_⟩
  · intro other nonce isUsed
    exact absurd isUsed (unused other nonce)
  · intro other nonce isUsed
    exact absurd isUsed (unused other nonce)
  · intro other
    have otherSound := sound.process other
    exact otherSound
  · intro file isFile
    cases isFile
  · intro judge file _ isFile
    cases isFile

/-- `publishLock` keeps the lock in the hands of its owner. -/
theorem link
    (sound : system.Sound host alive)
    (isAlive : alive pid)
    {attempt : Nat}
    {info : LockInfo}
    (isCall : (system.process pid).call = .linking attempt info) :
    (system.link pid attempt info).Sound host alive := by
  have processSound := sound.process pid
  have ownInfo := processSound.info info (by rw [isCall]; rfl)
  unfold System.link
  cases isFile : system.file with
  | some file =>
      refine sound.goTo rfl ?_ ?_ ?_
      · rintro _ ⟨⟩
        exact ownInfo
      · intro file isJudged
        cases isJudged
      · intro file isJudged
        cases isJudged
  | none =>
      have unused := sound.unused_of_none isFile
      have noLocks : (system.process pid).locks = [] :=
        List.eq_nil_iff_forall_not_mem.mpr fun nonce member =>
          unused pid nonce (.inl member)
      have onlyThis :
          ∀ other nonce,
            (Function.update system.process pid
                { call := .idle
                  held := true
                  locks := info.nonce :: (system.process pid).locks }
              other).Uses nonce →
              other = pid ∧ nonce = info.nonce := by
        intro other nonce isUsed
        by_cases same : other = pid
        · subst same
          simpa [Process.Uses, noLocks] using isUsed
        · rw [Function.update_of_ne same] at isUsed
          exact absurd isUsed (unused other nonce)
      refine ⟨?_, ?_, ?_, ?_, ?_⟩
      · intro other nonce isUsed
        rw [(onlyThis other nonce isUsed).1]
        exact isAlive
      · intro other nonce isUsed
        obtain ⟨rfl, rfl⟩ := onlyThis other nonce isUsed
        exact ⟨_, info, rfl, ownInfo.1, ownInfo.2, rfl⟩
      · intro other
        by_cases same : other = pid
        · subst same
          simp only [Function.update_self, noLocks]
          refine ⟨by simp, by simp [LockCall.givesBack], by simp, ?_, ?_⟩
          · intro info isInfo
            cases isInfo
          · intro file isJudged
            cases isJudged
        · have otherSound := sound.process other
          simp only [Function.update_of_ne same]
          exact ⟨otherSound.nodup, otherSound.givenBack, otherSound.held,
            otherSound.info, fun file isJudged =>
              Nat.lt_succ_of_lt (otherSound.inode file isJudged)⟩
      · rintro _ ⟨⟩
        exact Nat.lt_succ_self _
      · -- A file that was judged before is older than the new one.
        rintro judge _ isJudged ⟨⟩ other nonce -
        by_cases same : judge = pid
        · subst same
          simp [LockCall.judged] at isJudged
        · simp only [Function.update_of_ne same] at isJudged
          exact lt_irrefl _ ((sound.process judge).inode _ isJudged)

/-- A lock that looks left behind is not in use. -/
theorem unused_of_stale
    (sound : system.Sound host alive)
    {attempt : Nat}
    {info : LockInfo}
    (isCall : (system.process pid).call = .reading attempt info)
    {gone : Bool}
    (honest : System.Honest alive system pid (.read gone))
    {file : LockFile}
    {holder : LockInfo}
    (isFile : system.file = some file)
    (isHolder : file.owner = some holder)
    (stale :
      isStale host pid (system.process pid).held gone holder = true)
    (other : Nat)
    (nonce : JsString) :
    ¬ (system.process other).Uses nonce := by
  intro isUsed
  obtain ⟨inode, owner, isOwner, rfl, rfl, -⟩ :=
    sound.owner other nonce isUsed
  rw [isFile] at isOwner
  obtain rfl := Option.some.inj isOwner
  obtain rfl : owner = holder := Option.some.inj isHolder
  unfold isStale at stale
  rw [if_neg (by simp)] at stale
  split_ifs at stale with own
  · subst own
    have notHeld : (system.process owner.pid).held = false := by
      simpa using stale
    rcases isUsed with member | givesBack | givesBack
    · have isHeld :=
        (sound.process owner.pid).held (List.ne_nil_of_mem member)
      rw [isHeld] at notHeld
      cases notHeld
    · rw [isCall] at givesBack
      cases givesBack
    · rw [isCall] at givesBack
      cases givesBack
  · subst stale
    have reads : system.owner = some owner := by
      unfold System.owner
      rw [isFile]
      rfl
    exact honest.2 owner rfl reads (sound.alive owner.pid nonce isUsed)

/-- `readLock` and the test for a lock that was left behind. -/
theorem read
    (sound : system.Sound host alive)
    {attempt : Nat}
    {info : LockInfo}
    (isCall : (system.process pid).call = .reading attempt info)
    {gone : Bool}
    (honest : System.Honest alive system pid (.read gone)) :
    (system.read host pid attempt info gone).Sound host alive := by
  have ownInfo := (sound.process pid).info info (by rw [isCall]; rfl)
  have judges :
      ∀ call : LockCall,
        call.givesBack = false →
        call.info = some info →
        (∀ file, call.judged = some file →
          system.file = some file ∧
            ∀ other nonce, ¬ (system.process other).Uses nonce) →
          (system.goTo pid call).Sound host alive := by
    intro call keeps isInfo judged
    refine sound.goTo keeps ?_ ?_ ?_
    · intro other isOther
      rw [isInfo] at isOther
      obtain rfl := Option.some.inj isOther
      exact ownInfo
    · intro file isJudged
      exact sound.inode file (judged file isJudged).1
    · intro file isJudged _
      exact (judged file isJudged).2
  unfold System.read
  cases isFile : system.file with
  | none =>
      refine judges _ rfl rfl ?_
      rintro file ⟨⟩
  | some file =>
      simp only
      cases isHolder : file.owner with
      | none =>
          refine judges _ rfl rfl ?_
          rintro _ ⟨⟩
          refine ⟨isFile, ?_⟩
          -- A lock file in use is readable.
          intro other nonce isUsed
          obtain ⟨inode, owner, isOwner, -⟩ := sound.owner other nonce isUsed
          rw [isFile] at isOwner
          obtain rfl := Option.some.inj isOwner
          cases isHolder
      | some holder =>
          simp only
          split_ifs with stale
          · refine judges _ rfl rfl ?_
            rintro _ ⟨⟩
            exact ⟨isFile,
              sound.unused_of_stale isCall honest isFile isHolder stale⟩
          · exact sound.ends

/-- `lockIsFresh`. -/
theorem stat
    (sound : system.Sound host alive)
    {attempt : Nat}
    {info : LockInfo}
    {judged : Option LockFile}
    (isCall : (system.process pid).call = .examining attempt info judged)
    (fresh : Bool) :
    (system.stat pid attempt info judged fresh).Sound host alive := by
  unfold System.stat
  split
  · exact sound.ends
  · have processSound := sound.process pid
    have leftBehind := sound.leftBehind pid
    refine sound.goTo rfl ?_ ?_ ?_
    · rintro _ ⟨⟩
      exact processSound.info info (by rw [isCall]; rfl)
    · intro file isJudged
      exact processSound.inode file (by rw [isCall]; exact isJudged)
    · intro file isJudged
      exact leftBehind file (by rw [isCall]; exact isJudged)

/-- The removal of a lock that was left behind. -/
theorem unlink
    (sound : system.Sound host alive)
    {attempt : Nat}
    {info : LockInfo}
    {judged : Option LockFile}
    (isCall : (system.process pid).call = .unlinking attempt info judged)
    (undisturbed : System.Undisturbed system pid .unlink) :
    System.Sound host alive
      ({ system with file := none }.goTo pid
        (System.retry attempt info)) := by
  have unused : ∀ other nonce, ¬ (system.process other).Uses nonce := by
    rcases undisturbed attempt info judged rfl isCall with none | isJudged
    · exact sound.unused_of_none none
    · cases isFile : judged with
      | none =>
          exact sound.unused_of_none (by rw [isJudged, isFile])
      | some file =>
          exact sound.leftBehind pid file (by rw [isCall]; exact isFile)
            (by rw [isJudged, isFile])
  have removed := sound.withoutFile unused
  have ownInfo := (sound.process pid).info info (by rw [isCall]; rfl)
  unfold System.retry
  split_ifs
  · refine removed.goTo rfl ?_ ?_ ?_
    · rintro _ ⟨⟩
      exact ownInfo
    · intro file isJudged
      cases isJudged
    · intro file isJudged
      cases isJudged
  · exact removed.ends

/-- The start of `releaseLock`. -/
theorem release
    (sound : system.Sound host alive)
    {nonce : JsString}
    (member : nonce ∈ (system.process pid).locks) :
    (system.setProcess pid
      { call := .releasing nonce
        held := false
        locks := (system.process pid).locks.erase nonce }).Sound
      host alive := by
  have processSound := sound.process pid
  have noMore : (system.process pid).locks.erase nonce = [] := by
    refine List.eq_nil_iff_forall_not_mem.mpr ?_
    intro other isOther
    rw [processSound.nodup.mem_erase_iff] at isOther
    exact isOther.1
      ((sound.owner pid other (.inl isOther.2)).unique
        (sound.owner pid nonce (.inl member))).2
  refine sound.setProcess ?_ ⟨?_, ?_, ?_, ?_, ?_⟩ ?_
  · rintro other (isLock | isCall | isCall)
    · simp only [noMore, List.not_mem_nil] at isLock
    · obtain rfl := LockCall.releasing.inj isCall
      exact .inl member
    · cases isCall
  · simp [noMore]
  · intro _
    exact noMore
  · intro some
    exact absurd noMore some
  · intro info isInfo
    cases isInfo
  · intro file isJudged
    cases isJudged
  · intro file isJudged
    cases isJudged

/-- `readLock` of `releaseLock`. -/
theorem readOwn
    (sound : system.Sound host alive)
    {nonce : JsString}
    (isCall : (system.process pid).call = .releasing nonce) :
    (system.goTo pid (.removing nonce)).Sound host alive := by
  have processSound := sound.process pid
  have noLocks := processSound.givenBack (by rw [isCall]; rfl)
  refine sound.setProcess ?_ ⟨processSound.nodup, ?_, processSound.held, ?_,
    ?_⟩ ?_
  · rintro other (isLock | isOther | isOther)
    · exact .inl isLock
    · cases isOther
    · obtain rfl := LockCall.removing.inj isOther
      exact .inr (.inl isCall)
  · intro _
    exact noLocks
  · intro info isInfo
    cases isInfo
  · intro file isJudged
    cases isJudged
  · intro file isJudged
    cases isJudged

/-- `unlinkSync` of `releaseLock`. -/
theorem unlinkOwn
    (sound : system.Sound host alive)
    {nonce : JsString}
    (isCall : (system.process pid).call = .removing nonce) :
    System.Sound host alive
      ({ system with file := none }.goTo pid .idle) := by
  have noLocks := (sound.process pid).givenBack (by rw [isCall]; rfl)
  have isOwner := sound.owner pid nonce (.inr (.inr isCall))
  have ended := @ends _ _ _ pid sound
  refine ended.withoutFile ?_
  intro other otherNonce isUsed
  by_cases same : other = pid
  · subst same
    simp [System.goTo, System.setProcess, Process.Uses, noLocks] at isUsed
  · have stillUsed : (system.process other).Uses otherNonce := by
      simpa [System.goTo, System.setProcess, same] using isUsed
    exact same ((sound.owner other otherNonce stillUsed).unique isOwner).1

/-- Every step of an undisturbed run keeps the lock in the hands of its
owner. -/
theorem step
    (sound : system.Sound host alive)
    {event : LockEvent}
    (honest : System.Honest alive system pid event)
    (undisturbed : System.Undisturbed system pid event)
    {later : System}
    (steps : system.step host pid event = some later) :
    later.Sound host alive := by
  unfold System.step at steps
  split at steps
  case h_1 startedAt nonce isCall =>
    obtain rfl := Option.some.inj steps
    refine sound.goTo rfl ?_ ?_ ?_
    · rintro _ ⟨⟩
      exact ⟨rfl, rfl⟩
    · intro file isJudged
      cases isJudged
    · intro file isJudged
      cases isJudged
  case h_2 attempt info isCall =>
    obtain rfl := Option.some.inj steps
    exact sound.link honest.1 isCall
  case h_3 =>
    obtain rfl := Option.some.inj steps
    exact sound.ends
  case h_4 attempt info gone isCall =>
    obtain rfl := Option.some.inj steps
    exact sound.read isCall honest
  case h_5 attempt info judged fresh isCall =>
    obtain rfl := Option.some.inj steps
    exact sound.stat isCall fresh
  case h_6 attempt info judged isCall =>
    obtain rfl := Option.some.inj steps
    exact sound.unlink isCall undisturbed
  case h_7 =>
    obtain rfl := Option.some.inj steps
    exact sound.ends
  case h_8 nonce isCall =>
    split_ifs at steps with member
    obtain rfl := Option.some.inj steps
    exact sound.release member
  case h_9 nonce isCall =>
    split_ifs at steps
    · obtain rfl := Option.some.inj steps
      exact sound.readOwn isCall
    · obtain rfl := Option.some.inj steps
      exact sound.ends
  case h_10 nonce isCall =>
    obtain rfl := Option.some.inj steps
    exact sound.unlinkOwn isCall
  case h_11 =>
    obtain rfl := Option.some.inj steps
    exact sound.ends
  case h_12 =>
    cases steps

end System.Sound

/-- Before the first call nothing is in use. -/
theorem System.Initial.sound
    (initial : system.Initial)
    (host : JsString)
    (alive : Nat → Prop) :
    system.Sound host alive := by
  have unused :
      ∀ other nonce, ¬ (system.process other).Uses nonce := by
    intro other nonce isUsed
    simp [initial.processes, Process.Uses] at isUsed
  refine ⟨fun other nonce isUsed => absurd isUsed (unused other nonce),
    fun other nonce isUsed => absurd isUsed (unused other nonce), ?_,
    initial.inode, ?_⟩
  · intro other
    rw [initial.processes]
    refine ⟨List.nodup_nil, fun _ => rfl, by simp, ?_, ?_⟩
    · intro info isInfo
      cases isInfo
    · intro file isJudged
      cases isJudged
  · intro judge file _ _
    exact unused

/-- The systems that processes reach, whose steps meet a condition. -/
inductive Reaches
    (host : JsString)
    (alive : Nat → Prop)
    (condition : System → Nat → LockEvent → Prop)
    (start : System) : System → Prop where
  | start : Reaches host alive condition start start
  | step
      {system later : System}
      {pid : Nat}
      {event : LockEvent}
      (reaches : Reaches host alive condition start system)
      (honest : system.Honest alive pid event)
      (meets : condition system pid event)
      (steps : system.step host pid event = some later) :
      Reaches host alive condition start later

/--
Whatever the lock file is at first, at most one process at a time holds the
lock, as long as no starter removes another file than the one that it judged.
-/
theorem exclusive_of_undisturbed
    {host : JsString}
    {alive : Nat → Prop}
    {start system : System}
    (initial : start.Initial)
    (reaches :
      Reaches host alive System.Undisturbed start system) :
    system.Exclusive := by
  have sound : system.Sound host alive := by
    induction reaches with
    | start =>
        exact initial.sound host alive
    | step _ honest undisturbed steps inductionHypothesis =>
        exact inductionHypothesis.step honest undisturbed steps
  exact sound.exclusive

/-- The events of a run can all happen, are honest and meet a condition. -/
def Meets
    (host : JsString)
    (alive : Nat → Prop)
    (condition : System → Nat → LockEvent → Prop) :
    System → List (Nat × LockEvent) → Prop
  | _, [] => True
  | system, (pid, event) :: events =>
      system.Honest alive pid event ∧ condition system pid event ∧
        ∃ later,
          system.step host pid event = some later ∧
            Meets host alive condition later events

/-- A run of such events reaches its last system. -/
theorem Reaches.run
    {host : JsString}
    {alive : Nat → Prop}
    {condition : System → Nat → LockEvent → Prop}
    {start system : System}
    (reaches : Reaches host alive condition start system)
    {events : List (Nat × LockEvent)}
    (meets : Meets host alive condition system events)
    {later : System}
    (runs : system.run host events = some later) :
    Reaches host alive condition start later := by
  induction events generalizing system with
  | nil =>
      obtain rfl := Option.some.inj runs
      exact reaches
  | cons event events inductionHypothesis =>
      obtain ⟨honest, isMet, next, steps, rest⟩ := meets
      refine inductionHypothesis (.step reaches honest isMet steps) rest ?_
      rw [← runs, System.run, steps]
      rfl

/-- A lock that process 7 left behind when it ended. -/
def leftBehind : System where
  file := some ⟨0, some ⟨7, [], [], []⟩⟩
  inodes := 1
  process := fun _ => {}

/-- The system with a lock that was left behind is initial. -/
theorem initial_leftBehind : leftBehind.Initial where
  processes := fun _ => rfl
  inode := by
    rintro _ ⟨⟩
    decide

/-- The processes that are alive beside the one that ended. -/
def isStarter (pid : Nat) : Prop := pid < 7

/-- An event that does not ask about a process is honest. -/
theorem honest_of_ne
    {system : System}
    {pid : Nat}
    {event : LockEvent}
    (isAlive : pid < 7)
    (silent : event ≠ .read true) :
    system.Honest isStarter pid event :=
  ⟨isAlive, fun _ isRead => absurd isRead silent⟩

/-- Nothing but the removal of a lock can be disturbed. -/
theorem undisturbed_of_ne
    {system : System}
    {pid : Nat}
    {event : LockEvent}
    (other : event ≠ .unlink) :
    system.Undisturbed pid event :=
  fun _ _ _ isUnlink => absurd isUnlink other

/-- One process takes the lock over that was left behind. -/
theorem exclusive_of_undisturbed_takeover :
    ∃ system,
      Reaches [] isStarter System.Undisturbed leftBehind system ∧
        (system.process 1).locks = [[1]] ∧ system.Exclusive := by
  have reaches :
      Reaches [] isStarter System.Undisturbed leftBehind _ :=
    @Reaches.run _ _ _ _ _ .start
      [(1, .acquire [] [1]), (1, .link), (1, .read true), (1, .unlink),
        (1, .link)]
      (by
        refine And.intro (honest_of_ne (by decide) (by decide))
          ⟨undisturbed_of_ne (by decide), _, rfl, ?_⟩
        refine And.intro (honest_of_ne (by decide) (by decide))
          ⟨undisturbed_of_ne (by decide), _, rfl, ?_⟩
        refine And.intro ⟨by unfold isStarter; decide, ?_⟩
          ⟨undisturbed_of_ne (by decide), _, rfl, ?_⟩
        · rintro _ - ⟨⟩
          unfold isStarter
          decide
        refine And.intro (honest_of_ne (by decide) (by decide))
          ⟨?_, _, rfl, ?_⟩
        · rintro _ _ _ - ⟨⟩
          exact .inr rfl
        exact And.intro (honest_of_ne (by decide) (by decide))
          ⟨undisturbed_of_ne (by decide), _, rfl, trivial⟩)
      _ rfl
  exact ⟨_, reaches, rfl, exclusive_of_undisturbed initial_leftBehind reaches⟩

/--
Two processes judge the same lock to be left behind; the second one removes
the lock that the first one has published, and both hold the lock.
-/
theorem not_exclusive_of_two_starters :
    ∃ start system,
      start.Initial ∧
        Reaches [] isStarter (fun _ _ _ => True) start system ∧
        ¬ system.Exclusive := by
  have gone :
      ∀ pid, pid < 7 → ∀ system : System,
        system.owner = some ⟨7, [], [], []⟩ →
          system.Honest isStarter pid (.read true) := by
    intro pid isAlive system isOwner
    refine ⟨isAlive, ?_⟩
    intro holder _ isHolder
    rw [isOwner] at isHolder
    obtain rfl := Option.some.inj isHolder
    unfold isStarter
    decide
  have reaches :
      Reaches [] isStarter (fun _ _ _ => True) leftBehind _ :=
    @Reaches.run _ _ _ _ _ .start
      [(1, .acquire [] [1]), (1, .link), (1, .read true),
        (2, .acquire [] [2]), (2, .link), (2, .read true),
        (1, .unlink), (1, .link), (2, .unlink), (2, .link)]
      (by
        refine And.intro (honest_of_ne (by decide) (by decide))
          ⟨trivial, _, rfl, ?_⟩
        refine And.intro (honest_of_ne (by decide) (by decide))
          ⟨trivial, _, rfl, ?_⟩
        refine And.intro (gone 1 (by decide) _ rfl) ⟨trivial, _, rfl, ?_⟩
        refine And.intro (honest_of_ne (by decide) (by decide))
          ⟨trivial, _, rfl, ?_⟩
        refine And.intro (honest_of_ne (by decide) (by decide))
          ⟨trivial, _, rfl, ?_⟩
        refine And.intro (gone 2 (by decide) _ rfl) ⟨trivial, _, rfl, ?_⟩
        refine And.intro (honest_of_ne (by decide) (by decide))
          ⟨trivial, _, rfl, ?_⟩
        refine And.intro (honest_of_ne (by decide) (by decide))
          ⟨trivial, _, rfl, ?_⟩
        refine And.intro (honest_of_ne (by decide) (by decide))
          ⟨trivial, _, rfl, ?_⟩
        exact And.intro (honest_of_ne (by decide) (by decide))
          ⟨trivial, _, rfl, trivial⟩)
      _ rfl
  refine ⟨_, _, initial_leftBehind, reaches, ?_⟩
  intro exclusive
  have same := exclusive 1 2 (by decide) (by decide)
  cases same

end SinterDb.Lock
