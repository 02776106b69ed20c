import SinterDb.Lib.Bytes

namespace SinterDb

/-!
# Frames in a stream

A stream is a sequence of frames, each of which starts with a header that
tells how long the frame is.  A receiver gets the stream in chunks, keeps what
has arrived and takes off the frames that are complete.
-/

/-- How a receiver finds the frames of a stream and decodes them. -/
structure Framing (α ε μ : Type) where
  headerSize : Nat
  frameLength : List α → Except ε Nat
  decode : List α → Except ε μ
  positive : 0 < headerSize
  /-- The header decides the length. -/
  frameLength_append :
    ∀ front more,
      headerSize ≤ front.length →
        frameLength (front ++ more) = frameLength front
  headerSize_le :
    ∀ front length, frameLength front = .ok length → headerSize ≤ length

/-- What a receiver took off, what is left, and what went wrong, if anything. -/
structure Drained (α ε μ : Type) where
  messages : List μ
  pending : List α
  failure : Option ε
  deriving Repr, DecidableEq

namespace Framing

variable {α ε μ : Type} (framing : Framing α ε μ)

/--
Take off complete frames until one is incomplete or wrong.  Every round takes
at least a header off, so the length bounds the rounds.
-/
def drainLoop : Nat → List α → Drained α ε μ
  | 0, pending => ⟨[], pending, none⟩
  | rounds + 1, pending =>
      if pending.length < framing.headerSize then
        ⟨[], pending, none⟩
      else
        match framing.frameLength pending with
        | .error error => ⟨[], pending, some error⟩
        | .ok length =>
            if pending.length < length then
              ⟨[], pending, none⟩
            else
              match framing.decode (pending.take length) with
              | .error error => ⟨[], pending.drop length, some error⟩
              | .ok message =>
                  let later := drainLoop rounds (pending.drop length)
                  { later with messages := message :: later.messages }

/-- Take off all complete frames. -/
def drain (pending : List α) : Drained α ε μ :=
  framing.drainLoop pending.length pending

/--
Receive chunks one after the other, up to the first one that fails.  The
messages are those that were handed out for the chunks before it.
-/
def receive : List α → List (List α) → Drained α ε μ
  | pending, [] => ⟨[], pending, none⟩
  | pending, chunk :: chunks =>
      let drained := framing.drain (pending ++ chunk)
      match drained.failure with
      | some error => ⟨[], drained.pending, some error⟩
      | none =>
          let later := receive drained.pending chunks
          { later with messages := drained.messages ++ later.messages }

/-- What has arrived does not complete a frame yet. -/
def Waits (pending : List α) : Prop :=
  pending.length < framing.headerSize ∨
    ∃ length,
      framing.frameLength pending = .ok length ∧ pending.length < length

/-- A complete frame and its message. -/
structure IsFrame (frame : List α) (message : μ) : Prop where
  long : framing.headerSize ≤ frame.length
  frameLength : framing.frameLength frame = .ok frame.length
  decodes : framing.decode frame = .ok message

/-- A header that is wrong, or a complete frame that cannot be decoded. -/
inductive Malformed (bad : List α) : Prop where
  | header
      (error : ε)
      (length : bad.length = framing.headerSize)
      (fails : framing.frameLength bad = .error error)
  | payload
      (error : ε)
      (frameLength : framing.frameLength bad = .ok bad.length)
      (fails : framing.decode bad = .error error)

/-- The stream of a list of frames. -/
def streamOf (frames : List (List α × μ)) : List α :=
  (frames.map Prod.fst).flatten

/-- Frames with their messages. -/
def AreFrames (frames : List (List α × μ)) : Prop :=
  ∀ frame ∈ frames, framing.IsFrame frame.1 frame.2

variable {framing}

/-- The stream of frames that follow a frame. -/
theorem streamOf_cons
    (frame : List α × μ)
    (frames : List (List α × μ)) :
    streamOf (frame :: frames) = frame.1 ++ streamOf frames := by
  simp [streamOf]

/-- More rounds than symbols make no difference. -/
theorem drainLoop_enough
    {rounds : Nat}
    {pending : List α}
    (enough : pending.length ≤ rounds) :
    framing.drainLoop rounds pending = framing.drain pending := by
  have agrees :
      ∀ first second (pending : List α),
        pending.length ≤ first → pending.length ≤ second →
          framing.drainLoop first pending =
            framing.drainLoop second pending := by
    intro first
    induction first with
    | zero =>
        intro second pending short _
        have short : pending.length < framing.headerSize :=
          Nat.lt_of_le_of_lt short framing.positive
        cases second with
        | zero =>
            rfl
        | succ second =>
            simp [drainLoop, short]
    | succ first inductionHypothesis =>
        intro second pending firstEnough secondEnough
        have positive := framing.positive
        cases second with
        | zero =>
            have short : pending.length < framing.headerSize := by omega
            simp [drainLoop, short]
        | succ second =>
            unfold drainLoop
            split
            · rfl
            · cases frameLength : framing.frameLength pending with
              | error error =>
                  rfl
              | ok length =>
                  have large := framing.headerSize_le pending length frameLength
                  simp only
                  split
                  · rfl
                  · rw [inductionHypothesis second (pending.drop length)
                      (by rw [List.length_drop]; omega)
                      (by rw [List.length_drop]; omega)]
  exact agrees rounds pending.length pending enough le_rfl

/-- One round of taking frames off. -/
theorem drain_eq
    (pending : List α) :
    framing.drain pending =
      if pending.length < framing.headerSize then
        ⟨[], pending, none⟩
      else
        match framing.frameLength pending with
        | .error error => ⟨[], pending, some error⟩
        | .ok length =>
            if pending.length < length then
              ⟨[], pending, none⟩
            else
              match framing.decode (pending.take length) with
              | .error error => ⟨[], pending.drop length, some error⟩
              | .ok message =>
                  let later := framing.drain (pending.drop length)
                  { later with messages := message :: later.messages } := by
  rw [← drainLoop_enough (Nat.le_succ pending.length)]
  unfold drainLoop
  split
  · rfl
  · cases frameLength : framing.frameLength pending with
    | error error =>
        rfl
    | ok length =>
        have enough : (pending.drop length).length ≤ pending.length := by
          rw [List.length_drop]
          omega
        simp only [drainLoop_enough enough]

/-- An incomplete frame stays where it is. -/
theorem drain_of_waits
    {pending : List α}
    (waits : framing.Waits pending) :
    framing.drain pending = ⟨[], pending, none⟩ := by
  rw [drain_eq]
  rcases waits with short | ⟨length, frameLength, short⟩
  · rw [if_pos short]
  · split
    · rfl
    · simp only [frameLength, if_pos short]

/-- A wrong header makes the receiver fail. -/
theorem drain_of_header
    {pending : List α}
    {error : ε}
    (long : framing.headerSize ≤ pending.length)
    (fails : framing.frameLength pending = .error error) :
    framing.drain pending = ⟨[], pending, some error⟩ := by
  rw [drain_eq, if_neg (by omega), fails]

/-- What arrived is long enough for a frame of the length that its header
tells. -/
theorem drain_of_frameLength
    {pending : List α}
    {length : Nat}
    (frameLength : framing.frameLength pending = .ok length)
    (reaches : length ≤ pending.length) :
    framing.drain pending =
      match framing.decode (pending.take length) with
      | .error error => ⟨[], pending.drop length, some error⟩
      | .ok message =>
          { framing.drain (pending.drop length) with
            messages :=
              message :: (framing.drain (pending.drop length)).messages } := by
  have long := framing.headerSize_le pending length frameLength
  rw [drain_eq, if_neg (by omega), frameLength]
  simp only [if_neg (Nat.not_lt.mpr reaches)]

/-- A complete frame is taken off. -/
theorem drain_frame
    {frame : List α}
    {message : μ}
    (isFrame : framing.IsFrame frame message)
    (rest : List α) :
    framing.drain (frame ++ rest) =
      { framing.drain rest with
        messages := message :: (framing.drain rest).messages } := by
  have frameLength := framing.frameLength_append frame rest isFrame.long
  rw [isFrame.frameLength] at frameLength
  rw [drain_of_frameLength frameLength (by simp), List.take_left,
    List.drop_left, isFrame.decodes]

/-- Frames are taken off in their order. -/
theorem drain_frames
    {frames : List (List α × μ)}
    (areFrames : framing.AreFrames frames)
    (rest : List α) :
    framing.drain (streamOf frames ++ rest) =
      { framing.drain rest with
        messages :=
          frames.map Prod.snd ++ (framing.drain rest).messages } := by
  induction frames with
  | nil =>
      rfl
  | cons frame frames inductionHypothesis =>
      obtain ⟨isFrame, areFrames⟩ := List.forall_mem_cons.mp areFrames
      rw [streamOf_cons, List.append_assoc, drain_frame isFrame,
        inductionHypothesis areFrames]
      rfl

/-- What is left after taking frames off waits, if nothing went wrong. -/
theorem waits_drain
    {symbols : List α}
    (succeeds : (framing.drain symbols).failure = none) :
    framing.Waits (framing.drain symbols).pending := by
  induction length : symbols.length using Nat.strong_induction_on
    generalizing symbols with
  | _ count inductionHypothesis =>
      by_cases waits : framing.Waits symbols
      · rw [drain_of_waits waits]
        exact waits
      · unfold Waits at waits
        push Not at waits
        obtain ⟨long, complete⟩ := waits
        cases hasLength : framing.frameLength symbols with
        | error error =>
            rw [drain_of_header long hasLength] at succeeds
            cases succeeds
        | ok frameLength =>
            have reaches := complete frameLength hasLength
            have large := framing.headerSize_le _ _ hasLength
            have positive := framing.positive
            rw [drain_of_frameLength hasLength reaches]
              at succeeds ⊢
            cases decodes : framing.decode (symbols.take frameLength) with
            | error error =>
                rw [decodes] at succeeds
                cases succeeds
            | ok message =>
                rw [decodes] at succeeds
                exact inductionHypothesis (symbols.drop frameLength).length
                  (by rw [List.length_drop]; omega) succeeds rfl

/-- A malformed frame makes the receiver fail, with nothing to hand out. -/
theorem drain_malformed
    {bad : List α}
    (malformed : framing.Malformed bad)
    (rest : List α) :
    ∃ pending error,
      framing.drain (bad ++ rest) = ⟨[], pending, some error⟩ := by
  cases malformed with
  | header error length fails =>
      have headerFails := framing.frameLength_append bad rest (by omega)
      rw [fails] at headerFails
      exact ⟨_, error, drain_of_header (by simp; omega) headerFails⟩
  | payload error frameLength fails =>
      have long := framing.headerSize_le bad bad.length frameLength
      have hasLength := framing.frameLength_append bad rest long
      rw [frameLength] at hasLength
      rw [drain_of_frameLength hasLength (by simp), List.take_left, fails]
      exact ⟨_, error, rfl⟩

/-- A front of something with a known length waits for the rest. -/
theorem waits_of_proper
    {front back : List α}
    (frameLength :
      framing.frameLength (front ++ back) = .ok (front ++ back).length)
    (proper : back ≠ []) :
    framing.Waits front := by
  by_cases short : front.length < framing.headerSize
  · exact .inl short
  · rw [framing.frameLength_append front back (by omega)] at frameLength
    have positive := List.length_pos_iff.mpr proper
    exact .inr ⟨_, frameLength, by rw [List.length_append]; omega⟩

/-- A front of a malformed frame waits for the rest. -/
theorem waits_of_malformed
    {front back : List α}
    (malformed : framing.Malformed (front ++ back))
    (proper : back ≠ []) :
    framing.Waits front := by
  cases malformed with
  | header error length fails =>
      have positive := List.length_pos_iff.mpr proper
      rw [List.length_append] at length
      exact .inl (by omega)
  | payload error frameLength fails =>
      exact waits_of_proper frameLength proper

/--
A front of a stream of frames: some frames are complete, and what is behind
them waits.  The front may reach into the tail of the stream as far as fronts
of the tail wait.
-/
theorem drain_front
    {frames : List (List α × μ)}
    (areFrames : framing.AreFrames frames)
    {tail : List α}
    {limit : Nat}
    (tailWaits :
      ∀ front back,
        front ++ back = tail → front.length < limit → framing.Waits front)
    {front back : List α}
    (splits : front ++ back = streamOf frames ++ tail)
    (early : front.length < (streamOf frames).length + limit) :
    ∃ complete later pending,
      frames = complete ++ later ∧
        front = streamOf complete ++ pending ∧
        framing.Waits pending ∧
        framing.drain front = ⟨complete.map Prod.snd, pending, none⟩ := by
  induction frames generalizing front with
  | nil =>
      have waits := tailWaits front back splits (by simpa [streamOf] using early)
      exact ⟨[], [], front, rfl, rfl, waits, drain_of_waits waits⟩
  | cons frame frames inductionHypothesis =>
      obtain ⟨isFrame, areFrames⟩ := List.forall_mem_cons.mp areFrames
      rw [streamOf_cons, List.append_assoc] at splits
      rcases List.append_eq_append_iff.mp splits with
        ⟨more, reaches, behind⟩ | ⟨more, reaches, behind⟩
      · by_cases none : more = []
        · subst none
          rw [List.append_nil] at reaches
          subst reaches
          have waits : framing.Waits ([] : List α) := .inl framing.positive
          refine ⟨[frame], frames, [], rfl, by simp [streamOf], waits, ?_⟩
          rw [← List.append_nil frame.1, drain_frame isFrame,
            drain_of_waits waits]
          simp
        · have waits : framing.Waits front :=
            waits_of_proper (reaches ▸ isFrame.frameLength) none
          exact ⟨[], frame :: frames, front, rfl, rfl, waits,
            drain_of_waits waits⟩
      · subst reaches
        rw [streamOf_cons, List.length_append, List.length_append] at early
        obtain ⟨complete, later, pending, rfl, rfl, waits, drains⟩ :=
          inductionHypothesis areFrames behind.symm (by omega)
        refine ⟨frame :: complete, later, pending, rfl, ?_, waits, ?_⟩
        · rw [streamOf_cons, List.append_assoc]
        · rw [drain_frame isFrame, drains]
          rfl

/--
Frames and a part of another one, in whatever chunks: the receiver hands out
the messages of the frames and keeps the part.
-/
theorem receive_frames
    {frames : List (List α × μ)}
    (areFrames : framing.AreFrames frames)
    {tail : List α}
    (tailWaits :
      ∀ front back, front ++ back = tail → framing.Waits front)
    {pending : List α}
    {chunks : List (List α)}
    (arrives : pending ++ chunks.flatten = streamOf frames ++ tail)
    (waits : framing.Waits pending) :
    framing.receive pending chunks = ⟨frames.map Prod.snd, tail, none⟩ := by
  induction chunks generalizing pending frames with
  | nil =>
      have drains := drain_frames areFrames tail
      rw [← arrives, List.flatten_nil, List.append_nil, drain_of_waits waits,
        drain_of_waits (tailWaits tail [] (List.append_nil tail))] at drains
      simpa [receive] using drains
  | cons chunk chunks inductionHypothesis =>
      rw [List.flatten_cons, ← List.append_assoc] at arrives
      obtain ⟨complete, later, rest, rfl, front, restWaits, drains⟩ :=
        @drain_front _ _ _ framing _ areFrames tail
          ((pending ++ chunk).length + 1)
          (fun front back splits _ => tailWaits front back splits)
          (pending ++ chunk) chunks.flatten arrives (by omega)
      rw [front] at arrives
      have remains : rest ++ chunks.flatten = streamOf later ++ tail := by
        simpa [streamOf] using arrives
      have laterFrames : framing.AreFrames later := fun frame member =>
        areFrames frame (List.mem_append_right complete member)
      simp only [receive, drains,
        inductionHypothesis laterFrames remains restWaits, List.map_append]

/-- What waits in front of some frames is shorter than they are. -/
theorem length_lt_of_waits
    {frames : List (List α × μ)}
    (areFrames : framing.AreFrames frames)
    {pending back tail : List α}
    (splits : pending ++ back = streamOf frames ++ tail)
    (waits : framing.Waits pending)
    (some : frames ≠ []) :
    pending.length < (streamOf frames).length := by
  by_contra reaches
  obtain ⟨more, rfl⟩ : ∃ more, pending = streamOf frames ++ more := by
    rcases List.append_eq_append_iff.mp splits with
      ⟨more, isStream, -⟩ | ⟨more, isPending, -⟩
    · have none : more = [] := by
        rw [isStream, List.length_append] at reaches
        exact List.eq_nil_of_length_eq_zero (by omega)
      exact ⟨[], by rw [isStream, none]; simp⟩
    · exact ⟨more, isPending⟩
  have drains := drain_frames areFrames more
  rw [drain_of_waits waits] at drains
  have messages := congrArg Drained.messages drains
  exact some (by simpa using (List.append_eq_nil_iff.mp messages.symm).1)

/-- A front that holds a whole malformed frame makes the receiver fail. -/
theorem drain_reaches_malformed
    {frames : List (List α × μ)}
    (areFrames : framing.AreFrames frames)
    {bad rest : List α}
    (malformed : framing.Malformed bad)
    {front back : List α}
    (splits : front ++ back = streamOf frames ++ (bad ++ rest))
    (late : (streamOf frames).length + bad.length ≤ front.length) :
    ∃ error, (framing.drain front).failure = some error := by
  obtain ⟨more, rfl⟩ : ∃ more, front = streamOf frames ++ bad ++ more := by
    rw [← List.append_assoc] at splits
    refine ⟨front.drop (streamOf frames ++ bad).length, ?_⟩
    have taken :=
      congrArg (List.take (streamOf frames ++ bad).length) splits
    rw [List.take_append_of_le_length (by simpa using late),
      List.take_left] at taken
    exact (taken ▸ (List.take_append_drop _ front)).symm
  obtain ⟨pending, error, drains⟩ := drain_malformed malformed more
  rw [List.append_assoc, drain_frames areFrames, drains]
  exact ⟨error, rfl⟩

/-- A cut between the chunks that lies in the malformed frame or right before
it. -/
def CutAt
    (start : Nat)
    (good bad : List α)
    (chunks : List (List α)) : Prop :=
  ∃ before after,
    chunks = before ++ after ∧
      good.length ≤ start + before.flatten.length ∧
      start + before.flatten.length < good.length + bad.length

/--
Frames and a malformed one behind them, in whatever chunks: the receiver
fails, and it has handed out the messages of all frames before that exactly if
there is a cut between the last of them and the end of the malformed one.
-/
theorem receive_malformed
    {frames : List (List α × μ)}
    (areFrames : framing.AreFrames frames)
    {bad rest : List α}
    (malformed : framing.Malformed bad)
    {pending : List α}
    {chunks : List (List α)}
    (arrives :
      pending ++ chunks.flatten = streamOf frames ++ (bad ++ rest))
    (waits : framing.Waits pending) :
    (∃ error, (framing.receive pending chunks).failure = some error) ∧
      ((framing.receive pending chunks).messages = frames.map Prod.snd ↔
        CutAt pending.length (streamOf frames) bad chunks) := by
  have early :
      pending.length < (streamOf frames).length + bad.length := by
    by_contra late
    obtain ⟨error, fails⟩ :=
      drain_reaches_malformed areFrames malformed arrives (by omega)
    rw [drain_of_waits waits] at fails
    cases fails
  have badWaits :
      ∀ front back,
        front ++ back = bad ++ rest → front.length < bad.length →
          framing.Waits front := by
    intro front back splits short
    rcases List.append_eq_append_iff.mp splits with
      ⟨more, rfl, -⟩ | ⟨more, rfl, -⟩
    · refine waits_of_malformed malformed ?_
      rintro rfl
      simp at short
    · rw [List.length_append] at short
      omega
  induction chunks generalizing pending frames with
  | nil =>
      have whole := congrArg List.length arrives
      simp only [List.flatten_nil, List.append_nil,
        List.length_append] at whole
      omega
  | cons chunk chunks inductionHypothesis =>
      rw [List.flatten_cons, ← List.append_assoc] at arrives
      by_cases reaches :
          (streamOf frames).length + bad.length ≤ (pending ++ chunk).length
      · obtain ⟨error, fails⟩ :=
          drain_reaches_malformed areFrames malformed arrives reaches
        simp only [receive, fails]
        refine ⟨⟨error, rfl⟩, ?_⟩
        constructor
        · intro none
          have noFrames : frames = [] := by simpa using none.symm
          subst noFrames
          exact ⟨[], chunk :: chunks, rfl, by simp [streamOf],
            by simpa using early⟩
        · rintro ⟨before, after, isSplit, least, most⟩
          cases before with
          | nil =>
              by_contra some
              have short :=
                length_lt_of_waits areFrames
                  (by rw [← arrives, List.append_assoc]) waits
                  (fun none => some (by rw [none]; rfl))
              simp at least
              omega
          | cons first before =>
              obtain ⟨rfl, -⟩ := List.cons.inj isSplit
              rw [List.flatten_cons, List.length_append] at most
              rw [List.length_append] at reaches
              omega
      · obtain ⟨complete, later, left, rfl, front, leftWaits, drains⟩ :=
          drain_front areFrames badWaits arrives (by omega)
        have laterFrames : framing.AreFrames later := fun frame member =>
          areFrames frame (List.mem_append_right complete member)
        have stream :
            streamOf (complete ++ later) =
              streamOf complete ++ streamOf later := by
          simp [streamOf]
        have remains :
            left ++ chunks.flatten = streamOf later ++ (bad ++ rest) := by
          rw [front, stream, List.append_assoc, List.append_assoc] at arrives
          exact List.append_cancel_left arrives
        have lengths := congrArg List.length front
        simp only [stream, List.length_append] at lengths reaches early
        obtain ⟨fails, iff⟩ :=
          inductionHypothesis laterFrames remains leftWaits (by omega)
        simp only [receive, drains]
        refine ⟨fails, ?_⟩
        rw [List.map_append, List.append_cancel_left_eq, iff]
        constructor
        · rintro ⟨before, after, rfl, least, most⟩
          refine ⟨chunk :: before, after, rfl, ?_, ?_⟩ <;>
            simp only [stream, List.flatten_cons, List.length_append] <;>
            omega
        · rintro ⟨before, after, isSplit, least, most⟩
          simp only [stream, List.length_append] at least most
          cases before with
          | nil =>
              -- The cut before this chunk: then there were no frames to come.
              have none : complete ++ later = [] := by
                by_contra some
                have short :=
                  length_lt_of_waits areFrames
                    (by rw [← arrives, List.append_assoc]) waits some
                simp only [stream, List.length_append] at short
                simp at least
                omega
              obtain ⟨rfl, rfl⟩ := List.append_eq_nil_iff.mp none
              refine ⟨[], chunks, rfl, ?_, ?_⟩ <;>
                simp [streamOf] at reaches lengths ⊢
              omega
          | cons first before =>
              obtain ⟨rfl, rfl⟩ := List.cons.inj isSplit
              rw [List.flatten_cons, List.length_append] at least most
              refine ⟨before, after, rfl, ?_, ?_⟩ <;> omega

end Framing

end SinterDb
