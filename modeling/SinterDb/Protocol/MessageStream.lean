import SinterDb.Lib.Framing
import SinterDb.Protocol.MessageRoundTrip

namespace SinterDb

open Unicode Buffer

/-!
# Decoding a stream of messages

`MessageStreamDecoder` keeps what has arrived in the front part of an array
that it grows and reuses.  What it returns depends on that front part only, so
it is a receiver of frames.
-/

/-- `TypedArray.prototype.set`. -/
def setBytes (array data : Bytes) (offset : Nat) : Bytes :=
  array.take offset ++ data ++ array.drop (offset + data.length)

/-- `TypedArray.prototype.copyWithin`, to the front. -/
def copyToFront (array : Bytes) (start stop : Nat) : Bytes :=
  subarray array start stop ++ array.drop (stop - start)

/-- `MessageStreamDecoder`. -/
structure MessageStreamDecoder where
  buffered : Bytes := []
  length : Nat := 0
  deriving Repr, DecidableEq

namespace MessageStreamDecoder

/-- `bufferedBytes`. -/
def bufferedBytes (decoder : MessageStreamDecoder) : Nat :=
  decoder.length

/-- `append`. -/
def append
    (decoder : MessageStreamDecoder)
    (chunk : Bytes) : MessageStreamDecoder :=
  let required := decoder.length + chunk.length
  let buffered :=
    if decoder.buffered.length < required then
      let size :=
        max required (max (decoder.buffered.length * 2) frameHeaderSize)
      setBytes (List.replicate size 0)
        (subarray decoder.buffered 0 decoder.length) 0
    else
      decoder.buffered
  { buffered := setBytes buffered chunk decoder.length
    length := required }

/--
The loop of `push`: how far it has consumed, and what it returns or throws.
-/
def pushLoop
    (decoder : MessageStreamDecoder) :
    Nat → Nat → List DecodedMessage →
      Nat × Except ProtocolError (List DecodedMessage)
  | 0, consumed, messages => (consumed, .ok messages)
  | rounds + 1, consumed, messages =>
      if decoder.length - consumed < frameHeaderSize then
        (consumed, .ok messages)
      else
        match
          getFrameLength
            (subarray decoder.buffered consumed decoder.length) with
        | .error error => (consumed, .error error)
        | .ok frameLength =>
            if decoder.length - consumed < frameLength then
              (consumed, .ok messages)
            else
              let frame :=
                subarray decoder.buffered consumed (consumed + frameLength)
              match decodeMessage frame with
              | .error error => (consumed + frameLength, .error error)
              | .ok message =>
                  pushLoop decoder rounds (consumed + frameLength)
                    (messages ++ [message])

/-- The `finally` block of `push`. -/
def discard
    (decoder : MessageStreamDecoder)
    (consumed : Nat) : MessageStreamDecoder :=
  if 0 < consumed then
    { buffered := copyToFront decoder.buffered consumed decoder.length
      length := decoder.length - consumed }
  else
    decoder

/-- `push`; a round consumes at least a header. -/
def push
    (decoder : MessageStreamDecoder)
    (chunk : Bytes) :
    MessageStreamDecoder × Except ProtocolError (List DecodedMessage) :=
  if chunk.length = 0 then
    (decoder, .ok [])
  else
    let decoder := decoder.append chunk
    let (consumed, result) := decoder.pushLoop decoder.length 0 []
    (decoder.discard consumed, result)

/--
Push chunks in order up to the first push that throws: the decoder, the
messages that were returned, and the error, if any.
-/
def pushAll :
    MessageStreamDecoder → List Bytes →
      MessageStreamDecoder × List DecodedMessage × Option ProtocolError
  | decoder, [] => (decoder, [], none)
  | decoder, chunk :: chunks =>
      match decoder.push chunk with
      | (decoder, .error error) => (decoder, [], some error)
      | (decoder, .ok messages) =>
          let (decoder, later, failure) := pushAll decoder chunks
          (decoder, messages ++ later, failure)

/-- What has arrived and was not consumed. -/
def pending (decoder : MessageStreamDecoder) : Bytes :=
  decoder.buffered.take decoder.length

/-- The array is large enough for what it holds. -/
def Holds (decoder : MessageStreamDecoder) : Prop :=
  decoder.length ≤ decoder.buffered.length

end MessageStreamDecoder

/-- Messages as the frames of a stream. -/
def messageFraming : Framing UInt8 ProtocolError DecodedMessage where
  headerSize := frameHeaderSize
  frameLength := getFrameLength
  decode := decodeMessage
  positive := by decide
  frameLength_append := getFrameLength_append
  headerSize_le := fun _ _ => frameHeaderSize_le_of_getFrameLength

namespace MessageStreamDecoder

variable {decoder : MessageStreamDecoder}

/-- The length of what has arrived. -/
theorem length_pending
    (holds : decoder.Holds) :
    decoder.pending.length = decoder.length := by
  unfold pending
  rw [List.length_take]
  exact Nat.min_eq_left holds

/-- A part of the array in front of its end is a part of what has arrived. -/
theorem subarray_buffered
    {start stop : Nat}
    (inside : stop ≤ decoder.length) :
    subarray decoder.buffered start stop =
      (decoder.pending.drop start).take (stop - start) := by
  unfold subarray pending
  rw [List.drop_take, List.take_take]
  congr 1
  omega

/-- Appending a chunk adds it to what has arrived. -/
theorem append_spec
    (holds : decoder.Holds)
    (chunk : Bytes) :
    (decoder.append chunk).Holds ∧
      (decoder.append chunk).pending = decoder.pending ++ chunk := by
  have length := length_pending holds
  have kept :
      ∀ array : Bytes,
        decoder.length + chunk.length ≤ array.length →
        array.take decoder.length = decoder.pending →
          decoder.length + chunk.length ≤
              (setBytes array chunk decoder.length).length ∧
            (setBytes array chunk decoder.length).take
                (decoder.length + chunk.length) =
              decoder.pending ++ chunk := by
    intro array large front
    unfold setBytes
    rw [front]
    constructor
    · simp only [List.length_append]
      omega
    · rw [List.take_append_of_le_length
        (by rw [List.length_append, length])]
      exact List.take_of_length_le
        (by rw [List.length_append, length])
  unfold append Holds
  by_cases small : decoder.buffered.length < decoder.length + chunk.length
  · simp only [if_pos small]
    refine kept _ ?_ ?_
    · simp only [setBytes, List.length_append, List.length_take,
        List.length_drop, List.length_replicate]
      omega
    · unfold setBytes
      rw [subarray_buffered le_rfl]
      simp only [List.take_zero, List.nil_append, List.drop_zero,
        Nat.sub_zero, Nat.zero_add]
      rw [List.take_append_of_le_length (by rw [List.length_take, length]; omega),
        List.take_take, Nat.min_self]
      exact List.take_of_length_le (by omega)
  · simp only [if_neg small]
    exact kept _ (by omega) rfl

/-- Discarding keeps what was not consumed. -/
theorem discard_spec
    (holds : decoder.Holds)
    {consumed : Nat}
    (inside : consumed ≤ decoder.length) :
    (decoder.discard consumed).Holds ∧
      (decoder.discard consumed).pending = decoder.pending.drop consumed := by
  have length := length_pending holds
  unfold discard Holds
  by_cases some : 0 < consumed
  · simp only [if_pos some]
    have front :
        subarray decoder.buffered consumed decoder.length =
          decoder.pending.drop consumed := by
      rw [subarray_buffered le_rfl]
      exact List.take_of_length_le (by rw [List.length_drop]; omega)
    constructor
    · simp only [copyToFront, front, List.length_append, List.length_drop]
      omega
    · change
        (copyToFront decoder.buffered consumed decoder.length).take
            (decoder.length - consumed) =
          decoder.pending.drop consumed
      rw [copyToFront, front, List.take_append_of_le_length
        (by rw [List.length_drop]; omega)]
      exact List.take_of_length_le (by rw [List.length_drop]; omega)
  · simp only [if_neg some]
    obtain rfl : consumed = 0 := by omega
    exact ⟨holds, by simp⟩

/--
The loop takes frames off what has arrived: it returns or throws what the
receiver does, and stops where the receiver stops.
-/
theorem pushLoop_spec
    (holds : decoder.Holds)
    {rounds consumed : Nat}
    (inside : consumed ≤ decoder.length)
    (enough : decoder.length - consumed ≤ rounds)
    (messages : List DecodedMessage) :
    ∃ stop,
      stop ≤ decoder.length ∧
        decoder.pending.drop stop =
          (messageFraming.drain (decoder.pending.drop consumed)).pending ∧
        decoder.pushLoop rounds consumed messages =
          (stop,
            match
              (messageFraming.drain (decoder.pending.drop consumed)).failure
            with
            | some error => .error error
            | none =>
                .ok (messages ++
                  (messageFraming.drain
                    (decoder.pending.drop consumed)).messages)) := by
  have length := length_pending holds
  induction rounds generalizing consumed messages with
  | zero =>
      have none : decoder.pending.drop consumed = [] :=
        List.drop_eq_nil_of_le (by omega)
      have waits : messageFraming.Waits ([] : Bytes) :=
        .inl messageFraming.positive
      refine ⟨consumed, inside, ?_⟩
      rw [none, Framing.drain_of_waits waits]
      exact ⟨rfl, by simp [pushLoop]⟩
  | succ rounds inductionHypothesis =>
      have arrived :
          subarray decoder.buffered consumed decoder.length =
            decoder.pending.drop consumed := by
        rw [subarray_buffered le_rfl]
        exact List.take_of_length_le (by rw [List.length_drop]; omega)
      have left :
          (decoder.pending.drop consumed).length =
            decoder.length - consumed := by
        rw [List.length_drop, length]
      rw [pushLoop, arrived]
      by_cases short : decoder.length - consumed < frameHeaderSize
      · have waits : messageFraming.Waits (decoder.pending.drop consumed) :=
          .inl (left ▸ short)
        rw [if_pos short, Framing.drain_of_waits waits]
        exact ⟨consumed, inside, rfl, by simp⟩
      · rw [if_neg short]
        cases hasLength : getFrameLength (decoder.pending.drop consumed) with
        | error error =>
            have drains :=
              @Framing.drain_of_header _ _ _ messageFraming _ error
                (left ▸ Nat.not_lt.mp short) hasLength
            rw [drains]
            exact ⟨consumed, inside, rfl, rfl⟩
        | ok frameLength =>
            have large := frameHeaderSize_le_of_getFrameLength hasLength
            simp only
            by_cases incomplete : decoder.length - consumed < frameLength
            · have waits :
                  messageFraming.Waits (decoder.pending.drop consumed) :=
                .inr ⟨frameLength, hasLength, left ▸ incomplete⟩
              rw [if_pos incomplete, Framing.drain_of_waits waits]
              exact ⟨consumed, inside, rfl, by simp⟩
            · have frame :
                  subarray decoder.buffered consumed
                      (consumed + frameLength) =
                    (decoder.pending.drop consumed).take frameLength := by
                rw [subarray_buffered (by omega)]
                simp
              have drains :=
                @Framing.drain_of_frameLength _ _ _ messageFraming _ _
                  hasLength (left ▸ Nat.not_lt.mp incomplete)
              rw [if_neg incomplete, frame, drains]
              simp only [messageFraming]
              cases decodes :
                  decodeMessage
                    ((decoder.pending.drop consumed).take frameLength) with
              | error error =>
                  exact ⟨consumed + frameLength, by omega,
                    by rw [List.drop_drop], rfl⟩
              | ok message =>
                  unfold frameHeaderSize at large
                  obtain ⟨stop, atEnd, rest, loops⟩ :=
                    @inductionHypothesis (consumed + frameLength) (by omega)
                      (by omega) (messages ++ [message])
                  refine ⟨stop, atEnd, ?_, ?_⟩
                  · rw [rest, List.drop_drop]
                    rfl
                  · simp only [loops, List.drop_drop, List.append_assoc,
                      List.singleton_append]
                    rfl

/-- What `push` does is what a receiver of frames does with the chunk. -/
theorem push_spec
    (holds : decoder.Holds)
    (waits : messageFraming.Waits decoder.pending)
    (chunk : Bytes) :
    (decoder.push chunk).1.Holds ∧
      (decoder.push chunk).1.pending =
        (messageFraming.drain (decoder.pending ++ chunk)).pending ∧
      (decoder.push chunk).2 =
        match
          (messageFraming.drain (decoder.pending ++ chunk)).failure with
        | some error => .error error
        | none =>
            .ok (messageFraming.drain (decoder.pending ++ chunk)).messages := by
  unfold push
  by_cases empty : chunk.length = 0
  · obtain rfl := List.eq_nil_of_length_eq_zero empty
    rw [List.append_nil, Framing.drain_of_waits waits]
    exact ⟨holds, rfl, rfl⟩
  · obtain ⟨appendHolds, appends⟩ := append_spec holds chunk
    obtain ⟨stop, inside, rest, loops⟩ :=
      pushLoop_spec appendHolds (Nat.zero_le (decoder.append chunk).length)
        le_rfl []
    rw [Nat.sub_zero, List.drop_zero, appends] at loops
    rw [List.drop_zero, appends] at rest
    obtain ⟨discardHolds, discards⟩ := discard_spec appendHolds inside
    simp only [if_neg empty, loops]
    refine ⟨discardHolds, ?_, ?_⟩
    · rw [discards, appends, rest]
    · cases (messageFraming.drain (decoder.pending ++ chunk)).failure <;> rfl

/-- Pushing chunks is receiving them. -/
theorem pushAll_spec
    (holds : decoder.Holds)
    (waits : messageFraming.Waits decoder.pending)
    (chunks : List Bytes) :
    (decoder.pushAll chunks).1.Holds ∧
      (decoder.pushAll chunks).1.pending =
        (messageFraming.receive decoder.pending chunks).pending ∧
      (decoder.pushAll chunks).2 =
        ((messageFraming.receive decoder.pending chunks).messages,
          (messageFraming.receive decoder.pending chunks).failure) := by
  induction chunks generalizing decoder with
  | nil =>
      exact ⟨holds, rfl, rfl⟩
  | cons chunk chunks inductionHypothesis =>
      obtain ⟨pushHolds, rest, returns⟩ := push_spec holds waits chunk
      obtain ⟨pushed, result, pushes⟩ :
          ∃ pushed result, decoder.push chunk = (pushed, result) :=
        ⟨_, _, rfl⟩
      rw [pushes] at pushHolds rest returns
      simp only [pushAll, Framing.receive, pushes]
      cases fails :
          (messageFraming.drain (decoder.pending ++ chunk)).failure with
      | some error =>
          simp only [fails] at returns
          subst returns
          exact ⟨pushHolds, rest, rfl⟩
      | none =>
          simp only [fails] at returns
          subst returns
          have stillWaits := Framing.waits_drain fails
          rw [← rest] at stillWaits
          obtain ⟨laterHolds, laterRest, later⟩ :=
            inductionHypothesis pushHolds stillWaits
          rw [rest] at laterRest later
          refine ⟨laterHolds, laterRest, ?_⟩
          simp only [later]

/-- Pushing chunks into a fresh decoder is receiving them. -/
theorem pushAll_fresh
    (chunks : List Bytes) :
    (pushAll {} chunks).1.Holds ∧
      (pushAll {} chunks).1.pending =
        (messageFraming.receive [] chunks).pending ∧
      (pushAll {} chunks).2 =
        ((messageFraming.receive [] chunks).messages,
          (messageFraming.receive [] chunks).failure) :=
  @pushAll_spec {} (Nat.zero_le 0) (.inl (by decide)) chunks

end MessageStreamDecoder

/-- What `decodeMessage` accepts is a frame. -/
theorem isFrame_of_decodeMessage
    {data : Bytes}
    {message : DecodedMessage}
    (decodes : decodeMessage data = .ok message) :
    messageFraming.IsFrame data message := by
  obtain ⟨frame, isFrame, -⟩ := Result.bind_eq_ok.mp decodes
  obtain ⟨header, isHeader, frames⟩ := Result.bind_eq_ok.mp isFrame
  have notShort : ¬ data.length < frameHeaderSize + header.payloadLength := by
    intro short
    rw [if_pos short] at frames
    cases frames
  have notLong : ¬ frameHeaderSize + header.payloadLength < data.length := by
    intro long
    rw [if_neg notShort, if_pos long] at frames
    cases frames
  have length : data.length = frameHeaderSize + header.payloadLength := by
    omega
  refine ⟨by rw [length]; exact Nat.le_add_right _ _, ?_, decodes⟩
  change getFrameLength data = _
  rw [getFrameLength, isHeader, length]
  rfl

/-- The number of a request has 32 bits. -/
theorem requestId_le_of_readFrameHeader
    {data : Bytes}
    {header : FrameHeader}
    (reads : readFrameHeader data = .ok header) :
    header.requestId ≤ maxRequestId := by
  have small : Buffer.readUIntBE data 8 4 < 256 ^ 4 := by
    unfold Buffer.readUIntBE
    refine (BigEndian.decode_lt _).trans_le ?_
    refine Nat.pow_le_pow_right (by decide) ?_
    unfold Buffer.subarray
    rw [List.length_take]
    exact Nat.min_le_left _ _
  unfold readFrameHeader at reads
  by_cases short : data.length < frameHeaderSize
  · rw [if_pos short] at reads
    cases reads
  rw [if_neg short] at reads
  obtain ⟨⟨⟩, -, reads⟩ := Result.bind_eq_ok.mp reads
  dsimp only at reads
  by_cases other : readUIntBE data 4 2 ≠ protocolVersion
  · rw [if_pos other] at reads
    cases reads
  rw [if_neg other] at reads
  cases isKind : MessageKind.ofCode? (readUIntBE data 6 1) with
  | none =>
      rw [isKind] at reads
      cases reads
  | some kind =>
      simp only [isKind] at reads
      obtain ⟨⟨⟩, -, reads⟩ := Result.bind_eq_ok.mp reads
      by_cases long : maxPayloadSize < readUIntBE data 12 4
      · rw [if_pos long] at reads
        cases reads
      rw [if_neg long] at reads
      cases Except.ok.inj reads
      exact Nat.le_of_lt_succ small

/-- A message that was decoded has a number of 32 bits and a payload of its
kind. -/
theorem valid_of_decodeMessage
    {data : Bytes}
    {message : DecodedMessage}
    (decodes : decodeMessage data = .ok message) :
    message.requestId ≤ maxRequestId ∧
      validateMessagePayload message.kind message.payload = .ok () := by
  obtain ⟨frame, isFrame, decodes⟩ := Result.bind_eq_ok.mp decodes
  obtain ⟨payload, isPayload, decodes⟩ := Result.bind_eq_ok.mp decodes
  cases Except.ok.inj decodes
  constructor
  · obtain ⟨header, isHeader, frames⟩ := Result.bind_eq_ok.mp isFrame
    have number := requestId_le_of_readFrameHeader isHeader
    by_cases short :
        data.length < frameHeaderSize + header.payloadLength
    · rw [if_pos short] at frames
      cases frames
    by_cases long :
        frameHeaderSize + header.payloadLength < data.length
    · rw [if_neg short, if_pos long] at frames
      cases frames
    rw [if_neg short, if_neg long] at frames
    cases Except.ok.inj frames
    exact number
  · obtain ⟨decoded, -, checks⟩ := Result.bind_eq_ok.mp isPayload
    obtain ⟨⟨⟩, valid, same⟩ := Result.bind_eq_ok.mp checks
    cases Except.ok.inj same
    exact valid

/-- What `push` returns was decoded. -/
theorem MessageStreamDecoder.decoded_of_push
    {decoder : MessageStreamDecoder}
    {chunk : Bytes}
    {messages : List DecodedMessage}
    (pushes : (decoder.push chunk).2 = .ok messages) :
    ∀ message ∈ messages, ∃ data, decodeMessage data = .ok message := by
  have loop :
      ∀ (decoder : MessageStreamDecoder) (rounds consumed : Nat)
        (before all : List DecodedMessage),
        (decoder.pushLoop rounds consumed before).2 = .ok all →
          (∀ message ∈ before, ∃ data, decodeMessage data = .ok message) →
            ∀ message ∈ all, ∃ data, decodeMessage data = .ok message := by
    intro decoder rounds
    induction rounds with
    | zero =>
        intro consumed before all same decoded
        cases Except.ok.inj same
        exact decoded
    | succ rounds inductionHypothesis =>
        intro consumed before all loops decoded
        rw [pushLoop] at loops
        split_ifs at loops
        · cases Except.ok.inj loops
          exact decoded
        · cases hasLength :
              getFrameLength
                (subarray decoder.buffered consumed decoder.length) with
          | error error =>
              rw [hasLength] at loops
              cases loops
          | ok frameLength =>
              simp only [hasLength] at loops
              split_ifs at loops
              · cases Except.ok.inj loops
                exact decoded
              · cases isMessage :
                    decodeMessage
                      (subarray decoder.buffered consumed
                        (consumed + frameLength)) with
                | error error =>
                    rw [isMessage] at loops
                    cases loops
                | ok message =>
                    simp only [isMessage] at loops
                    refine inductionHypothesis _ _ all loops ?_
                    intro other member
                    rcases List.mem_append.mp member with isBefore | isNew
                    · exact decoded other isBefore
                    · rw [List.mem_singleton.mp isNew]
                      exact ⟨_, isMessage⟩
  unfold push at pushes
  split_ifs at pushes
  · cases Except.ok.inj pushes
    intro message member
    cases member
  · exact loop _ _ _ [] messages pushes fun message member => by cases member

/-- A frame that makes the decoder throw: its header is wrong, or its payload
cannot be decoded. -/
inductive MalformedFrame (bad : Bytes) : Prop where
  | header
      (length : bad.length = frameHeaderSize)
      (fails : ∃ error, readFrameHeader bad = .error error)
  | payload
      (hasLength : getFrameLength bad = .ok bad.length)
      (fails : ∃ error, decodeMessage bad = .error error)

/-- A malformed frame of a message is a malformed frame. -/
theorem MalformedFrame.malformed
    {bad : Bytes}
    (malformed : MalformedFrame bad) :
    messageFraming.Malformed bad := by
  cases malformed with
  | header length fails =>
      obtain ⟨error, fails⟩ := fails
      refine .header error length ?_
      change getFrameLength bad = _
      rw [getFrameLength, fails]
      rfl
  | payload hasLength fails =>
      obtain ⟨error, fails⟩ := fails
      exact .payload error hasLength fails

/-- The frames of messages whose payloads are restored. -/
theorem frames_of_encodings
    {inputs : List MessageInput}
    {encodings : List Bytes}
    (encodes :
      List.Forall₂
        (fun input encoded =>
          encodeMessage input = .ok encoded ∧ input.Restores)
        inputs encodings) :
    ∃ frames : List (Bytes × DecodedMessage),
      messageFraming.AreFrames frames ∧
        Framing.streamOf frames = encodings.flatten ∧
        List.Forall₂ MessageInput.IsReceived inputs
          (frames.map Prod.snd) := by
  induction encodes with
  | nil =>
      exact ⟨[], List.forall_mem_nil _, rfl, .nil⟩
  | @cons input encoded inputs encodings first rest inductionHypothesis =>
      obtain ⟨-, decoded, decodes, isReceived⟩ :=
        decodeMessage_encodeMessage first.1 first.2
      obtain ⟨frames, areFrames, stream, received⟩ := inductionHypothesis
      refine ⟨(encoded, decoded) :: frames, ?_, ?_, .cons isReceived received⟩
      · exact List.forall_mem_cons.mpr
          ⟨isFrame_of_decodeMessage decodes, areFrames⟩
      · rw [Framing.streamOf_cons, stream, List.flatten_cons]

/--
Messages and a part of one more, in whatever chunks: a fresh decoder never
throws, returns the messages in order and keeps the part; the rest of the last
message completes it.
-/
theorem pushAll_encoded
    {inputs : List MessageInput}
    {encodings : List Bytes}
    (encodes :
      List.Forall₂
        (fun input encoded =>
          encodeMessage input = .ok encoded ∧ input.Restores)
        inputs encodings)
    {next : MessageInput}
    {front back : Bytes}
    (nextEncodes : encodeMessage next = .ok (front ++ back))
    (nextRestores : next.Restores)
    (proper : back ≠ [])
    {chunks : List Bytes}
    (cut : chunks.flatten = encodings.flatten ++ front) :
    ∃ decoder messages,
      MessageStreamDecoder.pushAll {} chunks = (decoder, messages, none) ∧
        List.Forall₂ MessageInput.IsReceived inputs messages ∧
        decoder.bufferedBytes = front.length ∧
        ∃ completed last,
          decoder.push back = (completed, .ok [last]) ∧
            next.IsReceived last ∧
            completed.bufferedBytes = 0 := by
  obtain ⟨frames, areFrames, stream, received⟩ := frames_of_encodings encodes
  obtain ⟨-, last, lastDecodes, lastReceived⟩ :=
    decodeMessage_encodeMessage nextEncodes nextRestores
  have lastFrame := isFrame_of_decodeMessage lastDecodes
  have frontWaits :
      ∀ first rest, first ++ rest = front → messageFraming.Waits first := by
    rintro first rest rfl
    refine @Framing.waits_of_proper _ _ _ messageFraming first (rest ++ back)
      ?_ (by simp [proper])
    rw [← List.append_assoc]
    exact lastFrame.frameLength
  have receives :=
    Framing.receive_frames areFrames frontWaits
      (by rw [List.nil_append, cut, stream])
      (.inl messageFraming.positive : messageFraming.Waits [])
  obtain ⟨holds, rest, returns⟩ := MessageStreamDecoder.pushAll_fresh chunks
  rw [receives] at rest returns
  change _ = front at rest
  have waits := frontWaits front [] (List.append_nil front)
  rw [← rest] at waits
  obtain ⟨pushHolds, pushRest, pushReturns⟩ :=
    MessageStreamDecoder.push_spec holds waits back
  have empty : messageFraming.Waits [] := .inl messageFraming.positive
  have drains := Framing.drain_frame lastFrame []
  rw [List.append_nil, Framing.drain_of_waits empty] at drains
  rw [rest, drains] at pushRest pushReturns
  refine ⟨_, _, Prod.ext rfl returns, received, ?_, _, last,
    Prod.ext rfl pushReturns, lastReceived, ?_⟩
  · rw [MessageStreamDecoder.bufferedBytes,
      ← MessageStreamDecoder.length_pending holds, rest]
  · rw [MessageStreamDecoder.bufferedBytes,
      ← MessageStreamDecoder.length_pending pushHolds, pushRest]
    rfl

/-- A message that answers a request with `null`. -/
def nullResult (requestId : Int) : MessageInput :=
  { kind := .result
    requestId := requestId
    payload := [(utf16 "value", .null)] }

/-- The frame of such a message. -/
def nullFrame (requestId : UInt8) : Bytes :=
  [0x53, 0x4e, 0x54, 0x52, 0, 1, 4, 0, 0, 0, 0, requestId, 0, 0, 0, 15,
    11, 0, 0, 0, 1, 0, 0, 0, 5, 118, 97, 108, 117, 101, 0]

/-- The codec restores the payload of such a message. -/
theorem nullResult_restores
    (requestId : Int) :
    (nullResult requestId).Restores := by
  have encodes :
      encodeDocument [(utf16 "value", .null)] =
        .ok [11, 0, 0, 0, 1, 0, 0, 0, 5, 118, 97, 108, 117, 101, 0] := by
    decide +kernel
  refine ⟨_, [(utf16 "value", .null)], encodes, by decide +kernel, ?_⟩
  simp [nullResult, DocumentValue.SameValue, DocumentValue.SameFields]

/-- Two messages, cut inside the first header and inside the second one. -/
theorem pushAll_encoded_twice :
    ∃ decoder messages,
      MessageStreamDecoder.pushAll {}
          [(nullFrame 1).take 5, (nullFrame 1).drop 5 ++
            (nullFrame 2).take 9] =
        (decoder, messages, none) ∧
        List.Forall₂ MessageInput.IsReceived [nullResult 1] messages ∧
        decoder.bufferedBytes = 9 ∧
        ∃ completed last,
          decoder.push ((nullFrame 2).drop 9) = (completed, .ok [last]) ∧
            (nullResult 2).IsReceived last ∧
            completed.bufferedBytes = 0 :=
  @pushAll_encoded [nullResult 1] [nullFrame 1]
    (.cons ⟨by decide +kernel, nullResult_restores 1⟩ .nil)
    (nullResult 2) ((nullFrame 2).take 9) ((nullFrame 2).drop 9)
    (by decide +kernel) (nullResult_restores 2) (by decide) _ (by decide)

/--
Frames, a malformed frame and anything behind it, in whatever chunks: some push
throws, and the messages that were returned before are those of the frames
exactly if a chunk ends behind the last frame and before the end of the
malformed one, or nothing is in front of it.
-/
theorem pushAll_malformed_iff
    {frames : List (Bytes × DecodedMessage)}
    (decode : ∀ frame ∈ frames, decodeMessage frame.1 = .ok frame.2)
    {bad rest : Bytes}
    (malformed : MalformedFrame bad)
    {chunks : List Bytes}
    (cut :
      chunks.flatten = (frames.map Prod.fst).flatten ++ (bad ++ rest)) :
    (∃ error, (MessageStreamDecoder.pushAll {} chunks).2.2 = some error) ∧
      ((MessageStreamDecoder.pushAll {} chunks).2.1 = frames.map Prod.snd ↔
        ∃ before after,
          chunks = before ++ after ∧
            (frames.map Prod.fst).flatten.length ≤ before.flatten.length ∧
            before.flatten.length <
              (frames.map Prod.fst).flatten.length + bad.length) := by
  have areFrames : messageFraming.AreFrames frames := fun frame member =>
    isFrame_of_decodeMessage (decode frame member)
  have receives :=
    @Framing.receive_malformed _ _ _ messageFraming _ areFrames bad rest
      malformed.malformed [] chunks cut (.inl messageFraming.positive)
  obtain ⟨-, -, returns⟩ := MessageStreamDecoder.pushAll_fresh chunks
  rw [returns]
  simpa [Framing.CutAt, Framing.streamOf] using receives

/-- The decoded form of a message that answers with `null`. -/
def nullMessage (requestId : Nat) : DecodedMessage :=
  ⟨1, .result, 0, requestId, [(utf16 "value", .null)]⟩

/-- Sixteen zero bytes do not start with the signature. -/
theorem malformed_zeros : MalformedFrame (List.replicate 16 0) :=
  .header rfl
    ⟨⟨.invalidMagic,
      utf16 "Frame does not contain the SinterDB protocol signature."⟩,
      by decide +kernel⟩

/-- A frame in a chunk of its own is returned before the malformed one. -/
theorem pushAll_malformed_iff_apart :
    (∃ error,
        (MessageStreamDecoder.pushAll {}
          [nullFrame 1, List.replicate 16 0]).2.2 = some error) ∧
      (MessageStreamDecoder.pushAll {}
        [nullFrame 1, List.replicate 16 0]).2.1 = [nullMessage 1] := by
  obtain ⟨fails, iff⟩ :=
    @pushAll_malformed_iff [(nullFrame 1, nullMessage 1)]
      (by
        intro frame member
        obtain rfl := List.mem_singleton.mp member
        decide +kernel)
      (List.replicate 16 0) [] malformed_zeros
      [nullFrame 1, List.replicate 16 0] (by decide)
  exact ⟨fails, iff.mpr ⟨[nullFrame 1], [List.replicate 16 0], rfl,
    by decide, by decide⟩⟩

/-- A frame in the same chunk as a malformed one behind it is lost. -/
theorem pushAll_malformed_together :
    ∃ (frames : List (Bytes × DecodedMessage)) (bad rest : Bytes)
        (chunks : List Bytes),
      (∀ frame ∈ frames, decodeMessage frame.1 = .ok frame.2) ∧
        MalformedFrame bad ∧
        chunks.flatten = (frames.map Prod.fst).flatten ++ (bad ++ rest) ∧
        (MessageStreamDecoder.pushAll {} chunks).2.2.isSome = true ∧
        (MessageStreamDecoder.pushAll {} chunks).2.1 ≠
          frames.map Prod.snd := by
  refine ⟨[(nullFrame 1, nullMessage 1)], List.replicate 16 0, [],
    [nullFrame 1 ++ List.replicate 16 0], ?_, malformed_zeros, by decide,
    by decide +kernel, by decide +kernel⟩
  intro frame member
  obtain rfl := List.mem_singleton.mp member
  decide +kernel

end SinterDb
