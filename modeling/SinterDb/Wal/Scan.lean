import SinterDb.Wal.WriteAheadLog

namespace SinterDb.Wal

open Buffer Crc32

/-!
# Scanning any file

What a scan finds in a file with arbitrary contents: it passes records with
consecutive numbers, stops at an offset inside the file, and finds the same
records again when the file is cut off there.
-/

/-- The bytes at an offset of a file are a record that ends at another one. -/
structure RecordAt
    (bytes : Bytes)
    (offset lsn type : Nat)
    (payload : Bytes)
    (endOffset : Nat) : Prop where
  header : offset + recordHeaderSize ≤ bytes.length
  nonzero : isZeroFilled (bytes.drop offset) = false
  checksum :
    readUIntBE (bytes.drop offset) 0 4 =
      crc32 (subarray (bytes.drop offset) 4 17)
  isLsn : readUIntBE (bytes.drop offset) 8 8 = lsn
  isType : readUIntBE (bytes.drop offset) 16 1 = type
  small : readUIntBE (bytes.drop offset) 4 4 ≤ maxRecordPayloadSize
  ends :
    endOffset =
      offset + recordHeaderSize + readUIntBE (bytes.drop offset) 4 4
  inside : endOffset ≤ bytes.length
  isPayload :
    subarray (bytes.drop offset) recordHeaderSize
        (recordHeaderSize + readUIntBE (bytes.drop offset) 4 4) =
      payload
  payloadChecksum : readUIntBE (bytes.drop offset) 17 4 = crc32 payload

/-- A scan passes a record when there is one with the expected number. -/
theorem scanRecord_eq_record
    {bytes : Bytes}
    {offset expected lsn type endOffset : Nat}
    {payload : Bytes} :
    scanRecord bytes offset expected =
        .record lsn type payload endOffset ↔
      lsn = expected ∧ RecordAt bytes offset lsn type payload endOffset := by
  have headerSize : recordHeaderSize = 21 := rfl
  constructor
  · intro scans
    unfold scanRecord at scans
    simp only at scans
    split_ifs at scans with atEnd short zeros badHeader wrong large torn last
      badPayload
    obtain ⟨isLsn, isType, isPayload, isEnd⟩ :=
      RecordScanResult.record.inj scans
    refine ⟨?_, by omega, by simpa using zeros, not_not.mp badHeader, isLsn,
      isType, by omega, isEnd.symm, by omega, isPayload, ?_⟩
    · rw [← isLsn]
      exact not_not.mp wrong
    · rw [← isPayload]
      exact not_not.mp last
  · rintro ⟨rfl, record⟩
    have header := record.header
    have inside := record.inside
    have ends := record.ends
    unfold scanRecord
    simp only
    rw [if_neg (by omega), if_neg (by omega),
      if_neg (by simp [record.nonzero]), if_neg (not_not.mpr record.checksum),
      if_neg (not_not.mpr record.isLsn), if_neg (by have := record.small; omega),
      if_neg (by omega), record.isPayload,
      if_neg (not_not.mpr record.payloadChecksum), record.isLsn,
      record.isType, ← ends]

/-- What is left of a file behind an offset that a cut does not reach. -/
theorem drop_eq_take_append
    (bytes : Bytes)
    {offset cut : Nat}
    (before : offset ≤ cut)
    (inside : cut ≤ bytes.length) :
    bytes.drop offset = (bytes.take cut).drop offset ++ bytes.drop cut := by
  conv_lhs => rw [← List.take_append_drop cut bytes]
  rw [List.drop_append_of_le_length (by rw [List.length_take]; omega)]

/-- Zero bytes are not the header of a record. -/
theorem nonzero_of_checksum
    {buffer : Bytes}
    (header : recordHeaderSize ≤ buffer.length)
    (checksum :
      readUIntBE buffer 0 4 = crc32 (subarray buffer 4 17)) :
    isZeroFilled buffer = false := by
  have headerSize : recordHeaderSize = 21 := rfl
  by_contra zeros
  have allZero : ∀ byte ∈ buffer, byte = 0 := by
    simpa [isZeroFilled] using zeros
  have parts :
      ∀ start stop,
        stop ≤ buffer.length →
          subarray buffer start stop = List.replicate (stop - start) 0 := by
    intro start stop inside
    refine List.eq_replicate_iff.mpr ⟨?_, ?_⟩
    · unfold subarray
      rw [List.length_take, List.length_drop]
      omega
    · intro byte member
      exact allZero byte (List.mem_of_mem_drop (List.mem_of_mem_take member))
  unfold readUIntBE at checksum
  rw [parts _ _ (by omega), parts _ _ (by omega)] at checksum
  revert checksum
  decide +kernel

/-- A record is found again in a file that is cut off behind it. -/
theorem RecordAt.take
    {bytes : Bytes}
    {offset lsn type endOffset cut : Nat}
    {payload : Bytes}
    (record : RecordAt bytes offset lsn type payload endOffset)
    (behind : endOffset ≤ cut)
    (inside : cut ≤ bytes.length) :
    RecordAt (bytes.take cut) offset lsn type payload endOffset := by
  have headerSize : recordHeaderSize = 21 := rfl
  obtain ⟨header, nonzero, checksum, isLsn, isType, small, ends, -, isPayload,
    payloadChecksum⟩ := record
  have size : (bytes.take cut).length = cut := by
    rw [List.length_take]
    omega
  have left : ((bytes.take cut).drop offset).length = cut - offset := by
    rw [List.length_drop, size]
  have splits := drop_eq_take_append bytes (show offset ≤ cut by omega) inside
  rw [splits] at checksum isLsn isType small ends isPayload payloadChecksum
  rw [readUIntBE_append _ _ (by omega)] at isLsn isType small ends
  rw [readUIntBE_append _ _ (by omega)] at payloadChecksum
  rw [readUIntBE_append _ _ (by omega),
    subarray_append _ _ (by omega)] at checksum
  rw [readUIntBE_append _ _ (by omega),
    subarray_append _ _ (by omega)] at isPayload
  exact ⟨by omega, nonzero_of_checksum (by omega) checksum, checksum, isLsn,
    isType, small, ends, by omega, isPayload, payloadChecksum⟩

/-- What a scan of some rounds from an offset finds. -/
structure Scanned
    (bytes : Bytes)
    (offset expected : Nat)
    (scan : SegmentScan) : Prop where
  least : offset ≤ scan.offset
  inside : scan.offset ≤ bytes.length
  counted : scan.expected = expected + scan.records.length
  numbered :
    scan.records.map WalRecord.lsn =
      List.range' expected scan.records.length

/-- A scan stops inside the file and counts the records that it passed. -/
theorem scanned_scanSegment
    {bytes : Bytes}
    {offset : Nat}
    (inside : offset ≤ bytes.length)
    (rounds expected : Nat) :
    Scanned bytes offset expected
      (scanSegment rounds bytes offset expected) := by
  induction rounds generalizing offset expected with
  | zero =>
      exact ⟨le_rfl, inside, rfl, rfl⟩
  | succ rounds inductionHypothesis =>
      unfold scanSegment
      cases scans : scanRecord bytes offset expected with
      | record lsn type payload endOffset =>
          obtain ⟨rfl, record⟩ := scanRecord_eq_record.mp scans
          have later := inductionHypothesis record.inside (lsn + 1)
          have ends := record.ends
          refine ⟨?_, later.inside, ?_, ?_⟩
          · have least := later.least
            simp only
            omega
          · simp only [List.length_cons, later.counted]
            omega
          · simp only [List.map_cons, List.length_cons, List.range'_succ,
              later.numbered]
      | _ =>
          exact ⟨le_rfl, inside, rfl, rfl⟩

/-- A scan that starts at the end of a file finds nothing. -/
theorem scanSegment_cut
    {bytes : Bytes}
    {offset : Nat}
    (inside : offset ≤ bytes.length)
    (rounds expected : Nat) :
    scanSegment rounds (bytes.take offset) offset expected =
      ⟨[], offset, expected, .atEnd⟩ := by
  have size : (bytes.take offset).length = offset := by
    rw [List.length_take]
    omega
  have atEnd := scanRecord_atEnd (bytes.take offset) expected
  rw [size] at atEnd
  cases rounds with
  | zero =>
      rfl
  | succ rounds =>
      rw [scanSegment, atEnd]

/-- A scan passes a record and goes on behind it. -/
theorem scanSegment_record
    {bytes : Bytes}
    {offset expected lsn type endOffset : Nat}
    {payload : Bytes}
    (scans :
      scanRecord bytes offset expected = .record lsn type payload endOffset)
    (rounds : Nat) :
    scanSegment (rounds + 1) bytes offset expected =
      { scanSegment rounds bytes endOffset (lsn + 1) with
        records :=
          ⟨lsn, type, payload⟩ ::
            (scanSegment rounds bytes endOffset (lsn + 1)).records } := by
  rw [scanSegment, scans]

/-- The records of a scan are found again in the file cut off behind them. -/
theorem scanSegment_take
    {bytes : Bytes}
    {rounds offset expected : Nat}
    (inside : offset ≤ bytes.length)
    {again : Nat}
    (enough :
      (scanSegment rounds bytes offset expected).offset - offset ≤ again) :
    scanSegment again
        (bytes.take (scanSegment rounds bytes offset expected).offset)
        offset expected =
      { scanSegment rounds bytes offset expected with stop := .atEnd } := by
  have headerSize : recordHeaderSize = 21 := rfl
  induction rounds generalizing offset expected again with
  | zero =>
      exact scanSegment_cut inside again expected
  | succ rounds inductionHypothesis =>
      cases scans : scanRecord bytes offset expected with
      | record lsn type payload endOffset =>
          obtain ⟨rfl, record⟩ := scanRecord_eq_record.mp scans
          have ends := record.ends
          have later := scanned_scanSegment record.inside rounds (lsn + 1)
          have least := later.least
          rw [scanSegment_record scans] at enough ⊢
          obtain ⟨fewer, rfl⟩ : ∃ fewer, again = fewer + 1 :=
            ⟨again - 1, by simp only at enough; omega⟩
          have found :=
            scanRecord_eq_record.mpr
              ⟨rfl, record.take later.least later.inside⟩
          have rest :=
            @inductionHypothesis endOffset (lsn + 1) record.inside fewer
              (by simp only at enough; omega)
          simp only at rest ⊢
          rw [scanSegment_record found, rest]
      | _ =>
          rw [scanSegment, scans]
          exact scanSegment_cut inside again expected

/-- The records of a segment are found again when it is cut off behind
them. -/
theorem scanRecords_take
    {bytes : Bytes}
    (header : segmentHeaderSize ≤ bytes.length)
    (firstLsn : Nat) :
    scanRecords (bytes.take (scanRecords bytes firstLsn).offset) firstLsn =
      { scanRecords bytes firstLsn with stop := .atEnd } := by
  have scanned := scanned_scanSegment header bytes.length firstLsn
  have size :
      (bytes.take (scanRecords bytes firstLsn).offset).length =
        (scanRecords bytes firstLsn).offset := by
    rw [List.length_take]
    exact Nat.min_eq_left scanned.inside
  unfold scanRecords at size ⊢
  rw [size]
  exact scanSegment_take header (Nat.sub_le _ _)

end SinterDb.Wal
