/-
  The records of a segment and the scan of a file that holds their frames.

  A `WalRecord` is one that encodes. `scan_reaches` follows the scan over whole frames; `scan_whole`
  is the scan of a file that ends after the last of them, `scan_torn` that of a file that ends
  inside the frame of one more record.
-/
import CryptoIntelligence.Wal.Decomposition

namespace CryptoIntelligence.Wal

open Lib Lib.Crc32c ScanState Wal.Frame List

/-! ## Records and their frames -/

structure WalRecord where
  metadata : RecordMetadata
  payload : Bytes
  flagged : metadata.flags = supportedFlags
  bounded : payload.length ≤ maxPayloadLength
  deriving DecidableEq

variable [Crc32c]

namespace WalRecord

def header (record : WalRecord) : Bytes :=
  checksummed (headerBody record.metadata (UInt32.ofNat record.payload.length))

def frame (record : WalRecord) : Bytes :=
  checksummed (record.header ++ record.payload)

theorem encode_frame (record : WalRecord) :
    encode record.metadata record.payload = .ok record.frame :=
  encode_eq_ok.mpr ⟨record.flagged, record.bounded, rfl⟩

theorem frame_length (record : WalRecord) : record.frame.length = 64 + record.payload.length :=
  encode_length record.encode_frame

theorem decode_frame (record : WalRecord) (rest : Bytes) :
    decode (record.frame ++ rest) =
      .ok ⟨.v2, some record.metadata, record.payload, record.frame.length⟩ :=
  decode_encode record.encode_frame rest

/-- The magic stands in the frame only at its start. -/
def Unambiguous (record : WalRecord) : Prop :=
  ∀ offset, 0 < offset → slice record.frame offset 8 ≠ magic

instance (record : WalRecord) : Decidable record.Unambiguous :=
  decidable_of_iff (∀ offset < record.frame.length, 0 < offset →
      slice record.frame offset 8 ≠ magic) <| by
    refine ⟨fun h offset hpos => ?_, fun h offset _ => h offset⟩
    by_cases hoffset : offset < record.frame.length
    · exact h offset hoffset hpos
    · rw [slice, drop_eq_nil_of_le (Nat.not_lt.mp hoffset)]
      decide

end WalRecord

def framesOf (records : List WalRecord) : Bytes := records.flatMap WalRecord.frame

@[simp] theorem framesOf_nil : framesOf [] = [] := rfl

@[simp] theorem framesOf_cons (record : WalRecord) (records : List WalRecord) :
    framesOf (record :: records) = record.frame ++ framesOf records := rfl

theorem length_le_framesOf (records : List WalRecord) :
    records.length ≤ (framesOf records).length := by
  induction records with
  | nil => exact le_rfl
  | cons record records ih =>
    rw [framesOf_cons, length_append, record.frame_length, length_cons]
    omega

/-- The records as a scan from the offset visits them. -/
def visitedFrom : Nat → List WalRecord → List RecoveredRecord
  | _, [] => []
  | offset, record :: records =>
    ⟨some record.metadata, record.payload, offset, offset + record.frame.length⟩ ::
      visitedFrom (offset + record.frame.length) records

/-! ## The scan over whole frames -/

/-- The state of a scan after it visited these records. -/
def ScanState.visiting (s : ScanState) (records : List WalRecord) : ScanState where
  offset := s.offset + (framesOf records).length
  format := some .v2
  lastSequences := (records.map (·.metadata)).foldl Sequences.track s.lastSequences
  recordCount := s.recordCount + records.length
  visited := s.visited ++ visitedFrom s.offset records
  encoded := s.encoded ++ framesOf records

variable {s : ScanState} {file : Bytes} {segment : Option SegmentMetadata} {record : WalRecord}

theorem ScanState.visiting_nil (h : s.format = some .v2) : s.visiting [] = s := by
  cases s
  simp only at h
  simp [visiting, visitedFrom, h]

theorem ScanState.visiting_cons (s : ScanState) (record : WalRecord) (records : List WalRecord) :
    s.visiting (record :: records) = (s.visiting [record]).visiting records := by
  simp [visiting, visitedFrom, Nat.add_assoc, Nat.add_comm 1]

/-- One frame of an admissible record takes the scan one step on. -/
theorem scanStep_record {allowTailRepair : Bool} {rest : Bytes} (hformat : s.format = some .v2)
    (hfile : file.drop s.offset = record.frame ++ rest)
    (hadmissible : Admissible segment s.lastSequences record.metadata)
    (hlength : file.length < 2 ^ 64) (hcount : s.recordCount + 1 < 2 ^ 64) :
    scanStep file segment allowTailRepair s = .inl (s.visiting [record]) := by
  have hdrop : file.length - s.offset = record.frame.length + rest.length := by
    rw [← length_drop, hfile, length_append]
  have hframe := record.frame_length
  refine scanStep_eq_next.mpr ⟨by omega, readNext_eq_frame.mpr
    ⟨⟨.v2, some record.metadata, record.payload, record.frame.length⟩,
      s.lastSequences.track record.metadata, ?_, ?_, ?_, ?_, hcount, ?_⟩⟩
  · rw [hfile]
    exact record.decode_frame rest
  · rw [hformat]
    rintro _ ⟨⟩
    rfl
  · exact acceptRecord_eq_ok.mpr ⟨fun m hm => Option.some.inj hm ▸ hadmissible, rfl⟩
  · dsimp only
    omega
  · rw [slice, hfile, take_left' rfl]
    simp [visiting, visit, visitedFrom]

theorem scan_reaches (segment : Option SegmentMetadata) (allowTailRepair : Bool)
    (hlength : file.length < 2 ^ 64) (records : List WalRecord) :
    ∀ (s : ScanState) (seen : List RecordMetadata) (rest : Bytes), s.format = some .v2 →
      file.drop s.offset = framesOf records ++ rest → s.lastSequences = sequencesOf seen →
      Ordered segment (seen ++ records.map (·.metadata)) →
      s.recordCount + records.length < 2 ^ 64 →
      Reaches (scanStep file segment allowTailRepair) s (s.visiting records) := by
  induction records with
  | nil =>
    intro s seen rest hformat _ _ _ _
    rw [visiting_nil hformat]
    exact .refl
  | cons record records ih =>
    intro s seen rest hformat hfile hlast hordered hcount
    rw [map_cons, append_cons] at hordered
    rw [framesOf_cons, append_assoc] at hfile
    have hadmissible := (ordered_snoc.mp hordered.append_left).2
    have hstep : scanStep file segment allowTailRepair s = .inl (s.visiting [record]) :=
      scanStep_record hformat hfile (hlast ▸ hadmissible) hlength
        (by rw [length_cons] at hcount; omega)
    rw [visiting_cons]
    refine .head hstep (ih (s.visiting [record]) (seen ++ [record.metadata]) rest rfl ?_ ?_ hordered
      ?_)
    · rw [visiting, framesOf_cons, framesOf_nil, append_nil, ← drop_drop, hfile,
        drop_left' rfl]
    · rw [sequencesOf_snoc, ← hlast]
      rfl
    · rw [length_cons] at hcount
      simp only [visiting, length_singleton]
      omega

/-- The scan of a file that ends after its last frame. -/
theorem scan_whole {records : List WalRecord} (before : Bytes)
    (allowTailRepair : Bool) (hordered : Ordered segment (records.map (·.metadata)))
    (hlength : (before ++ framesOf records).length < 2 ^ 64) :
    scanLoop (before ++ framesOf records) segment allowTailRepair
        (.initial before.length (some .v2)) =
      ⟨visitedFrom before.length records, framesOf records, before ++ framesOf records,
        .ok ⟨some .v2, records.length, (before ++ framesOf records).length, 0⟩⟩ := by
  have hcount := length_le_framesOf records
  have hreaches := scan_reaches segment allowTailRepair hlength records
    (.initial before.length (some .v2)) [] [] rfl
    (by rw [initial, drop_left' rfl, append_nil]) rfl hordered
    (by rw [length_append] at hlength; simp only [initial]; omega)
  refine scanLoop_eq_of_reaches hreaches ?_
  have hend : (visiting (.initial before.length (some .v2)) records).offset =
      (before ++ framesOf records).length := by
    rw [visiting, length_append]
    rfl
  rw [scanStep, if_neg (by omega), hend]
  simp [visiting, initial]

/-! ## The scan of a torn frame -/

theorem frame_eq_header_append (record : WalRecord) :
    ∃ rest, record.frame = record.header ++ rest :=
  ⟨record.payload ++ u32be (crc32c (record.header ++ record.payload)), by
    rw [WalRecord.frame, checksummed, append_assoc]⟩

theorem header_eq_fixed_append (record : WalRecord) :
    ∃ rest, record.frame = fixedHeader .v2 ++ rest := by
  obtain ⟨rest, hrest⟩ := frame_eq_header_append record
  rw [hrest, WalRecord.header, checksummed, headerBody, fixedHeader]
  simp only [append_assoc]
  exact ⟨_, rfl⟩

/-- A proper beginning of a frame at the end of the file is an incomplete tail, unless its header is
whole and the search finds a frame inside it. -/
theorem readNext_torn {n : Nat} (hformat : s.format = some .v2)
    (hfile : file.drop s.offset = record.frame.take n) (hn : 0 < n) (hlt : n < record.frame.length)
    (hoverflow : s.offset + record.frame.length < 2 ^ 64) :
    readNext file segment s =
      if headerLength ≤ n ∧
          containsLaterValidFrame file (s.offset + 1) file.length = true then
        .error (.corruption s.offset .incompleteLegacyFrame)
      else .ok (.incompleteTail (some .v2)) := by
  have hslice (k : Nat) : slice file s.offset k = (record.frame.take n).take k := by
    rw [slice, hfile]
  have hremaining : file.length - s.offset = n := by
    rw [← length_drop, hfile, length_take]
    omega
  obtain ⟨tail, htail⟩ := header_eq_fixed_append record
  have hfixed : (fixedHeader .v2).length = 10 := rfl
  rw [readNext, hremaining]
  dsimp only
  by_cases hshort : n < prefixLength
  · have hprefixed : validCommonPrefix (slice file s.offset n) s.format = true := by
      rw [hslice, take_take, Nat.min_self, hformat, validCommonPrefix, length_take_of_le
        hlt.le, htail, take_append_of_le_length (by rw [hfixed]; exact hshort.le)]
      exact beq_self_eq_true _
    rw [if_pos hshort, hprefixed, reject_neg (by simp), ok_bind, hformat,
      if_neg fun h => absurd (hshort.trans_le' h.1) (by decide)]
    rfl
  · have hlong : prefixLength ≤ n := Nat.not_lt.mp hshort
    have hstart : slice file s.offset prefixLength = fixedHeader .v2 := by
      rw [hslice, take_take, Nat.min_eq_left hlong, htail]
      exact take_left' hfixed
    have hmagic : (fixedHeader .v2).take magic.length = magic := by decide
    have hversion : WalFormat.ofVersion? (readU16 (fixedHeader .v2) magic.length) =
        some .v2 := by decide
    rw [if_neg hshort, hstart, hmagic, reject_neg (not_not.mpr rfl), ok_bind, hversion,
      required_some, ok_bind, hformat, reject_neg (by decide), ok_bind]
    obtain ⟨rest, hrest⟩ := frame_eq_header_append record
    by_cases hheader : n < WalFormat.v2.headerLength
    · have hpartial : isRepairablePartialHeader (slice file s.offset n) .v2 = true := by
        rw [hslice, take_take, Nat.min_self, hrest]
        exact isValidPartialHeaderPrefix_take record.flagged _ rest hn hheader
      rw [if_pos hheader, hpartial, reject_neg (by simp), ok_bind,
        if_neg fun h => Nat.not_le.mpr hheader h.1]
      rfl
    · have hwhole : WalFormat.v2.headerLength ≤ n := Nat.not_lt.mp hheader
      have hdeclared : declaredPayloadLength .v2
          (slice file s.offset WalFormat.v2.headerLength) = .ok record.payload.length := by
        rw [hslice, take_take, Nat.min_eq_left hwhole, declaredPayloadLength_take le_rfl,
          declaredPayloadLength, decodeV2Header_of_holdsAt record.encode_frame
            (holdsAt_zero.mpr ⟨[], (append_nil _).symm⟩)]
        rfl
      have hend := (encode_declared record.encode_frame).symm
      rw [if_neg hheader, mapError_eq_ok.mpr hdeclared, ok_bind, hend,
        reject_neg (Nat.not_le.mpr hoverflow), ok_bind, if_pos (by omega)]
      by_cases hsearch : containsLaterValidFrame file (s.offset + 1) file.length = true
      · rw [reject_pos (by simp [hsearch]), if_pos ⟨hwhole, hsearch⟩]
        rfl
      · rw [reject_neg (by simp [hsearch]), if_neg fun h => hsearch h.2]
        rfl

/-- The scan of a file that ends inside a frame. -/
theorem scan_torn {records : List WalRecord} (before : Bytes) {n : Nat} (allowTailRepair : Bool)
    (hordered : Ordered segment (records.map (·.metadata))) (hn : 0 < n)
    (hlt : n < record.frame.length)
    (hlength : (before ++ framesOf records ++ record.frame).length < 2 ^ 64) :
    scanLoop (before ++ framesOf records ++ record.frame.take n) segment allowTailRepair
        (.initial before.length (some .v2)) =
      if headerLength ≤ n ∧ containsLaterValidFrame
          (before ++ framesOf records ++ record.frame.take n)
          ((before ++ framesOf records).length + 1)
          (before ++ framesOf records ++ record.frame.take n).length = true then
        ⟨visitedFrom before.length records, framesOf records,
          before ++ framesOf records ++ record.frame.take n,
          .error (.corruption (before ++ framesOf records).length .incompleteLegacyFrame)⟩
      else handleIncompleteTail (before ++ framesOf records ++ record.frame.take n) allowTailRepair
        (visiting (.initial before.length (some .v2)) records) (some .v2) := by
  have hcount := length_le_framesOf records
  have hshorter : (before ++ framesOf records ++ record.frame.take n).length < 2 ^ 64 := by
    rw [length_append, length_take] at *
    omega
  have hreaches := scan_reaches segment allowTailRepair hshorter records
    (.initial before.length (some .v2)) [] (record.frame.take n) rfl
    (by rw [initial, append_assoc, drop_left' rfl]) rfl hordered
    (by simp only [length_append] at hlength; simp only [initial]; omega)
  have hoffset : (visiting (.initial before.length (some .v2)) records).offset =
      (before ++ framesOf records).length := by
    rw [visiting, length_append]
    rfl
  have hread := @readNext_torn _ (visiting (.initial before.length (some .v2)) records)
    (before ++ framesOf records ++ record.frame.take n) segment record n rfl
    (by rw [hoffset, drop_left' rfl]) hn hlt
    (by rw [hoffset, ← length_append]; exact hlength)
  have hmore : (visiting (.initial before.length (some .v2)) records).offset <
      (before ++ framesOf records ++ record.frame.take n).length := by
    rw [hoffset]
    simp only [length_append, length_take]
    omega
  refine scanLoop_eq_of_reaches hreaches ?_
  rw [hoffset] at hread
  rw [scanStep, if_pos hmore, hread]
  split_ifs with hsearch
  · simp [visiting, initial]
  · rfl

/-- A torn frame that holds the magic only at its start is not taken for two. -/
theorem search_in_torn (before : Bytes) (n : Nat) (hunambiguous : record.Unambiguous) :
    containsLaterValidFrame (before ++ record.frame.take n) (before.length + 1)
      (before ++ record.frame.take n).length = false := by
  by_contra hfound
  obtain ⟨offset, hstart, hend, hmagic⟩ := search_finds_magic le_rfl (Bool.not_eq_false _ ▸ hfound)
  rw [length_append, length_take] at hend
  rw [slice_append_right (by omega), slice_take (by omega)] at hmagic
  exact hunambiguous _ (by omega) hmagic

end CryptoIntelligence.Wal
