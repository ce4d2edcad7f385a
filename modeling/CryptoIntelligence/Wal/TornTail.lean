/-
  Recovery of a segment file that was cut anywhere after its prologue.

  Cutting a file of frames leaves the whole ones before the cut and a proper beginning of the next
  (`take_framesOf`). Recovery keeps exactly the whole ones or refuses and changes nothing
  (`torn_tail_repaired`); it cannot refuse when the magic stands only where frames start. A payload
  free of the magic is not enough: the fields of a header can spell a frame
  (`header_spells_a_frame`).
-/
import CryptoIntelligence.Wal.Segment

namespace CryptoIntelligence.Wal

open Lib Prologue List

/-! ## Cutting a file of frames -/

section Recovery

variable [Crc32c]

/-- The records whose whole frame lies in the first `length` bytes. -/
def wholeRecords : List WalRecord → Nat → List WalRecord
  | [], _ => []
  | record :: records, length =>
    if record.frame.length ≤ length then
      record :: wholeRecords records (length - record.frame.length)
    else []

/-- The beginning of a frame that is not all of it. -/
def TornFrame (records : List WalRecord) (tail : Bytes) : Prop :=
  ∃ record ∈ records, ∃ n, 0 < n ∧ n < record.frame.length ∧ tail = record.frame.take n

theorem wholeRecords_isPrefix (records : List WalRecord) (length : Nat) :
    wholeRecords records length <+: records := by
  induction records generalizing length with
  | nil => exact prefix_rfl
  | cons record records ih =>
    rw [wholeRecords]
    split_ifs
    · exact cons_prefix_cons.mpr ⟨rfl, ih _⟩
    · exact nil_prefix

theorem take_framesOf (records : List WalRecord) (length : Nat) :
    ∃ tail, (framesOf records).take length = framesOf (wholeRecords records length) ++ tail ∧
      (tail = [] ∨ TornFrame records tail) := by
  induction records generalizing length with
  | nil => exact ⟨[], by simp [wholeRecords], .inl rfl⟩
  | cons record records ih =>
    rw [wholeRecords, framesOf_cons]
    split_ifs with hwhole
    · obtain ⟨tail, htake, htail⟩ := ih (length - record.frame.length)
      refine ⟨tail, ?_, htail.imp id ?_⟩
      · rw [take_append, take_of_length_le hwhole, htake, framesOf_cons, append_assoc]
      · rintro ⟨torn, hmem, hrest⟩
        exact ⟨torn, mem_cons_of_mem _ hmem, hrest⟩
    · refine ⟨record.frame.take length, ?_, ?_⟩
      · rw [take_append_of_le_length (Nat.not_le.mp hwhole).le, framesOf_nil, nil_append]
      · rcases Nat.eq_zero_or_pos length with rfl | hpos
        · exact .inl take_zero
        · exact .inr ⟨record, mem_cons_self, length, hpos, Nat.not_le.mp hwhole, rfl⟩

/-! ## The scan of a segment file -/

def segmentFile (metadata : SegmentMetadata) (records : List WalRecord) : Bytes :=
  encode metadata ++ framesOf records

theorem segmentFile_length (metadata : SegmentMetadata) (records : List WalRecord) :
    (segmentFile metadata records).length = metadata.headerLength + (framesOf records).length := by
  rw [segmentFile, length_append, encode_length]

variable {metadata : SegmentMetadata}

/-- The checks before the scan pass for a segment file within the limits. -/
theorem scanWithFrom_eq_scanLoop {file : Bytes}
    (segment : Option SegmentMetadata) (allowTailRepair : Bool)
    (hstart : metadata.headerLength ≤ file.length)
    (hsize : file.length ≤ maxRecoverableSegmentLength + metadata.headerLength) :
    scanWithFrom file (UInt64.ofNat metadata.headerLength) (some .v2) segment allowTailRepair =
      scanLoop file segment allowTailRepair (.initial metadata.headerLength (some .v2)) := by
  have hheader := (headerLength_bounds metadata).2
  have hcapacity : ¬ 2 ^ 64 ≤ maxRecoverableSegmentLength + metadata.headerLength := by
    have : maxRecoverableSegmentLength + maxHeaderLength < 2 ^ 64 := by decide
    omega
  unfold scanWithFrom
  dsimp only
  rw [Segment.toNat_recordStart, if_neg hcapacity, if_neg (Nat.not_lt.mpr hsize),
    if_neg (Nat.not_lt.mpr hstart)]

theorem frame_length_le (record : WalRecord) :
    record.frame.length ≤ 64 + Frame.maxPayloadLength := by
  have := record.bounded
  rw [record.frame_length]
  omega

/-- What is left of a recovery that keeps these records. -/
def repairedOutcome (file : Bytes) (metadata : SegmentMetadata) (kept : List WalRecord) :
    ScanOutcome :=
  ⟨visitedFrom metadata.headerLength kept, framesOf kept, segmentFile metadata kept,
    .ok ⟨some .v2, kept.length, (segmentFile metadata kept).length,
      file.length - (segmentFile metadata kept).length⟩⟩

/-- The recovery of whole frames followed by nothing or by a torn one. -/
theorem recover_frames {kept records : List WalRecord} {tail : Bytes}
    (hordered : Ordered (some metadata) (kept.map (·.metadata)))
    (htail : tail = [] ∨ TornFrame records tail)
    (hsize : (framesOf kept ++ tail).length ≤ maxRecoverableSegmentLength) :
    let file := segmentFile metadata kept ++ tail
    let outcome := recoverWithFrom file (UInt64.ofNat metadata.headerLength) (some .v2)
      (some metadata)
    (outcome = repairedOutcome file metadata kept ∨
        (∃ error, outcome.result = .error error) ∧ outcome.file = file) ∧
      ((∀ record ∈ records, record.Unambiguous) →
        outcome = repairedOutcome file metadata kept) := by
  intro file outcome
  have hstart : (encode metadata).length = metadata.headerLength :=
    encode_length metadata
  have hlength : file.length = metadata.headerLength + (framesOf kept ++ tail).length := by
    rw [length_append, length_append, segmentFile_length, Nat.add_assoc]
  have hheader := (headerLength_bounds metadata).2
  have hbound : maxRecoverableSegmentLength + maxHeaderLength + 64 +
      Frame.maxPayloadLength < 2 ^ 64 := by decide
  have hscan : outcome =
      scanLoop file (some metadata) true (.initial (encode metadata).length (some .v2)) := by
    rw [hstart]
    exact scanWithFrom_eq_scanLoop (some metadata) true (by omega) (by omega)
  rcases htail with rfl | ⟨record, hmem, n, hn, hlt, rfl⟩
  · have hfile : file = encode metadata ++ framesOf kept := append_nil _
    have hwhole := scan_whole (encode metadata) true hordered
      (by rw [← hfile]; simp only [append_nil] at hlength hsize; omega)
    have hrepaired : outcome = repairedOutcome file metadata kept := by
      rw [hscan, hfile, hwhole, repairedOutcome, segmentFile, Nat.sub_self, hstart]
    exact ⟨.inl hrepaired, fun _ => hrepaired⟩
  · have hframe := frame_length_le record
    have htorn := scan_torn (encode metadata) true hordered hn hlt
      (by simp only [length_append, hstart] at hsize ⊢; omega)
    have hkept : (ScanState.visiting (.initial (encode metadata).length (some .v2))
        kept).offset = (segmentFile metadata kept).length := by
      rw [segmentFile, length_append]
      rfl
    have hrepair : handleIncompleteTail file true
        (ScanState.visiting (.initial (encode metadata).length (some .v2)) kept)
        (some .v2) = repairedOutcome file metadata kept := by
      rw [handleIncompleteTail, if_pos rfl, hkept, repairedOutcome, take_left' rfl]
      simp [ScanState.visiting, ScanState.initial]
    have hfile : file = encode metadata ++ framesOf kept ++ record.frame.take n := rfl
    rw [← hfile, hrepair, ← hscan] at htorn
    refine ⟨?_, ?_⟩
    · rw [htorn]
      split_ifs
      · exact .inr ⟨⟨_, rfl⟩, rfl⟩
      · exact .inl rfl
    · intro hunambiguous
      have hsearch := search_in_torn (encode metadata ++ framesOf kept) n
        (hunambiguous record hmem)
      rw [htorn, if_neg]
      rw [hfile, hsearch]
      simp

/-! ## Recovery of a cut file -/

/-- A handle that has the prologue, or will read it when it recovers. -/
def Opens (segment : Segment) (file : Bytes) (metadata : SegmentMetadata) : Prop :=
  ∃ v2Sequences poisoned, segment.ensurePrologueLoadedIfPresent file =
    .ok (.loaded metadata v2Sequences poisoned)

theorem Opens.recoverWith {segment : Segment} {file : Bytes} (h : Opens segment file metadata) :
    (segment.recoverWith file).2 =
        recoverWithFrom file (UInt64.ofNat metadata.headerLength) (some .v2) (some metadata) ∧
      ∃ v2Sequences poisoned, (segment.recoverWith file).1 =
        .loaded metadata v2Sequences poisoned := by
  obtain ⟨v2Sequences, poisoned, hload⟩ := h
  rw [Segment.recoverWith, hload]
  dsimp only [Segment.loaded]
  rw [if_pos Option.isSome_some]
  split
  · exact ⟨rfl, v2Sequences, poisoned, rfl⟩
  · exact ⟨rfl, _, poisoned, rfl⟩

theorem opens_of_handle {segment : Segment} {rest : Bytes} (h : segment = .fromFile ∨
      Segment.openV2File (encode metadata ++ rest) = .ok segment) :
    Opens segment (encode metadata ++ rest) metadata := by
  rcases h with rfl | h
  · exact ⟨none, false, Segment.ensurePrologue_fromFile metadata rest⟩
  · rw [Segment.openV2File_encode] at h
    obtain rfl := Except.ok.inj h
    exact ⟨none, false, rfl⟩

/-- Recovery keeps exactly these records and cuts the file after the last of them. -/
def Repairs (segment : Segment) (file : Bytes) (metadata : SegmentMetadata)
    (kept : List WalRecord) : Prop :=
  (segment.recoverWith file).2 = repairedOutcome file metadata kept

/-- Recovery fails and leaves the file alone. -/
def Refuses (segment : Segment) (file : Bytes) : Prop :=
  (∃ error, (segment.recoverWith file).2.result = .error error) ∧
    (segment.recoverWith file).2.file = file

/-- A segment file cut anywhere after its prologue is repaired to the whole frames before the cut,
or recovery refuses and changes nothing; it is repaired whenever no frame holds the magic after its
start. Recovering the repaired file again, with the same handle or a new one, keeps the same
records and cuts nothing. -/
theorem torn_tail_repaired {metadata : SegmentMetadata} {records : List WalRecord}
    (hordered : Ordered (some metadata) (records.map (·.metadata)))
    (hsize : (framesOf records).length ≤ maxRecoverableSegmentLength) {cut : Nat}
    (hcut : metadata.headerLength ≤ cut) {segment : Segment}
    (hsegment : segment = .fromFile ∨
      Segment.openV2File ((segmentFile metadata records).take cut) = .ok segment) :
    let file := (segmentFile metadata records).take cut
    let kept := wholeRecords records (cut - metadata.headerLength)
    (Repairs segment file metadata kept ∨ Refuses segment file) ∧
      ((∀ record ∈ records, record.Unambiguous) → Repairs segment file metadata kept) ∧
      Repairs (segment.recoverWith file).1 (segmentFile metadata kept) metadata kept ∧
      Repairs .fromFile (segmentFile metadata kept) metadata kept := by
  intro file kept
  obtain ⟨tail, htake, htail⟩ := take_framesOf records (cut - metadata.headerLength)
  have hkept : kept <+: records := wholeRecords_isPrefix _ _
  have hkeptOrdered : Ordered (some metadata) (kept.map (·.metadata)) := by
    obtain ⟨dropped, hdropped⟩ := hkept
    rw [← hdropped, map_append] at hordered
    exact hordered.append_left
  have hstart : (encode metadata).length = metadata.headerLength :=
    encode_length metadata
  have hfile : file = segmentFile metadata kept ++ tail := by
    rw [segmentFile, append_assoc, ← htake, ← hstart]
    change (encode metadata ++ framesOf records).take cut = _
    rw [take_append, take_of_length_le (hstart.le.trans hcut)]
  have hshorter : (framesOf kept ++ tail).length ≤ maxRecoverableSegmentLength := by
    rw [← htake, length_take]
    omega
  have hagain := (@recover_frames _ metadata kept [] [] hkeptOrdered (.inl rfl)
    (by rw [length_append] at hshorter; rw [append_nil]; omega)).2 (by simp)
  rw [append_nil] at hagain
  have hopens : Opens segment file metadata := by
    rw [hfile, segmentFile, append_assoc]
    refine opens_of_handle (hsegment.imp id fun h => ?_)
    rw [← append_assoc, ← segmentFile, ← hfile]
    exact h
  obtain ⟨houtcome, hnext⟩ := hopens.recoverWith
  have hscan := recover_frames hkeptOrdered htail hshorter
  dsimp only at hscan
  rw [← hfile, ← houtcome] at hscan
  refine ⟨hscan.1, hscan.2, ?_, ?_⟩
  · obtain ⟨v2Sequences, poisoned, hloaded⟩ := hnext
    have hreopens : Opens (segment.recoverWith file).1 (segmentFile metadata kept) metadata :=
      ⟨v2Sequences, poisoned, by rw [hloaded]; rfl⟩
    exact hreopens.recoverWith.1.trans hagain
  · exact (opens_of_handle (.inl rfl)).recoverWith.1.trans hagain

end Recovery

open Castagnoli

/-- A record of the sample's stream with a payload of one byte. -/
def sampleRecord (connectionEpoch recordSequence : UInt64) : WalRecord where
  metadata := ⟨Frame.supportedFlags, 7, connectionEpoch, recordSequence, 0, 0⟩
  payload := [5]
  flagged := rfl
  bounded := by decide

/-- The second of two records is torn in its payload, and recovery keeps the first. -/
theorem torn_tail_repaired_sample :
    Repairs .fromFile ((segmentFile sampleMetadata [sampleRecord 1 1, sampleRecord 1 2]).take
      (sampleMetadata.headerLength + 126)) sampleMetadata [sampleRecord 1 1] := by
  have hordered : Ordered (some sampleMetadata)
      ([sampleRecord 1 1, sampleRecord 1 2].map (·.metadata)) := by
    decide +kernel
  have hrepaired := (torn_tail_repaired hordered (by decide +kernel)
    (Nat.le_add_right sampleMetadata.headerLength 126) (.inl rfl)).2.1 (by decide +kernel)
  rwa [show wholeRecords [sampleRecord 1 1, sampleRecord 1 2]
    (sampleMetadata.headerLength + 126 - sampleMetadata.headerLength) = [sampleRecord 1 1] by
      decide +kernel] at hrepaired

/-- Epoch and sequence of a record that spell an empty legacy frame inside the header. The payload
is free of the magic, yet the file cut in the payload is refused. -/
theorem header_spells_a_frame :
    let record := sampleRecord 0x434d544957414c31 0x0001000000000000
    let file := (segmentFile sampleMetadata [record]).take (sampleMetadata.headerLength + 61)
    Ordered (some sampleMetadata) [record.metadata] ∧
      (framesOf [record]).length ≤ maxRecoverableSegmentLength ∧
      ¬ Frame.magic <:+: record.payload ∧
      Refuses .fromFile file ∧ ¬ Repairs .fromFile file sampleMetadata [] := by
  intro record file
  have hresult : (Segment.fromFile.recoverWith file).2.result =
      .error (.corruption sampleMetadata.headerLength .incompleteLegacyFrame) := by
    decide +kernel
  refine ⟨by decide +kernel, by decide +kernel, by decide, ⟨⟨_, hresult⟩, by decide +kernel⟩, ?_⟩
  intro hrepairs
  rw [hrepairs] at hresult
  nomatch hresult

end CryptoIntelligence.Wal
