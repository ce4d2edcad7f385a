/-
  The scan of a segment file whose calls may fail (`raw-wal/src/recovery.rs`).

  `Scan` takes every call on the file to succeed. Here a run is given which of its calls fail: the
  length of the file, a read, the truncation, the seek to the end, the sync. The first failure ends
  the scan with its error. Up to that failure the scan is the one of `Scan`
  (`FileCalls.scanWithFrom_cases`), and only the failures behind the truncation find the file
  changed: `repair_tail` has cut the tail off by then, so what they leave is the prefix that a
  successful recovery would have left (`scan_fail_closed`).
-/
import CryptoIntelligence.Wal.Decomposition

namespace CryptoIntelligence.Wal

open Lib

/-! ## Calls that fail -/

/-- Which calls of a scan succeed. `read offset` is the error that ends the scan at the frame which
starts at the offset: that of the first read or allocation there to fail, the search for a later
frame included. -/
structure FileCalls where
  metadata : Bool
  read : Nat → Option RecoveryError
  setLen : Bool
  seekEnd : Bool
  syncAll : Bool

namespace FileCalls

/-- No call fails. -/
def succeeding : FileCalls := ⟨true, fun _ => none, true, true, true⟩

variable (calls : FileCalls)

def repairTail (file : Bytes) (s : ScanState) (format : Option WalFormat) : ScanOutcome :=
  if calls.setLen = false then ⟨s.visited, s.encoded, file, .error .io⟩
  else if calls.seekEnd = false ∨ calls.syncAll = false then
    ⟨s.visited, s.encoded, file.take s.offset, .error .io⟩
  else
    ⟨s.visited, s.encoded, file.take s.offset,
      .ok ⟨format, s.recordCount, s.offset, file.length - s.offset⟩⟩

def handleIncompleteTail (file : Bytes) (allowTailRepair : Bool) (s : ScanState)
    (format : Option WalFormat) : ScanOutcome :=
  if allowTailRepair then calls.repairTail file s format
  else ⟨s.visited, s.encoded, file, .error (.corruption s.offset .invalidPartialTail)⟩

/-- What a failed call leaves, where `whole` is the scan without failures: the file as it was, or,
after a seek or sync that failed behind the truncation, the file that `whole` leaves. -/
def Interrupted (file : Bytes) (whole outcome : ScanOutcome) : Prop :=
  (∃ error, outcome.result = .error error) ∧
    (outcome.file = file ∨ calls.setLen = true ∧ (calls.seekEnd = false ∨ calls.syncAll = false) ∧
      outcome.file = whole.file ∧ ∃ summary, whole.result = .ok summary)

variable {file : Bytes} {segment : Option SegmentMetadata} {allowTailRepair : Bool}
    {s next : ScanState} {outcome : ScanOutcome}

/-- A tail is handled as without failures, or the failure shows. -/
theorem handleIncompleteTail_cases (format : Option WalFormat) :
    calls.handleIncompleteTail file allowTailRepair s format =
        Wal.handleIncompleteTail file allowTailRepair s format ∨
      calls.Interrupted file (Wal.handleIncompleteTail file allowTailRepair s format)
        (calls.handleIncompleteTail file allowTailRepair s format) := by
  unfold handleIncompleteTail Wal.handleIncompleteTail
  split_ifs with hrepair
  · unfold repairTail
    split_ifs with hset hsync
    · exact .inr ⟨⟨_, rfl⟩, .inl rfl⟩
    · exact .inr ⟨⟨_, rfl⟩, .inr ⟨Bool.eq_true_of_not_eq_false hset, hsync, rfl, _, rfl⟩⟩
    · exact .inl rfl
  · exact .inl rfl

variable [Crc32c]

def scanStep (file : Bytes) (segment : Option SegmentMetadata) (allowTailRepair : Bool)
    (s : ScanState) : ScanState ⊕ ScanOutcome :=
  if s.offset < file.length then
    match calls.read s.offset with
    | some error => .inr ⟨s.visited, s.encoded, file, .error error⟩
    | none =>
      match readNext file segment s with
      | .error error => .inr ⟨s.visited, s.encoded, file, .error error⟩
      | .ok (.incompleteTail format) =>
        .inr (calls.handleIncompleteTail file allowTailRepair s format)
      | .ok (.frame next) => .inl next
  else if calls.seekEnd = false then .inr ⟨s.visited, s.encoded, file, .error .io⟩
  else .inr ⟨s.visited, s.encoded, file, .ok ⟨s.format, s.recordCount, s.offset, 0⟩⟩

variable {calls}

/-! ## One step -/

theorem scanStep_next (h : calls.scanStep file segment allowTailRepair s = .inl next) :
    Wal.scanStep file segment allowTailRepair s = .inl next := by
  unfold scanStep at h
  split_ifs at h with hmore
  split at h
  · cases h
  · split at h
    · cases h
    · cases h
    · rename_i hread
      obtain rfl := Sum.inl.inj h
      exact scanStep_eq_next.mpr ⟨hmore, hread⟩

theorem scanStep_done (h : calls.scanStep file segment allowTailRepair s = .inr outcome) :
    (∃ error, outcome.result = .error error ∧ outcome.file = file) ∨
      ∃ whole, Wal.scanStep file segment allowTailRepair s = .inr whole ∧
        (outcome = whole ∨ calls.Interrupted file whole outcome) := by
  unfold scanStep at h
  split_ifs at h with hmore hseek
  · split at h
    · obtain rfl := Sum.inr.inj h
      exact .inl ⟨_, rfl, rfl⟩
    · split at h
      · obtain rfl := Sum.inr.inj h
        exact .inl ⟨_, rfl, rfl⟩
      · rename_i format htail
        obtain rfl := Sum.inr.inj h
        refine .inr ⟨_, ?_, calls.handleIncompleteTail_cases format⟩
        rw [Wal.scanStep, if_pos hmore, htail]
      · cases h
  · obtain rfl := Sum.inr.inj h
    exact .inl ⟨_, rfl, rfl⟩
  · refine .inr ⟨outcome, ?_, .inl rfl⟩
    rw [Wal.scanStep, if_neg hmore]
    exact h

/-! ## Whole scans -/

theorem calls_end (calls : FileCalls) (file : Bytes) (segment : Option SegmentMetadata)
    (allowTailRepair : Bool) (s : ScanState) :
    ∃ outcome, loop (calls.scanStep file segment allowTailRepair) (file.length + 1) s =
      some outcome := by
  refine loop_ends (fun _ => True) (fun s => file.length - s.offset) ?_ _ _ trivial (by omega)
  intro s next _ hstep
  obtain ⟨hmore, hread⟩ := scanStep_eq_next.mp (scanStep_next hstep)
  obtain ⟨hlt, hle⟩ := readNext_advances hread
  exact ⟨trivial, by omega⟩

variable (calls)

def scanLoop (file : Bytes) (segment : Option SegmentMetadata) (allowTailRepair : Bool)
    (s : ScanState) : ScanOutcome :=
  (loop (calls.scanStep file segment allowTailRepair) (file.length + 1) s).get
    (Option.isSome_iff_exists.mpr (calls_end calls file segment allowTailRepair s))

def scanWithFrom (file : Bytes) (recordStartOffset : UInt64) (expectedFormat : Option WalFormat)
    (segment : Option SegmentMetadata) (allowTailRepair : Bool) : ScanOutcome :=
  let start := recordStartOffset.toNat
  let maximumLength := maxRecoverableSegmentLength + start
  if calls.metadata = false then ⟨[], [], file, .error .io⟩
  else if 2 ^ 64 ≤ maximumLength then ⟨[], [], file, .error (.capacity (2 ^ 64 - 1))⟩
  else if file.length > maximumLength then
    ⟨[], [], file, .error (.segmentTooLarge file.length maximumLength)⟩
  else if start > file.length then
    ⟨[], [], file, .error (.corruption start .invalidPartialTail)⟩
  else calls.scanLoop file segment allowTailRepair (.initial start expectedFormat)

def recoverWithFrom (file : Bytes) (recordStartOffset : UInt64) (expectedFormat : Option WalFormat)
    (segment : Option SegmentMetadata) : ScanOutcome :=
  calls.scanWithFrom file recordStartOffset expectedFormat segment true

def verifyWithFrom (file : Bytes) (recordStartOffset : UInt64) (expectedFormat : Option WalFormat)
    (segment : Option SegmentMetadata) : ScanOutcome :=
  calls.scanWithFrom file recordStartOffset expectedFormat segment false

/-- The states of the scan are states of the scan without failures, so it ends as that one does or
at a failure. -/
theorem scanLoop_cases (s : ScanState) :
    calls.scanLoop file segment allowTailRepair s = Wal.scanLoop file segment allowTailRepair s ∨
      calls.Interrupted file (Wal.scanLoop file segment allowTailRepair s)
        (calls.scanLoop file segment allowTailRepair s) := by
  refine loop_spec (Reaches (Wal.scanStep file segment allowTailRepair) s)
    (fun outcome => outcome = Wal.scanLoop file segment allowTailRepair s ∨
      calls.Interrupted file (Wal.scanLoop file segment allowTailRepair s) outcome)
    ?_ ?_ _ s _ .refl (Option.some_get _).symm
  · exact fun last next hreach hstep => hreach.tail (scanStep_next hstep)
  · intro last outcome hreach hstep
    obtain ⟨error, herror, hfile⟩ | ⟨whole, hlast, hdone⟩ := scanStep_done hstep
    · exact .inr ⟨⟨error, herror⟩, .inl hfile⟩
    · rw [scanLoop_eq_of_reaches hreach hlast]
      exact hdone

theorem scanWithFrom_cases (recordStartOffset : UInt64) (expectedFormat : Option WalFormat) :
    calls.scanWithFrom file recordStartOffset expectedFormat segment allowTailRepair =
        Wal.scanWithFrom file recordStartOffset expectedFormat segment allowTailRepair ∨
      calls.Interrupted file
        (Wal.scanWithFrom file recordStartOffset expectedFormat segment allowTailRepair)
        (calls.scanWithFrom file recordStartOffset expectedFormat segment allowTailRepair) := by
  unfold scanWithFrom Wal.scanWithFrom
  dsimp only
  by_cases hmetadata : calls.metadata = false
  · rw [if_pos hmetadata]
    exact .inr ⟨⟨_, rfl⟩, .inl rfl⟩
  · rw [if_neg hmetadata]
    split_ifs
    iterate 3 exact .inl rfl
    exact calls.scanLoop_cases _

/-- Where no call fails, the scan is that of `Scan`. -/
theorem succeeding_scanWithFrom (recordStartOffset : UInt64) (expectedFormat : Option WalFormat) :
    succeeding.scanWithFrom file recordStartOffset expectedFormat segment allowTailRepair =
      Wal.scanWithFrom file recordStartOffset expectedFormat segment allowTailRepair := by
  have hstep : succeeding.scanStep file segment allowTailRepair =
      Wal.scanStep file segment allowTailRepair := by
    funext s
    rfl
  have hloop (s : ScanState) : succeeding.scanLoop file segment allowTailRepair s =
      Wal.scanLoop file segment allowTailRepair s := by
    simp only [scanLoop, Wal.scanLoop, hstep]
  unfold scanWithFrom
  dsimp only
  rw [hloop]
  rfl

end FileCalls

/-! ## Fail closed -/

/-- Recovery of arbitrary bytes fails closed, whichever calls on the file fail. The scan and its
search end, whatever the file, start offset, expected format and segment. If recovery succeeds, it
retains a prefix of the file whose only decomposition are the visited records, and drops no frame of
the segment's format. If it fails, the file is unchanged, unless the truncation was made and the
seek or the sync behind it failed: then the file is the one that the successful recovery leaves.
Verification never changes the file. -/
theorem scan_fail_closed [Crc32c] (calls : FileCalls) (file : Bytes) (recordStartOffset : UInt64)
    (expectedFormat : Option WalFormat) (segment : Option SegmentMetadata) :
    (∀ allowTailRepair s, ∃ outcome,
      loop (calls.scanStep file segment allowTailRepair) (file.length + 1) s = some outcome) ∧
    (∀ start stop, ∃ found,
      loop (searchStep file start stop) (stop - start + 1) ⟨start, [], 0⟩ = some found) ∧
    (∀ summary,
      (calls.recoverWithFrom file recordStartOffset expectedFormat segment).result = .ok summary →
      Recovered file segment recordStartOffset.toNat expectedFormat
        (calls.recoverWithFrom file recordStartOffset expectedFormat segment) summary) ∧
    (∀ error,
      (calls.recoverWithFrom file recordStartOffset expectedFormat segment).result = .error error →
      (calls.recoverWithFrom file recordStartOffset expectedFormat segment).file = file ∨
      calls.setLen = true ∧ (calls.seekEnd = false ∨ calls.syncAll = false) ∧
        (calls.recoverWithFrom file recordStartOffset expectedFormat segment).file =
          (recoverWithFrom file recordStartOffset expectedFormat segment).file ∧
        ∃ summary, (recoverWithFrom file recordStartOffset expectedFormat segment).result =
          .ok summary) ∧
    (calls.verifyWithFrom file recordStartOffset expectedFormat segment).file = file := by
  obtain ⟨hrecover, -, hok⟩ :=
    scanWithFrom_recovered file recordStartOffset expectedFormat segment true _ rfl
  have hverify : (verifyWithFrom file recordStartOffset expectedFormat segment).file = file :=
    (scanWithFrom_recovered file recordStartOffset expectedFormat segment false _ rfl).2.1 rfl
  refine ⟨FileCalls.calls_end calls file segment, search_ends file, ?_, ?_, ?_⟩
  · intro summary hsummary
    obtain hwhole | ⟨⟨error, herror⟩, -⟩ :=
      calls.scanWithFrom_cases recordStartOffset expectedFormat
    · rw [FileCalls.recoverWithFrom, hwhole] at hsummary ⊢
      exact hok summary hsummary
    · rw [FileCalls.recoverWithFrom, herror] at hsummary
      cases hsummary
  · intro error herror
    obtain hwhole | ⟨-, hinterrupted⟩ := calls.scanWithFrom_cases recordStartOffset expectedFormat
    · rw [FileCalls.recoverWithFrom, hwhole] at herror ⊢
      exact .inl (hrecover error herror)
    · exact hinterrupted
  · obtain hwhole | ⟨-, hsame | ⟨-, -, hfile, -⟩⟩ :=
      calls.scanWithFrom_cases recordStartOffset expectedFormat
    · rw [FileCalls.verifyWithFrom, hwhole]
      exact hverify
    · exact hsame
    · exact hfile.trans hverify

section Sample

open Castagnoli

/-- The sync fails behind the truncation: recovery keeps the frame, the three bytes are gone. -/
theorem failed_sync_after_cut :
    ({ FileCalls.succeeding with syncAll := false }.recoverWithFrom sampleFile 0 none none).result =
        .error .io ∧
      ({ FileCalls.succeeding with syncAll := false }.recoverWithFrom sampleFile 0 none
        none).file = sampleFile.take 18 ∧ sampleFile.take 18 ≠ sampleFile := by
  decide +kernel

/-- Recovery keeps the frame and cuts the three bytes off. -/
theorem scan_fail_closed_sample :
    (FileCalls.succeeding.recoverWithFrom sampleFile 0 none none).result =
        .ok ⟨some .legacyV1, 1, 18, 3⟩ ∧
      Recovered sampleFile none 0 none
        (FileCalls.succeeding.recoverWithFrom sampleFile 0 none none)
        ⟨some .legacyV1, 1, 18, 3⟩ := by
  have hresult : (FileCalls.succeeding.recoverWithFrom sampleFile 0 none none).result =
      .ok ⟨some .legacyV1, 1, 18, 3⟩ := by
    decide +kernel
  exact ⟨hresult, (scan_fail_closed .succeeding sampleFile 0 none none).2.2.1 _ hresult⟩

end Sample

end CryptoIntelligence.Wal
