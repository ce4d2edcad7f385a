/-
  What a crash leaves of the rotating log, and when the log opens again.

  `Segments` says which lines the two segments have after a sequence of calls, from the lengths of
  the lines alone; a log on which the calls were made holds them (`writeLines_holds`). A crash in
  the next call strikes at a `CrashPoint`, which tells the bytes of both files (`writeLine_meets`).
  Reopening cuts a started line off the current segment but refuses a previous segment that ends
  within a line, so the log opens again, with every line that was completely written and not rotated
  away, exactly when the crash did not cut the copy of `rotate` within a line (`reopens_iff`).
-/
import CryptoIntelligence.Observability.RotatingLog

namespace CryptoIntelligence.Observability

open Lib Lib.Prog RotatingLog
open List hiding rotate

/-! ## Rules of the primitive programs -/

section Rules

variable {log : RotatingLog} {crash : LogFiles → Prop} {ok : Unit → RotatingLog → Prop}
  {error : ObservabilityError → RotatingLog → Prop}

theorem meets_change {f : RotatingLog → RotatingLog} (hcrash : crash (f log).files)
    (hok : ok () (f log)) : Meets (change f) log crash ok error := by
  refine ⟨?_, hok⟩
  intro files hfiles
  rw [mem_singleton.mp hfiles]
  exact hcrash

/-- A write passes through every prefix of what it writes. -/
theorem meets_writeAll {put : RotatingLog → UInt8 → RotatingLog} {bytes : Bytes}
    (hcrash : ∀ n, crash ((bytes.take n).foldl put log).files)
    (hok : ok () (bytes.foldl put log)) : Meets (writeAll put bytes) log crash ok error := by
  induction bytes generalizing log with
  | nil => exact meets_pure hok
  | cons byte bytes ih =>
    refine meets_bind (meets_change (hcrash 1) ?_)
    exact ih (fun n => hcrash (n + 1)) hok

/-- A check that passes is a step that changes nothing. -/
theorem meets_check {c : Prop} [Decidable c] {e : ObservabilityError} (herror : c → error e log)
    (hok : ¬ c → ok () log) : Meets (ofExcept (reject c e)) log crash ok error := by
  refine meets_ofExcept (fun a h => hok (reject_eq_ok.mp h)) fun e' h => ?_
  obtain ⟨hc, rfl⟩ := reject_eq_error.mp h
  exact herror hc

end Rules

/-! ## Files under writes -/

namespace LogFile

variable {file : LogFile}

/-- The file with more bytes at its end. -/
def extend (file : LogFile) (bytes : Bytes) : LogFile :=
  { file with bytes := file.bytes ++ bytes, offset := file.offset + bytes.length }

theorem put_of_end (h : file.offset = file.bytes.length) (byte : UInt8) :
    file.put byte = file.extend [byte] := by
  unfold put extend
  rw [h]
  simp

theorem extend_extend (file : LogFile) (a b : Bytes) :
    (file.extend a).extend b = file.extend (a ++ b) := by
  simp [extend, Nat.add_assoc]

theorem foldl_put_of_end (h : file.offset = file.bytes.length) (bytes : Bytes) :
    bytes.foldl put file = file.extend bytes := by
  induction bytes generalizing file with
  | nil => simp [extend]
  | cons byte bytes ih =>
    rw [foldl_cons, put_of_end h, ih (by simp [extend, h]), extend_extend]
    rfl

theorem setLen_zero (file : LogFile) : file.setLen 0 = { file with bytes := [] } := by
  simp [setLen]

theorem setLen_of_le {n : Nat} (h : n ≤ file.bytes.length) :
    file.setLen n = { file with bytes := file.bytes.take n } := by
  simp [setLen, Nat.sub_eq_zero_of_le h]

theorem read_of_start {limit : Nat} (hstart : file.offset = 0) (h : file.bytes.length ≤ limit) :
    file.read limit = file.bytes := by
  unfold read
  rw [hstart, drop_zero, take_of_length_le h]

end LogFile

theorem foldl_putCurrent (log : RotatingLog) (bytes : Bytes) :
    bytes.foldl putCurrent log =
      { log with current := bytes.foldl LogFile.put log.current } := by
  induction bytes generalizing log with
  | nil => rfl
  | cons byte bytes ih => exact ih _

theorem foldl_putPrevious (log : RotatingLog) (bytes : Bytes) :
    bytes.foldl putPrevious log =
      { log with previous := bytes.foldl LogFile.put log.previous } := by
  induction bytes generalizing log with
  | nil => rfl
  | cons byte bytes ih => exact ih _

/-! ## The lines of a log -/

/-- A line as `write_event` passes it on: the encoding of a JSON object, which has no line break. -/
structure Line (fromSlice : SliceReader) where
  bytes : Bytes
  single : newline ∉ bytes
  object : fromSlice bytes = some .object

variable {fromSlice : SliceReader}

/-- The bytes of a segment with these lines. -/
def segment (lines : List (Line fromSlice)) : Bytes := encodeLines newline (lines.map Line.bytes)

theorem segment_append_singleton (lines : List (Line fromSlice)) (line : Line fromSlice) :
    segment (lines ++ [line]) = segment lines ++ line.bytes ++ [newline] := by
  unfold segment
  rw [map_append, encodeLines_append, map_singleton, encodeLines_singleton,
    append_assoc]

theorem single_of_mem_map {lines : List (Line fromSlice)} :
    ∀ bytes ∈ lines.map Line.bytes, newline ∉ bytes := by
  intro bytes hbytes
  obtain ⟨line, -, rfl⟩ := mem_map.mp hbytes
  exact line.single

/-! ## The lines of the two segments -/

/-- The lines of the two segments. -/
structure Segments (fromSlice : SliceReader) where
  previous : List (Line fromSlice)
  current : List (Line fromSlice)

namespace Segments

/-- The segments once there is room for a line: the current one is rotated away where the line does
    not fit behind it. -/
def roomFor (maximum : Nat) (segments : Segments fromSlice) (line : Line fromSlice) :
    Segments fromSlice :=
  if 0 < (segment segments.current).length ∧
      maximum < (segment segments.current).length + (line.bytes.length + 1) then
    ⟨segments.current, []⟩
  else segments

/-- The segments after one more call; a line that is too large for a segment is refused. -/
def add (maximum : Nat) (segments : Segments fromSlice) (line : Line fromSlice) :
    Segments fromSlice :=
  if maximum < line.bytes.length + 1 then segments
  else ⟨(segments.roomFor maximum line).previous, (segments.roomFor maximum line).current ++ [line]⟩

/-- The segments after these calls on two empty files. -/
def after (maximum : Nat) (lines : List (Line fromSlice)) : Segments fromSlice :=
  lines.foldl (add maximum) ⟨[], []⟩

end Segments

/-- Where a crash strikes: between two calls, behind so many copied bytes of a rotation, behind the
    rotation, or behind so many bytes of the line and its line break. -/
inductive CrashPoint
  | between
  | copying (copied : Nat)
  | rotated
  | writing (written : Nat)

namespace CrashPoint

variable (maximum : Nat) (segments : Segments fromSlice) (line : Line fromSlice)

/-- The lines completely written to the current segment and not rotated away. -/
def kept : CrashPoint → List (Line fromSlice)
  | between => segments.current
  | copying _ => segments.current
  | rotated => []
  | writing written =>
    if written ≤ line.bytes.length then (segments.roomFor maximum line).current
    else (segments.roomFor maximum line).current ++ [line]

def currentBytes : CrashPoint → Bytes
  | between => segment segments.current
  | copying _ => segment segments.current
  | rotated => []
  | writing written =>
    segment (segments.roomFor maximum line).current ++ (line.bytes ++ [newline]).take written

def previousBytes : CrashPoint → Bytes
  | between => segment segments.previous
  | copying copied => (segment segments.current).take copied
  | rotated => segment segments.current
  | writing _ => segment (segments.roomFor maximum line).previous

/-- The crash cuts the copy of the rotation within a line. -/
def CutsLine (segments : Segments fromSlice) : CrashPoint → Prop
  | copying copied => copied < (segment segments.current).length ∧
      ∀ k, copied ≠ (segment (segments.current.take k)).length
  | _ => False

end CrashPoint

/-- The log holds these lines, under the policy and on the files that it was started with. -/
structure Holds (start log : RotatingLog) (segments : Segments fromSlice) : Prop where
  policy : log.policy = start.policy
  currentMetadata : log.current.metadata = start.current.metadata
  previousMetadata : log.previous.metadata = start.previous.metadata
  current : log.current.bytes = segment segments.current
  offset : log.current.offset = (segment segments.current).length
  count : log.currentBytes = (segment segments.current).length
  fits : (segment segments.current).length ≤ start.policy.maximumSegmentBytes
  previous : log.previous.bytes = segment segments.previous
  previousFits : (segment segments.previous).length ≤ start.policy.maximumSegmentBytes

/-- What a crash at the point of the call leaves. -/
structure Leaves (start : RotatingLog) (segments : Segments fromSlice) (line : Line fromSlice)
    (point : CrashPoint) (files : LogFiles) : Prop where
  currentMetadata : files.current.metadata = start.current.metadata
  previousMetadata : files.previous.metadata = start.previous.metadata
  current : files.current.bytes =
    point.currentBytes start.policy.maximumSegmentBytes segments line
  fits : files.current.bytes.length ≤ start.policy.maximumSegmentBytes
  previous : files.previous.bytes =
    point.previousBytes start.policy.maximumSegmentBytes segments line
  previousFits : files.previous.bytes.length ≤ start.policy.maximumSegmentBytes

theorem Holds.leaves {start log : RotatingLog} {segments : Segments fromSlice}
    (h : Holds start log segments) (line : Line fromSlice) :
    Leaves start segments line .between log.files where
  currentMetadata := h.currentMetadata
  previousMetadata := h.previousMetadata
  current := h.current
  fits := by
    change log.current.bytes.length ≤ _
    rw [h.current]
    exact h.fits
  previous := h.previous
  previousFits := by
    change log.previous.bytes.length ≤ _
    rw [h.previous]
    exact h.previousFits

/-! ## One line -/

section Writing

variable {start log : RotatingLog} {segments : Segments fromSlice} {line : Line fromSlice}

/-- `rotate` reads the whole current segment. -/
theorem Holds.read_current (h : Holds start log segments) :
    (log.current.seek 0).read (log.policy.maximumSegmentBytes + 1) = segment segments.current := by
  have hlength : (log.current.seek 0).bytes.length ≤ log.policy.maximumSegmentBytes + 1 := by
    change log.current.bytes.length ≤ _
    rw [h.current, h.policy]
    exact Nat.le_succ_of_le h.fits
  rw [LogFile.read_of_start rfl hlength]
  exact h.current

/-- While a rotation copies, the current segment is whole and the previous one a part of it. -/
theorem Holds.leaves_of_copy (h : Holds start log segments) (line : Line fromSlice) (n : Nat)
    {files : LogFiles} (hcurrent : files.current.bytes = log.current.bytes)
    (hcurrentMetadata : files.current.metadata = log.current.metadata)
    (hprevious : files.previous.bytes = (segment segments.current).take n)
    (hpreviousMetadata : files.previous.metadata = log.previous.metadata) :
    Leaves start segments line (.copying n) files where
  currentMetadata := hcurrentMetadata.trans h.currentMetadata
  previousMetadata := hpreviousMetadata.trans h.previousMetadata
  current := hcurrent.trans h.current
  fits := by rw [hcurrent, h.current]; exact h.fits
  previous := hprevious
  previousFits := by rw [hprevious]; exact (length_take_le' _ _).trans h.fits

theorem rotate_meets (h : Holds start log segments) (line : Line fromSlice) :
    Meets rotate log (fun files => ∃ point, Leaves start segments line point files)
      (fun _ next => Holds start next ⟨segments.current, []⟩) (fun _ _ => False) := by
  unfold rotate
  refine meets_bind (meets_update (meets_bind (meets_change ?_ (meets_bind (meets_update
    (meets_bind (meets_get ?_)))))))
  · refine ⟨_, h.leaves_of_copy line 0 rfl rfl ?_ rfl⟩
    simp [RotatingLog.files, LogFile.setLen_zero]
  dsimp only
  rw [h.read_current]
  refine meets_bind (meets_update (meets_bind (meets_writeAll ?_ (meets_bind (meets_check ?_ ?_)))))
  · intro n
    rw [foldl_putPrevious, LogFile.setLen_zero, LogFile.foldl_put_of_end rfl]
    exact ⟨_, h.leaves_of_copy line n rfl rfl rfl rfl⟩
  · intro hne
    exact absurd h.count.symm hne
  · intro _
    rw [foldl_putPrevious, LogFile.setLen_zero, LogFile.foldl_put_of_end rfl]
    refine meets_bind (meets_change ⟨.rotated, ?_⟩ (meets_update ?_))
    · exact {
        currentMetadata := h.currentMetadata
        previousMetadata := h.previousMetadata
        current := by simp [RotatingLog.files, LogFile.setLen_zero, CrashPoint.currentBytes]
        fits := by simp [RotatingLog.files, LogFile.setLen_zero]
        previous := rfl
        previousFits := h.fits }
    · rw [LogFile.setLen_zero]
      exact {
        policy := h.policy
        currentMetadata := h.currentMetadata
        previousMetadata := h.previousMetadata
        current := rfl
        offset := rfl
        count := rfl
        fits := Nat.zero_le _
        previous := rfl
        previousFits := h.fits }

theorem rotateIfFull_meets (h : Holds start log segments)
    (hline : line.bytes.length + 1 ≤ start.policy.maximumSegmentBytes) :
    Meets (rotateIfFull (line.bytes.length + 1)) log
      (fun files => ∃ point, Leaves start segments line point files)
      (fun _ next =>
        Holds start next (segments.roomFor start.policy.maximumSegmentBytes line) ∧
        (segment (segments.roomFor start.policy.maximumSegmentBytes line).current).length +
          (line.bytes.length + 1) ≤ start.policy.maximumSegmentBytes)
      (fun _ _ => False) := by
  unfold rotateIfFull Segments.roomFor
  refine meets_bind (meets_get ?_)
  rw [h.count, h.policy]
  split
  case isTrue hfull =>
    refine (rotate_meets h line).mono (fun _ => id) (fun _ next hnext => ⟨hnext, ?_⟩)
      (fun _ _ => id)
    simpa [segment] using hline
  case isFalse hroom =>
    refine meets_pure ⟨h, ?_⟩
    rw [not_and_or] at hroom
    omega

variable {base : Segments fromSlice}

/-- While a line is written, the current segment holds the start of it. -/
theorem leaves_of_write
    (h : Holds start log (segments.roomFor start.policy.maximumSegmentBytes line))
    (hroom : (segment (segments.roomFor start.policy.maximumSegmentBytes line).current).length +
      (line.bytes.length + 1) ≤ start.policy.maximumSegmentBytes) (n : Nat) :
    Leaves start segments line (.writing n)
      { log with current := log.current.extend ((line.bytes ++ [newline]).take n) :
        RotatingLog }.files where
  currentMetadata := h.currentMetadata
  previousMetadata := h.previousMetadata
  current := congrArg (· ++ (line.bytes ++ [newline]).take n) h.current
  fits := by
    have hlength := length_take_le' n (line.bytes ++ [newline])
    change (log.current.bytes ++ (line.bytes ++ [newline]).take n).length ≤ _
    rw [length_append, length_singleton] at hlength
    rw [h.current, length_append]
    omega
  previous := h.previous
  previousFits := (h.leaves line).previousFits

/-- A line that fits behind the kept ones, written and counted. -/
theorem holds_of_write (h : Holds start log base)
    (hroom : (segment base.current).length + (line.bytes.length + 1) ≤
      start.policy.maximumSegmentBytes) :
    Holds start
      { log with
        current := log.current.extend (line.bytes ++ [newline])
        currentBytes := log.currentBytes + (line.bytes.length + 1) }
      ⟨base.previous, base.current ++ [line]⟩ where
  policy := h.policy
  currentMetadata := h.currentMetadata
  previousMetadata := h.previousMetadata
  current := by
    rw [segment_append_singleton, ← h.current, append_assoc]
    rfl
  offset := by
    rw [segment_append_singleton, length_append, length_append, ← h.offset, Nat.add_assoc]
    change _ + (line.bytes ++ [newline]).length = _
    rw [length_append]
  count := by
    rw [segment_append_singleton, length_append, length_append, ← h.count]
    rfl
  fits := by
    rw [segment_append_singleton, length_append, length_append, Nat.add_assoc]
    exact hroom
  previous := h.previous
  previousFits := h.previousFits

/-- A call adds its line, or refuses it and changes nothing; a crash in it strikes at one of its
    points. -/
theorem writeLine_meets (h : Holds start log segments) (line : Line fromSlice) :
    Meets (writeLine line.bytes) log
      (fun files => ∃ point, Leaves start segments line point files)
      (fun _ next => Holds start next (segments.add start.policy.maximumSegmentBytes line))
      (fun _ next => next = log ∧
        segments.add start.policy.maximumSegmentBytes line = segments) := by
  have hupper := start.policy.upper
  have hcount := h.count
  have hfits := h.fits
  unfold maxLogSegmentBytes at hupper
  unfold writeLine Segments.add
  refine meets_bind (meets_get (meets_bind (meets_check (fun _ => ⟨rfl, if_pos (by omega)⟩)
    fun _ => meets_bind (meets_check (fun hlarge => ⟨rfl, if_pos (h.policy ▸ hlarge)⟩)
      fun hlarge => ?_))))
  rw [h.policy] at hlarge
  rw [if_neg hlarge]
  rw [not_lt] at hlarge
  refine meets_bind (meets_check (fun hoverflow => by omega) fun _ => ?_)
  refine meets_bind ((rotateIfFull_meets h hlarge).mono (fun _ => id) ?_ fun _ _ hfalse =>
    hfalse.elim)
  rintro - rotated ⟨hrotated, hroom⟩
  have hend : rotated.current.offset = rotated.current.bytes.length := by
    rw [hrotated.offset, hrotated.current]
  have hextended : (rotated.current.extend line.bytes).offset =
      (rotated.current.extend line.bytes).bytes.length := by
    simp [LogFile.extend, hend]
  refine meets_bind (meets_writeAll ?_ (meets_bind (meets_writeAll ?_ (meets_bind (meets_get
    (meets_bind (meets_check ?_ fun _ => meets_update ?_)))))))
  · intro n
    have hleft := leaves_of_write hrotated hroom (min n line.bytes.length)
    rw [take_append_of_le_length (Nat.min_le_right _ _), ← take_eq_take_min] at hleft
    rw [foldl_putCurrent, LogFile.foldl_put_of_end hend]
    exact ⟨_, hleft⟩
  · intro n
    have hleft := leaves_of_write hrotated hroom (line.bytes.length + n)
    rw [take_length_add_append] at hleft
    rw [foldl_putCurrent, foldl_putCurrent, LogFile.foldl_put_of_end hend,
      LogFile.foldl_put_of_end hextended, LogFile.extend_extend]
    exact ⟨_, hleft⟩
  · intro hoverflow
    rw [foldl_putCurrent, foldl_putCurrent] at hoverflow
    have hcount := hrotated.count
    dsimp only at hoverflow
    omega
  · rw [foldl_putCurrent, foldl_putCurrent, LogFile.foldl_put_of_end hend,
      LogFile.foldl_put_of_end hextended, LogFile.extend_extend]
    exact holds_of_write hrotated hroom

/-- A sequence of calls leaves the log with the lines that the calls give. -/
theorem writeLines_holds (h : Holds start log segments) (lines : List (Line fromSlice)) :
    Holds start (writeLines (lines.map Line.bytes) log).state
      (lines.foldl (Segments.add start.policy.maximumSegmentBytes) segments) := by
  induction lines generalizing log segments with
  | nil => exact h
  | cons line lines ih =>
    have hline := (writeLine_meets h line).2
    refine @ih (writeLine line.bytes log).state _ ?_
    cases hresult : (writeLine line.bytes log).result with
    | ok u =>
      rw [hresult] at hline
      exact hline
    | error e =>
      rw [hresult] at hline
      obtain ⟨hsame, hadd⟩ := hline
      rw [hsame, hadd]
      exact h

end Writing

/-! ## Reopening -/

theorem validatePrivateFile_eq_ok {geteuid : Nat} {file : LogFile} {metadata : Metadata} :
    validatePrivateFile geteuid file = .ok metadata ↔
      (file.metadata.isFile = true ∧ file.metadata.uid = geteuid ∧
        file.metadata.mode &&& 0o077 = 0 ∧ file.metadata.nlink = 1) ∧ file.metadata = metadata := by
  unfold validatePrivateFile
  simp only [bind_eq_ok, reject_eq_ok, not_not, exists_const, pure_eq_ok]

variable {maximumBytes : Nat}

theorem readSegment_of_fits {file : LogFile}
    (h : file.bytes.length ≤ maximumBytes) : readSegment file maximumBytes = .ok file.bytes := by
  have hread : (file.seek 0).read (maximumBytes + 1) = file.bytes :=
    LogFile.read_of_start rfl (Nat.le_succ_of_le h)
  unfold readSegment
  dsimp only
  rw [hread, reject_neg (by omega)]
  rfl

/-- The lines that the log writes pass the check of reopening. -/
theorem validateJsonlBytes_segment (lines : List (Line fromSlice)) :
    validateJsonlBytes fromSlice (segment lines) = .ok () := by
  unfold validateJsonlBytes segment
  rw [splitOn_encodeLines single_of_mem_map, checkAll_eq_ok]
  intro bytes hbytes
  rw [reject_eq_ok]
  rintro ⟨hne, hobject⟩
  rcases mem_append.mp hbytes with hline | hlast
  · obtain ⟨line, -, rfl⟩ := mem_map.mp hline
    exact hobject line.object
  · exact hne (mem_singleton.mp hlast)

/-- A text of whole lines and the start of one more is torn exactly when a line was started. -/
theorem torn_segment_append {lines : List (Line fromSlice)} {tail : Bytes} (h : newline ∉ tail) :
    Torn (segment lines ++ tail) ↔ tail ≠ [] := by
  have hlast : (segment lines ++ tail = [] ∨
      (segment lines ++ tail).getLast? = some newline) ↔ tail = [] := getLast?_encodeLines_append h
  unfold Torn
  rw [ne_eq, ne_eq, ne_eq, ← hlast, not_or]

theorem recoverCurrentJsonl_left {file : LogFile}
    {kept : List (Line fromSlice)} {started : Bytes} (hbytes : file.bytes = segment kept ++ started)
    (hsingle : newline ∉ started) (hfits : file.bytes.length ≤ maximumBytes) :
    recoverCurrentJsonl fromSlice file maximumBytes =
      .ok ({ file with bytes := segment kept }, (segment kept).length) := by
  have hwhole : wholeLength newline file.bytes = (segment kept).length := by
    rw [hbytes]
    exact wholeLength_encodeLines_append hsingle
  have htake : file.bytes.take (segment kept).length = segment kept := by
    rw [hbytes, take_left]
  unfold recoverCurrentJsonl
  rw [readSegment_of_fits hfits, ok_bind]
  dsimp only
  rw [hwhole, htake]
  by_cases htorn : Torn file.bytes
  · rw [if_pos htorn, if_pos htorn, LogFile.setLen_of_le (by rw [hbytes]; simp), htake,
      validateJsonlBytes_segment]
    rfl
  · have hstarted : started = [] := by
      rw [hbytes, torn_segment_append hsingle] at htorn
      exact not_not.mp htorn
    have hfile : file.bytes = segment kept := by rw [hbytes, hstarted, append_nil]
    rw [if_neg htorn, if_neg htorn, hfile, validateJsonlBytes_segment, ← hfile]
    rfl

theorem validateCompleteJsonl_left {file : LogFile}
    {old : List (Line fromSlice)} {torn : Bytes} (hbytes : file.bytes = segment old ++ torn)
    (hsingle : newline ∉ torn) (hfits : file.bytes.length ≤ maximumBytes) :
    validateCompleteJsonl fromSlice file maximumBytes =
      if torn = [] then .ok () else .error .unsafeLogFile := by
  unfold validateCompleteJsonl
  rw [readSegment_of_fits hfits, ok_bind, hbytes]
  split
  case isTrue hnil =>
    rw [reject_neg (by rw [torn_segment_append hsingle]; exact not_not.mpr hnil), hnil,
      append_nil, ok_bind, validateJsonlBytes_segment]
  case isFalse hne => rw [reject_pos ((torn_segment_append hsingle).mpr hne), error_bind]

section Reopened

variable {geteuid : Nat} {current previous : LogFile} {policy : LogRotationPolicy}
  {start : RotatingLog}

/-- The two files are private and not the same. -/
structure Apart (geteuid : Nat) (current previous : LogFile) : Prop where
  currentPrivate : validatePrivateFile geteuid current = .ok current.metadata
  previousPrivate : validatePrivateFile geteuid previous = .ok previous.metadata
  distinct : ¬ (current.metadata.dev = previous.metadata.dev ∧
    current.metadata.ino = previous.metadata.ino)

theorem Apart.of_metadata {c p : LogFile} (h : Apart geteuid current previous)
    (hcurrent : c.metadata = current.metadata) (hprevious : p.metadata = previous.metadata) :
    Apart geteuid c p where
  currentPrivate := by
    rw [validatePrivateFile_eq_ok, hcurrent]
    exact ⟨(validatePrivateFile_eq_ok.mp h.currentPrivate).1, rfl⟩
  previousPrivate := by
    rw [validatePrivateFile_eq_ok, hprevious]
    exact ⟨(validatePrivateFile_eq_ok.mp h.previousPrivate).1, rfl⟩
  distinct := by
    rw [hcurrent, hprevious]
    exact h.distinct

/-- The log opens with the whole lines of the current segment, unless the previous segment ends
    within a line. -/
theorem fromRotatingFiles_of_lines {old kept : List (Line fromSlice)} {torn started : Bytes}
    (hapart : Apart geteuid current previous)
    (hcurrent : current.bytes = segment kept ++ started) (hstarted : newline ∉ started)
    (hprevious : previous.bytes = segment old ++ torn) (htorn : newline ∉ torn)
    (hfits : current.bytes.length ≤ policy.maximumSegmentBytes)
    (hpreviousFits : previous.bytes.length ≤ policy.maximumSegmentBytes) :
    fromRotatingFiles fromSlice geteuid current previous policy =
      if torn = [] then
        .ok ⟨⟨current.metadata, segment kept, (segment kept).length⟩,
          previous.seek previous.bytes.length, (segment kept).length, policy⟩
      else .error .unsafeLogFile := by
  have hlengths : ¬ (policy.maximumSegmentBytes < current.bytes.length ∨
      policy.maximumSegmentBytes < previous.bytes.length) := by
    omega
  unfold fromRotatingFiles
  rw [hapart.currentPrivate, ok_bind, hapart.previousPrivate, ok_bind, reject_neg hapart.distinct,
    ok_bind, reject_neg hlengths, ok_bind,
      recoverCurrentJsonl_left hcurrent hstarted hfits, ok_bind]
  dsimp only
  rw [validateCompleteJsonl_left hprevious htorn hpreviousFits]
  split <;> rfl

theorem apart_of_fromRotatingFiles
    (h : fromRotatingFiles fromSlice geteuid current previous policy = .ok start) :
    Apart geteuid current previous := by
  unfold fromRotatingFiles at h
  simp only [bind_eq_ok, validatePrivateFile_eq_ok, reject_eq_ok, exists_const] at h
  obtain ⟨_, ⟨hcurrent, rfl⟩, _, ⟨hprevious, rfl⟩, hdistinct, -⟩ := h
  exact {
    currentPrivate := validatePrivateFile_eq_ok.mpr ⟨hcurrent, rfl⟩
    previousPrivate := validatePrivateFile_eq_ok.mpr ⟨hprevious, rfl⟩
    distinct := hdistinct }

/-- Two empty files that open are private and apart, and the log on them holds no line. -/
theorem fromRotatingFiles_empty (hcurrent : current.bytes = []) (hprevious : previous.bytes = [])
    (h : fromRotatingFiles fromSlice geteuid current previous policy = .ok start) :
    start.policy = policy ∧ Apart geteuid start.current start.previous ∧
      Holds start start (⟨[], []⟩ : Segments fromSlice) := by
  have hapart := apart_of_fromRotatingFiles h
  have hopen := @fromRotatingFiles_of_lines fromSlice geteuid current previous policy [] [] [] []
    hapart hcurrent not_mem_nil hprevious not_mem_nil (by simp [hcurrent]) (by simp [hprevious])
  rw [if_pos rfl] at hopen
  obtain rfl : _ = start := Except.ok.inj (hopen.symm.trans h)
  refine ⟨rfl, hapart.of_metadata rfl rfl, ?_⟩
  exact {
    policy := rfl
    currentMetadata := rfl
    previousMetadata := rfl
    current := rfl
    offset := rfl
    count := rfl
    fits := Nat.zero_le _
    previous := hprevious
    previousFits := Nat.zero_le _ }

section Crash

variable {segments : Segments fromSlice} {line : Line fromSlice} {point : CrashPoint}
  {files : LogFiles}

/-- The current segment has the kept lines, and the start of one more. -/
theorem Leaves.current_eq (h : Leaves start segments line point files) :
    ∃ started, newline ∉ started ∧ files.current.bytes =
      segment (point.kept start.policy.maximumSegmentBytes segments line) ++ started := by
  rw [h.current]
  cases point with
  | writing written =>
    unfold CrashPoint.currentBytes CrashPoint.kept
    dsimp only
    split
    case isTrue hpart =>
      refine ⟨line.bytes.take written, fun hmem => line.single (mem_of_mem_take hmem), ?_⟩
      rw [take_append_of_le_length hpart]
    case isFalse hwhole =>
      refine ⟨[], not_mem_nil, ?_⟩
      rw [take_of_length_le (by rw [length_append, length_singleton]; omega),
        segment_append_singleton, append_nil, append_assoc]
  | _ => exact ⟨[], not_mem_nil, (append_nil _).symm⟩

/-- A cut of a segment ends where a line ends, or within a line. -/
theorem take_segment (lines : List (Line fromSlice)) (n : Nat) :
    ∃ k torn, newline ∉ torn ∧ (segment lines).take n = segment (lines.take k) ++ torn ∧
      (torn = [] ↔ ¬ (n < (segment lines).length ∧ ∀ k, n ≠ (segment (lines.take k)).length)) := by
  have hsingle : ∀ bytes ∈ lines.map Line.bytes, newline ∉ bytes := single_of_mem_map
  obtain ⟨k, torn, htake, htorn⟩ := take_encodeLines hsingle n
  replace htake : (segment lines).take n = segment (lines.take k) ++ torn := by
    rw [segment, segment, map_take]
    exact htake
  refine ⟨k, torn, htorn, htake, ?_⟩
  constructor
  · rintro rfl ⟨hlt, hne⟩
    have hlength := congrArg List.length htake
    rw [append_nil, length_take, Nat.min_eq_left (Nat.le_of_lt hlt)] at hlength
    exact hne k hlength
  · intro h
    -- the cut ends like whole lines do, so no line is started
    have hwhole : ∀ ls : List (Line fromSlice),
        segment ls = [] ∨ (segment ls).getLast? = some newline := by
      intro ls
      rcases encodeLines_eq_nil_or newline (ls.map Line.bytes) with ⟨hnil, -⟩ | ⟨body, hbody⟩
      · exact .inl hnil
      · exact .inr (by rw [segment, hbody, getLast?_concat])
    have hends : (segment (lines.take k) ++ torn = [] ∨
        (segment (lines.take k) ++ torn).getLast? = some newline) ↔ torn = [] :=
      getLast?_encodeLines_append htorn
    rw [← hends, ← htake]
    by_cases hlt : n < (segment lines).length
    · obtain ⟨j, hj⟩ : ∃ j, n = (segment (lines.take j)).length := by
        by_contra hnone
        exact h ⟨hlt, fun j hj => hnone ⟨j, hj⟩⟩
      have hsplit : segment lines = segment (lines.take j) ++ segment (lines.drop j) := by
        unfold segment
        rw [← encodeLines_append, ← map_append, take_append_drop]
      rw [hsplit, hj, take_left]
      exact hwhole _
    · rw [take_of_length_le (Nat.not_lt.mp hlt)]
      exact hwhole lines

/-- The previous segment has whole lines, unless the crash cuts one. -/
theorem Leaves.previous_eq (h : Leaves start segments line point files) :
    ∃ (old : List (Line fromSlice)) (torn : Bytes), newline ∉ torn ∧
      files.previous.bytes = segment old ++ torn ∧ (torn = [] ↔ ¬ point.CutsLine segments) := by
  rw [h.previous]
  cases point with
  | copying copied =>
    obtain ⟨k, torn, htorn, htake, hiff⟩ := take_segment segments.current copied
    exact ⟨_, torn, htorn, htake, hiff⟩
  | _ => exact ⟨_, [], not_mem_nil, (append_nil _).symm, iff_of_true rfl not_false⟩

/-- For every policy, every two empty files that open, every sequence of completed calls and every
    crash before the next call or in it: the crash is at one of the points of the call, and the two
    files open again, with every line that was completely written to the current segment and not
    rotated away and with nothing else, if and only if it does not cut the copy of a rotation within
    a line. -/
theorem reopens_iff
    (hstart : fromRotatingFiles fromSlice geteuid current previous policy = .ok start)
    (hcurrent : current.bytes = []) (hprevious : previous.bytes = [])
    (done : List (Line fromSlice)) (line : Line fromSlice) (files : LogFiles)
    (hfiles : files = (writeLines (done.map Line.bytes) start).state.files ∨
      files ∈ (writeLine line.bytes (writeLines (done.map Line.bytes) start).state).trail) :
    (∃ point, Leaves start (.after policy.maximumSegmentBytes done) line point files) ∧
    ∀ point, Leaves start (.after policy.maximumSegmentBytes done) line point files →
      ((∃ log, fromRotatingFiles fromSlice geteuid files.current files.previous policy = .ok log ∧
          log.current.bytes = segment (point.kept policy.maximumSegmentBytes
            (.after policy.maximumSegmentBytes done) line)) ↔
        ¬ point.CutsLine (.after policy.maximumSegmentBytes done)) := by
  obtain ⟨rfl, hapart, hempty⟩ := fromRotatingFiles_empty hcurrent hprevious hstart
  have hholds := writeLines_holds hempty done
  refine ⟨?_, fun point hleaves => ?_⟩
  · rcases hfiles with rfl | htrail
    · exact ⟨.between, hholds.leaves line⟩
    · exact (writeLine_meets hholds line).1 files htrail
  obtain ⟨started, hstarted, hcurrentBytes⟩ := hleaves.current_eq
  obtain ⟨old, torn, htorn, hpreviousBytes, hcuts⟩ := hleaves.previous_eq
  rw [← hcuts, fromRotatingFiles_of_lines
    (hapart.of_metadata hleaves.currentMetadata hleaves.previousMetadata) hcurrentBytes hstarted
    hpreviousBytes htorn hleaves.fits hleaves.previousFits]
  constructor
  · rintro ⟨log, hlog, -⟩
    by_contra hne
    rw [if_neg hne] at hlog
    cases hlog
  · intro hnil
    rw [if_pos hnil]
    exact ⟨_, rfl, rfl⟩

end Crash

end Reopened

/-! ## A copy that is cut -/

theorem mem_trail_writeAll {put : RotatingLog → UInt8 → RotatingLog} {bytes : Bytes}
    {log : RotatingLog} {n : Nat} (h : n < bytes.length) :
    ((bytes.take (n + 1)).foldl put log).files ∈ (writeAll put bytes log).trail := by
  induction bytes generalizing log n with
  | nil => exact absurd h (Nat.not_lt_zero n)
  | cons byte bytes ih =>
    rw [writeAll, mem_trail_bind]
    cases n with
    | zero => exact .inl (mem_singleton.mpr rfl)
    | succ n => exact .inr ⟨(), rfl, ih (Nat.lt_of_succ_lt_succ h)⟩

/-- Rotation passes through every cut of the copy. -/
theorem mem_trail_rotate {start log : RotatingLog} {segments : Segments fromSlice}
    (h : Holds start log segments) {n : Nat} (hn : n < (segment segments.current).length) :
    ∃ files ∈ (rotate log).trail,
      files.current.metadata = log.current.metadata ∧ files.current.bytes = log.current.bytes ∧
      files.previous.metadata = log.previous.metadata ∧
      files.previous.bytes = (segment segments.current).take (n + 1) := by
  let copying : RotatingLog :=
    { log with
      current := (log.current.seek 0).seek
        ((log.current.seek 0).offset + (segment segments.current).length)
      previous := (log.previous.setLen 0).seek 0 }
  refine ⟨(((segment segments.current).take (n + 1)).foldl putPrevious copying).files, ?_, ?_⟩
  · unfold rotate
    refine mem_trail_bind.mpr (.inr ⟨(), rfl, mem_trail_bind.mpr (.inr ⟨(), rfl,
      mem_trail_bind.mpr (.inr ⟨(), rfl, mem_trail_bind.mpr (.inr ⟨_, rfl, mem_trail_bind.mpr
        (.inr ⟨(), rfl, mem_trail_bind.mpr (.inl ?_)⟩)⟩)⟩)⟩)⟩)
    dsimp only [Prog.get, Prog.update, change]
    rw [h.read_current]
    exact mem_trail_writeAll hn
  · have hprevious : copying.previous = ⟨log.previous.metadata, [], 0⟩ := by
      simp only [copying, LogFile.setLen_zero, LogFile.seek]
    rw [foldl_putPrevious, hprevious, LogFile.foldl_put_of_end rfl]
    exact ⟨rfl, rfl, rfl, rfl⟩

/-- A line that does not fit behind the kept ones starts the copy. -/
theorem mem_trail_writeLine {start log : RotatingLog} {segments : Segments fromSlice}
    (h : Holds start log segments) {line : Line fromSlice}
    (hline : line.bytes.length + 1 ≤ start.policy.maximumSegmentBytes)
    (hfull : start.policy.maximumSegmentBytes <
      (segment segments.current).length + (line.bytes.length + 1))
    {files : LogFiles} (hfiles : files ∈ (rotate log).trail) :
    files ∈ (writeLine line.bytes log).trail := by
  have hupper := start.policy.upper
  have hcount := h.count
  have hfits := h.fits
  unfold maxLogSegmentBytes at hupper
  have hsmall : reject (2 ^ 64 ≤ line.bytes.length + 1) ObservabilityError.logSizeOverflow =
      .ok () := reject_neg (by omega)
  have hroom : reject (log.policy.maximumSegmentBytes < line.bytes.length + 1)
      ObservabilityError.logLineTooLarge = .ok () := reject_neg (by rw [h.policy]; omega)
  have hsum : reject (2 ^ 64 ≤ log.currentBytes + (line.bytes.length + 1))
      ObservabilityError.logSizeOverflow = .ok () := reject_neg (by omega)
  unfold writeLine
  refine mem_trail_bind.mpr (.inr ⟨_, rfl, mem_trail_bind.mpr (.inr ⟨(), hsmall,
    mem_trail_bind.mpr (.inr ⟨(), hroom, mem_trail_bind.mpr (.inr ⟨(), hsum,
      mem_trail_bind.mpr (.inl ?_)⟩)⟩)⟩)⟩)
  have hrotates : 0 < log.currentBytes ∧
      log.policy.maximumSegmentBytes < log.currentBytes + (line.bytes.length + 1) := by
    rw [h.policy]
    omega
  refine mem_trail_bind.mpr (.inr ⟨log, rfl, ?_⟩)
  split
  case isTrue => exact hfiles
  case isFalse hnot => exact absurd hrotates hnot

/-- Where a line does not fit behind itself, a second call with it starts a copy that a crash can
    cut after its first byte, and the files do not open. -/
theorem copy_is_cut {start : RotatingLog} {geteuid : Nat} (line : Line fromSlice)
    (hapart : Apart geteuid start.current start.previous)
    (h : Holds start start (⟨[], []⟩ : Segments fromSlice))
    (hline : line.bytes.length + 1 ≤ start.policy.maximumSegmentBytes)
    (hfull : start.policy.maximumSegmentBytes < 2 * (line.bytes.length + 1))
    (hne : line.bytes ≠ []) :
    ∃ files ∈ (writeLine line.bytes (writeLines [line.bytes] start).state).trail,
      fromRotatingFiles fromSlice geteuid files.current files.previous start.policy =
        .error .unsafeLogFile := by
  have hbytes : segment [line] = line.bytes ++ [newline] := encodeLines_singleton _ _
  have hlength : (segment (⟨[], [line]⟩ : Segments fromSlice).current).length =
      line.bytes.length + 1 := by
    change (segment [line]).length = _
    rw [hbytes, length_append]
    rfl
  have hpositive := length_pos_iff.mpr hne
  have hfirst : Holds start (writeLines [line.bytes] start).state
      (⟨[], [line]⟩ : Segments fromSlice) := by
    have hholds := writeLines_holds h [line]
    rw [foldl_cons, foldl_nil, Segments.add, if_neg (Nat.not_lt.mpr hline)] at hholds
    exact hholds
  obtain ⟨files, hfiles, hcm, hcb, hpm, hpb⟩ := mem_trail_rotate hfirst (n := 0) (by omega)
  have hcut : (segment [line]).take 1 = line.bytes.take 1 := by
    rw [hbytes, take_append_of_le_length hpositive]
  refine ⟨files, mem_trail_writeLine hfirst hline (by omega) hfiles, ?_⟩
  have hreopen := @fromRotatingFiles_of_lines fromSlice geteuid files.current files.previous
    start.policy [] [line] (line.bytes.take 1) []
    (hapart.of_metadata (hcm.trans hfirst.currentMetadata) (hpm.trans hfirst.previousMetadata))
    (by rw [hcb, hfirst.current, append_nil]) not_mem_nil (hpb.trans hcut)
    (fun hmem => line.single (mem_of_mem_take hmem))
      (by rw [hcb, hfirst.current]; exact hfirst.fits)
    (by rw [hpb, length_take]; omega)
  rw [hreopen, if_neg]
  intro hnil
  rw [take_eq_nil_iff] at hnil
  exact hnil.elim (by decide) hne

/-- A reader that takes what stands between braces for an object. -/
def braces : SliceReader := fun bytes =>
  if bytes.head? = some 123 ∧ bytes.getLast? = some 125 then some .object else none

theorem blanks_single (n : Nat) : newline ∉ 123 :: (List.replicate n 32 ++ [125]) := by
  simp [newline]

theorem blanks_object (n : Nat) :
    braces (123 :: (List.replicate n 32 ++ [125])) = some .object := by
  have hlast : (123 :: (List.replicate n 32 ++ [125])).getLast? = some (125 : UInt8) := by
    rw [← cons_append, getLast?_concat]
  unfold braces
  rw [if_pos ⟨rfl, hlast⟩]

/-- An object with blanks between its braces. -/
def blankLine (n : Nat) : Line braces where
  bytes := 123 :: (List.replicate n 32 ++ [125])
  single := blanks_single n
  object := blanks_object n

theorem blankLine_length (n : Nat) : (blankLine n).bytes.length = n + 2 := by
  simp [blankLine]

theorem smallestPolicy_upper : minLogSegmentBytes ≤ maxLogSegmentBytes := by decide

def smallestPolicy : LogRotationPolicy :=
  ⟨minLogSegmentBytes, 2, Nat.le_refl _, smallestPolicy_upper, rfl⟩

/-- A private empty file. -/
def emptyFile (ino : Nat) : LogFile := ⟨⟨true, 501, 0o600, 1, 1, ino⟩, [], 0⟩

def emptyLog : RotatingLog := ⟨emptyFile 1, emptyFile 2, 0, smallestPolicy⟩

theorem emptyLog_opens :
    fromRotatingFiles braces 501 (emptyFile 1) (emptyFile 2) smallestPolicy = .ok emptyLog := rfl

/-- One line is written, and the process crashes behind two bytes of the next: the log opens again
    with the first line. -/
theorem started_line_cut_off :
    ∃ files ∈ (writeLine (blankLine 2).bytes
        (writeLines [(blankLine 1).bytes] emptyLog).state).trail,
      files.current.bytes = [123, 32, 125, 10, 123, 32] ∧
      ∃ log, fromRotatingFiles braces 501 files.current files.previous smallestPolicy = .ok log ∧
        log.current.bytes = [123, 32, 125, 10] := by
  let files : LogFiles :=
    ⟨⟨⟨true, 501, 0o600, 1, 1, 1⟩, [123, 32, 125, 10, 123, 32], 6⟩, emptyFile 2⟩
  have hmem : files ∈ (writeLine (blankLine 2).bytes
      (writeLines [(blankLine 1).bytes] emptyLog).state).trail :=
    mem_of_getElem? (show _[1]? = some files from rfl)
  have hleaves : Leaves emptyLog (.after smallestPolicy.maximumSegmentBytes [blankLine 1])
      (blankLine 2) (.writing 2) files := ⟨rfl, rfl, rfl, by decide, rfl, by decide⟩
  obtain ⟨-, hiff⟩ := reopens_iff emptyLog_opens rfl rfl [blankLine 1] (blankLine 2) files
    (.inr hmem)
  exact ⟨files, hmem, rfl, (hiff _ hleaves).mpr id⟩

/-- Two lines of 40003 bytes under the smallest policy: a crash after the first byte of the copy
    leaves two files that do not open. -/
theorem copy_cut_within_line :
    ∃ files ∈ (writeLine (blankLine 40000).bytes
        (writeLines [(blankLine 40000).bytes] emptyLog).state).trail,
      fromRotatingFiles braces 501 files.current files.previous smallestPolicy =
        .error .unsafeLogFile := by
  obtain ⟨-, hapart, hholds⟩ := fromRotatingFiles_empty rfl rfl emptyLog_opens
  have hwide := blankLine_length 40000
  have hmaximum : emptyLog.policy.maximumSegmentBytes = 65536 := rfl
  exact copy_is_cut (blankLine 40000) hapart hholds (by omega) (by omega) (cons_ne_nil _ _)

end CryptoIntelligence.Observability
