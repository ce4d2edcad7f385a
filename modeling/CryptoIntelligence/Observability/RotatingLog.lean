/-
  The rotating local log (`observability/src/local_service.rs`): a current and a previous segment,
  `write_line`, `rotate`, and the reopening of the two files by `from_rotating_files`.

  A file is its bytes, the offset of the handle and the metadata that the checks read. The programs
  are `Prog`s: every change of a file is a point at which the process may crash, each byte of a
  write on its own. A sync changes nothing that a process crash could tell and is left out.

  Lines are what `write_event` passes on, the encoding of a JSON object in one line.
-/
import CryptoIntelligence.Lib.Codec
import CryptoIntelligence.Lib.Crash
import CryptoIntelligence.Lib.Lines
import CryptoIntelligence.Observability.Redaction

namespace CryptoIntelligence.Observability

open Lib Prog

inductive ObservabilityError
  | invalidRotationPolicy
  | unsafeLogFile
  | logSizeOverflow
  | logLineTooLarge
  deriving DecidableEq

def newline : UInt8 := 10

def minLogSegmentBytes : Nat := 64 * 1024

def maxLogSegmentBytes : Nat := 1024 * 1024 * 1024

structure LogRotationPolicy where
  maximumSegmentBytes : Nat
  maximumSegments : Nat
  lower : minLogSegmentBytes ≤ maximumSegmentBytes
  upper : maximumSegmentBytes ≤ maxLogSegmentBytes
  segments : maximumSegments = 2

def LogRotationPolicy.new (maximumSegmentBytes maximumSegments : Nat) :
    Except ObservabilityError LogRotationPolicy :=
  if h : (minLogSegmentBytes ≤ maximumSegmentBytes ∧ maximumSegmentBytes ≤ maxLogSegmentBytes) ∧
      maximumSegments = 2 then
    .ok ⟨maximumSegmentBytes, maximumSegments, h.1.1, h.1.2, h.2⟩
  else .error .invalidRotationPolicy

/-! ## Files -/

structure Metadata where
  isFile : Bool
  uid : Nat
  mode : Nat
  nlink : Nat
  dev : Nat
  ino : Nat

structure LogFile where
  metadata : Metadata
  bytes : Bytes
  offset : Nat

namespace LogFile

def seek (file : LogFile) (offset : Nat) : LogFile := { file with offset := offset }

/-- Cut off or fill with zeros. -/
def setLen (file : LogFile) (length : Nat) : LogFile :=
  { file with bytes := file.bytes.take length ++ List.replicate (length - file.bytes.length) 0 }

/-- What a read of at most `limit` bytes returns. -/
def read (file : LogFile) (limit : Nat) : Bytes := (file.bytes.drop file.offset).take limit

/-- Write one byte at the offset. -/
def put (file : LogFile) (byte : UInt8) : LogFile :=
  { file with
    bytes := file.bytes.take file.offset ++
      List.replicate (file.offset - file.bytes.length) 0 ++
        byte :: file.bytes.drop (file.offset + 1)
    offset := file.offset + 1 }

end LogFile

/-! ## Writing -/

structure RotatingLog where
  current : LogFile
  previous : LogFile
  currentBytes : Nat
  policy : LogRotationPolicy

/-- What a crash leaves of a log. -/
structure LogFiles where
  current : LogFile
  previous : LogFile

def RotatingLog.files (log : RotatingLog) : LogFiles := ⟨log.current, log.previous⟩

abbrev LogProg (α : Type) := Prog RotatingLog LogFiles ObservabilityError α

/-- Change a file; a crash may follow. -/
def change (f : RotatingLog → RotatingLog) : LogProg Unit := fun log =>
  ⟨.ok (), f log, [(f log).files]⟩

/-- Write bytes one by one into the file that `put` writes to. -/
def writeAll (put : RotatingLog → UInt8 → RotatingLog) : Bytes → LogProg Unit
  | [] => pure ()
  | byte :: bytes => do
    change fun log => put log byte
    writeAll put bytes

namespace RotatingLog

def putCurrent (log : RotatingLog) (byte : UInt8) : RotatingLog :=
  { log with current := log.current.put byte }

def putPrevious (log : RotatingLog) (byte : UInt8) : RotatingLog :=
  { log with previous := log.previous.put byte }

def rotate : LogProg Unit := do
  update fun log => { log with current := log.current.seek 0 }
  change fun log => { log with previous := log.previous.setLen 0 }
  update fun log => { log with previous := log.previous.seek 0 }
  -- `io::copy`: the bytes that the limited reader of the current segment gives
  let log ← get
  let copied := log.current.read (log.policy.maximumSegmentBytes + 1)
  update fun log => { log with current := log.current.seek (log.current.offset + copied.length) }
  writeAll putPrevious copied
  ofExcept (reject (copied.length ≠ log.currentBytes) .unsafeLogFile)
  change fun log => { log with current := log.current.setLen 0 }
  update fun log => { log with current := log.current.seek 0, currentBytes := 0 }

/-- Make room for a line. -/
def rotateIfFull (lineBytes : Nat) : LogProg Unit := do
  let log ← get
  if 0 < log.currentBytes ∧ log.policy.maximumSegmentBytes < log.currentBytes + lineBytes
    then rotate
  else pure ()

def writeLine (encoded : Bytes) : LogProg Unit := do
  let log ← get
  ofExcept (reject (2 ^ 64 ≤ encoded.length + 1) .logSizeOverflow)
  ofExcept (reject (log.policy.maximumSegmentBytes < encoded.length + 1) .logLineTooLarge)
  ofExcept (reject (2 ^ 64 ≤ log.currentBytes + (encoded.length + 1)) .logSizeOverflow)
  rotateIfFull (encoded.length + 1)
  writeAll putCurrent encoded
  writeAll putCurrent [newline]
  let log ← get
  ofExcept (reject (2 ^ 64 ≤ log.currentBytes + (encoded.length + 1)) .logSizeOverflow)
  update fun log => { log with currentBytes := log.currentBytes + (encoded.length + 1) }

/-- A sequence of calls, each made whatever the one before returned. -/
def writeLines : List Bytes → LogProg Unit
  | [] => pure ()
  | encoded :: rest => do
    let _ ← (writeLine encoded).attempt
    writeLines rest

end RotatingLog

/-! ## Reopening -/

/-- `serde_json::from_slice::<Value>`: the kind of the value, if the bytes are one. -/
abbrev SliceReader := Bytes → Option JsonKind

section Reopening

variable (fromSlice : SliceReader) (geteuid : Nat)

def validatePrivateFile (file : LogFile) : Except ObservabilityError Metadata := do
  reject (¬ (file.metadata.isFile = true ∧ file.metadata.uid = geteuid ∧
    file.metadata.mode &&& 0o077 = 0 ∧ file.metadata.nlink = 1)) .unsafeLogFile
  pure file.metadata

def readSegment (file : LogFile) (maximumBytes : Nat) : Except ObservabilityError Bytes := do
  let bytes := (file.seek 0).read (maximumBytes + 1)
  reject (maximumBytes < bytes.length) .unsafeLogFile
  pure bytes

def validateJsonlBytes (bytes : Bytes) : Except ObservabilityError Unit :=
  checkAll (fun line => reject (line ≠ [] ∧ fromSlice line ≠ some .object) .unsafeLogFile)
    (bytes.splitOn newline)

/-- The text does not end where a line ends. -/
def Torn (bytes : Bytes) : Prop := bytes ≠ [] ∧ bytes.getLast? ≠ some newline

instance tornDecidable (bytes : Bytes) : Decidable (Torn bytes) :=
  inferInstanceAs (Decidable (_ ∧ _))

/-- The recovered file and its length. -/
def recoverCurrentJsonl (file : LogFile) (maximumBytes : Nat) :
    Except ObservabilityError (LogFile × Nat) := do
  let bytes ← readSegment file maximumBytes
  let recovered := if Torn bytes then bytes.take (wholeLength newline bytes) else bytes
  let file := if Torn bytes then file.setLen (wholeLength newline bytes) else file
  validateJsonlBytes fromSlice recovered
  pure (file, recovered.length)

def validateCompleteJsonl (file : LogFile) (maximumBytes : Nat) :
    Except ObservabilityError Unit := do
  let bytes ← readSegment file maximumBytes
  reject (Torn bytes) .unsafeLogFile
  validateJsonlBytes fromSlice bytes

/-- `LocalJsonLog::from_rotating_files`. -/
def fromRotatingFiles (current previous : LogFile) (policy : LogRotationPolicy) :
    Except ObservabilityError RotatingLog := do
  let currentMetadata ← validatePrivateFile geteuid current
  let previousMetadata ← validatePrivateFile geteuid previous
  reject (currentMetadata.dev = previousMetadata.dev ∧ currentMetadata.ino = previousMetadata.ino)
    .unsafeLogFile
  reject (policy.maximumSegmentBytes < current.bytes.length ∨
    policy.maximumSegmentBytes < previous.bytes.length) .unsafeLogFile
  let (current, currentBytes) ← recoverCurrentJsonl fromSlice current policy.maximumSegmentBytes
  validateCompleteJsonl fromSlice previous policy.maximumSegmentBytes
  pure ⟨current.seek current.bytes.length, previous.seek previous.bytes.length,
    currentBytes, policy⟩

end Reopening

end CryptoIntelligence.Observability
