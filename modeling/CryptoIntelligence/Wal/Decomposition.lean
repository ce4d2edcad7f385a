/-
  What a scan of arbitrary bytes establishes.

  A decomposition cuts bytes into frames, each of which decodes to a record; there is at most one
  (`Decomposition.unique`). The chunked search for a later frame looks at every occurrence of the
  magic once (`later_frame_search`), so it finds every frame (`search_misses_nothing`), so a tail
  that the scan cuts off holds no frame of the segment's format (`incompleteTail_holds_no_frame`).
  Over a whole scan: a repaired file is a prefix of the file, the visited records are its
  decomposition, and a failed scan leaves the file alone (`scanWithFrom_recovered`).
-/
import CryptoIntelligence.Wal.Ordering

namespace CryptoIntelligence.Wal

open Lib Wal.Frame List

/-! ## The chunks of the search -/

variable {file bytes : Bytes} {offset start stop : Nat} {decoded : DecodedFrame}
    {segment : Option SegmentMetadata} {format expected : Option WalFormat}
    {records : List RecoveredRecord} {scanOffset readLength : Nat}

/-- The offsets of a range where the magic stands. -/
def occurrences (file : Bytes) (start stop : Nat) : List Nat :=
  (range' start (stop - (start + 7))).filter fun offset => slice file offset 8 = magic

theorem mem_occurrences : offset ∈ occurrences file start stop ↔
    start ≤ offset ∧ offset + 8 ≤ stop ∧ slice file offset 8 = magic := by
  rw [occurrences, mem_filter, mem_range'_1, decide_eq_true_eq, ← and_assoc]
  refine and_congr_left' ?_
  omega

/-- The offsets that the windows of a buffer lead the search to. -/
def candidates (start baseOffset : Nat) (buffer : Bytes) (windows : List Nat) : List Nat :=
  (windows.filter fun relative =>
    slice buffer relative 8 = magic ∧ start ≤ baseOffset + relative).map (baseOffset + ·)

/-- The search between two chunks: it carries the last seven bytes it read and has counted the
occurrences that end there. -/
def SearchState.between (file : Bytes) (start scanOffset : Nat) : SearchState :=
  ⟨scanOffset, slice file (scanOffset - min 7 (scanOffset - start)) (min 7 (scanOffset - start)),
    (occurrences file start scanOffset).length⟩

/-- The occurrences that end in a chunk are its candidates, each once: the carried bytes are as many
as an occurrence may have before the chunk. What is carried on are the last bytes of the chunk. -/
theorem chunk_of_between (hstarted : start ≤ scanOffset)
    (hread : scanOffset + readLength ≤ file.length) (s : SearchState)
    (hs : s = .between file start scanOffset) (buffer : Bytes)
    (hbuffer : buffer = s.carry ++ slice file scanOffset readLength) :
    occurrences file start (scanOffset + readLength) = occurrences file start scanOffset ++
      candidates start (scanOffset - s.carry.length) buffer
        (range (buffer.length + 1 - magic.length)) ∧
    buffer.drop (buffer.length - min buffer.length (magic.length - 1)) =
      (SearchState.between file start (scanOffset + readLength)).carry := by
  have hmagic : magic.length = 8 := rfl
  obtain ⟨carried, hcarried⟩ : ∃ carried, min 7 (scanOffset - start) = carried := ⟨_, rfl⟩
  have hcarry : s.carry = slice file (scanOffset - carried) carried := by
    rw [hs, SearchState.between, hcarried]
  have hlength : s.carry.length = carried := by
    rw [hcarry, slice_length (by omega)]
  have hwhole : buffer = slice file (scanOffset - carried) (carried + readLength) := by
    rw [hbuffer, hcarry, ← slice_add, Nat.sub_add_cancel (by omega)]
  rw [hwhole, hlength, slice_length (by omega), hmagic]
  constructor
  · have hsplit : scanOffset + readLength - (start + 7) =
        scanOffset - (start + 7) + (carried + readLength + 1 - 8) := by omega
    have hbase : start + 1 * (scanOffset - (start + 7)) = scanOffset - carried := by omega
    rw [occurrences, occurrences, hsplit, ← range'_append, filter_append, hbase, candidates,
      @range'_eq_map_range (scanOffset - carried), filter_map]
    refine congrArg (_ ++ map _ ·) (filter_congr fun relative hrelative => ?_)
    have hwithin := mem_range.mp hrelative
    rw [slice_slice (by omega)]
    simp only [Function.comp_apply, decide_eq_decide, iff_self_and]
    omega
  · rw [SearchState.between, slice, slice, drop_take, drop_drop]
    congr 1
    · omega
    · congr 1
      omega

/-! ## The search misses nothing -/

section Search

variable [Crc32c]

/-- A frame that decodes is one the search accepts. -/
theorem validFrameAt_of_decode (h : decode (file.drop offset) = .ok decoded) :
    validFrameAt file offset file.length = true := by
  obtain ⟨hlong, hmagic, -⟩ := decode_eq_ok.mp h
  obtain ⟨hversion, length, hdeclared, hlength⟩ := declared_of_decode h
  have hfits := (decode_length h).1
  have hstart : (slice file offset prefixLength).take magic.length = magic := by
    rw [slice, take_take, Nat.min_eq_left (by decide), hmagic]
  have hformat : WalFormat.ofVersion?
      (readU16 (slice file offset prefixLength) magic.length) = some decoded.format := by
    rw [slice, readU16_take (by decide), WalFormat.ofVersion?_eq_some, hversion]
  have hheader : declaredPayloadLength decoded.format
      (slice file offset decoded.format.headerLength) = .ok length := by
    rw [slice, declaredPayloadLength_take le_rfl, hdeclared]
  have hframe : decode (slice file offset decoded.encodedLength) = .ok decoded :=
    (decode_take le_rfl).mpr h
  rw [length_drop] at hlong hfits
  rw [validFrameAt, if_neg (Nat.not_lt.mpr hlong)]
  dsimp only
  rw [if_neg (not_not.mpr hstart), hformat]
  dsimp only
  rw [if_neg (by omega), hheader]
  dsimp only
  rw [← hlength, if_neg (Nat.not_lt.mpr hfits), hframe]
  rfl

theorem validFrameAt_within (h : validFrameAt file offset stop = true) : offset + 8 ≤ stop := by
  by_contra hpast
  have hshort : stop - offset < prefixLength := by
    simp only [prefixLength]
    omega
  rw [validFrameAt, if_pos hshort] at h
  cases h

theorem searchWindows_eq {buffer : Bytes} {baseOffset : Nat} {windows : List Nat}
    {candidateCount : Nat} (h : candidateCount ≤ maxMagicCandidates) :
    searchWindows file start stop baseOffset buffer windows candidateCount =
      if candidateCount + (candidates start baseOffset buffer windows).length ≤ maxMagicCandidates ∧
          ∀ offset ∈ candidates start baseOffset buffer windows,
            validFrameAt file offset stop = false
      then some (candidateCount + (candidates start baseOffset buffer windows).length)
      else none := by
  have hmagic : magic.length = 8 := rfl
  induction windows generalizing candidateCount with
  | nil => simp [searchWindows, candidates, h]
  | cons window windows ih =>
    rw [searchWindows, hmagic]
    by_cases hcandidate : slice buffer window 8 = magic ∧ start ≤ baseOffset + window
    · have hcons : candidates start baseOffset buffer (window :: windows) =
          (baseOffset + window) :: candidates start baseOffset buffer windows := by
        simp [candidates, hcandidate]
      rw [if_neg (not_not.mpr hcandidate.1), if_neg (Nat.not_lt.mpr hcandidate.2), hcons]
      simp only [length_cons, forall_mem_cons, Nat.add_right_comm _ _ 1, ← Nat.add_assoc]
      by_cases hlimit : candidateCount + 1 > maxMagicCandidates
      · rw [if_pos hlimit, if_neg (by omega)]
      · rw [if_neg hlimit]
        cases validFrameAt file (baseOffset + window) stop with
        | true => simp
        | false =>
          rw [if_neg (by simp), ih (Nat.not_lt.mp hlimit)]
          simp only [true_and]
    · have hskip : candidates start baseOffset buffer (window :: windows) =
          candidates start baseOffset buffer windows := by
        simp [candidates, hcandidate]
      rw [hskip, ← ih h]
      by_cases hfound : slice buffer window 8 = magic
      · rw [if_neg (not_not.mpr hfound),
          if_pos (Nat.not_le.mp fun hbefore => hcandidate ⟨hfound, hbefore⟩)]
      · rw [if_pos hfound]

/-- No frame starts at the occurrences before an offset, and they are not too many. -/
def Clear (file : Bytes) (start stop scanOffset : Nat) : Prop :=
  (occurrences file start scanOffset).length ≤ maxMagicCandidates ∧
    ∀ offset ∈ occurrences file start scanOffset, validFrameAt file offset stop = false

instance clearDecidable (file : Bytes) (start stop scanOffset : Nat) :
    Decidable (Clear file start stop scanOffset) :=
  inferInstanceAs (Decidable (_ ∧ _))

theorem Clear.anti {later : Nat} (h : Clear file start stop later) (hle : scanOffset ≤ later) :
    Clear file start stop scanOffset := by
  have hearlier : occurrences file start scanOffset <+: occurrences file start later := by
    refine IsPrefix.filter _ ?_
    rw [← Nat.add_sub_cancel' (Nat.sub_le_sub_right hle (start + 7)), ← range'_append]
    exact prefix_append _ _
  exact ⟨hearlier.length_le.trans h.1, fun offset hoffset => h.2 offset (hearlier.subset hoffset)⟩

/-- One chunk: the search goes on exactly when it is clear to the end of the chunk. -/
theorem searchStep_between (hstarted : start ≤ scanOffset) (hstop : stop ≤ file.length)
    (hclear : Clear file start stop scanOffset)
    (hread : min (stop - scanOffset) searchBufferLength = readLength) :
    searchStep file start stop (.between file start scanOffset) =
      if scanOffset < stop then
        if Clear file start stop (scanOffset + readLength) then
          .inl (.between file start (scanOffset + readLength))
        else .inr true
      else .inr false := by
  generalize hs : SearchState.between file start scanOffset = s
  have hoffset : s.scanOffset = scanOffset := by rw [← hs]; rfl
  have hcount : s.candidateCount = (occurrences file start scanOffset).length := by rw [← hs]; rfl
  rw [searchStep, hoffset, hread]
  by_cases hmore : scanOffset < stop
  · obtain ⟨hchunk, hcarry⟩ := chunk_of_between hstarted
      (by omega : scanOffset + readLength ≤ file.length) s hs.symm _ rfl
    rw [if_pos hmore, if_pos hmore]
    dsimp only
    rw [searchWindows_eq (hcount ▸ hclear.1), hcount, ← length_append, ← hchunk, hcarry]
    have hfurther : Clear file start stop (scanOffset + readLength) ↔
        (occurrences file start (scanOffset + readLength)).length ≤ maxMagicCandidates ∧ ∀ offset ∈
          candidates start (scanOffset - s.carry.length)
            (s.carry ++ slice file scanOffset readLength)
            (range ((s.carry ++ slice file scanOffset readLength).length + 1 - magic.length)),
          validFrameAt file offset stop = false := by
      rw [Clear, hchunk, forall_mem_append, and_iff_right hclear.2]
    simp only [← hfurther]
    split_ifs <;> rfl
  · rw [if_neg hmore, if_neg hmore]

/-- The states of the search: every chunk so far was clear. -/
def Searched (file : Bytes) (start stop : Nat) (s : SearchState) : Prop :=
  s = .between file start s.scanOffset ∧ start ≤ s.scanOffset ∧ Clear file start stop s.scanOffset

theorem searched_initial (file : Bytes) (start stop : Nat) :
    Searched file start stop ⟨start, [], 0⟩ := by
  refine ⟨?_, le_rfl, ?_⟩
  · simp [SearchState.between, occurrences, slice]
  · simp [Clear, occurrences]

theorem searched_next (hstop : stop ≤ file.length) {s next : SearchState}
    (h : Searched file start stop s) (hstep : searchStep file start stop s = .inl next) :
    Searched file start stop next := by
  obtain ⟨hs, hstarted, hclear⟩ := h
  rw [hs, searchStep_between hstarted hstop hclear rfl] at hstep
  split_ifs at hstep with hmore hnext
  obtain rfl := Sum.inl.inj hstep
  exact ⟨rfl, Nat.le_add_right_of_le hstarted, hnext⟩

/-- The search ends without a frame exactly when the range is clear. -/
theorem search_eq_false (start : Nat) (hstop : stop ≤ file.length) :
    containsLaterValidFrame file start stop = false ↔ Clear file start stop stop := by
  refine loop_spec (Searched file start stop)
    (fun found => found = false ↔ Clear file start stop stop)
    (fun _ _ => searched_next hstop) ?_ _ _ _ (searched_initial file start stop)
    (Option.some_get _).symm
  rintro s found ⟨hs, hstarted, hclear⟩ hstep
  rw [hs, searchStep_between hstarted hstop hclear rfl] at hstep
  split_ifs at hstep with hmore hnext
  · obtain rfl := Sum.inr.inj hstep
    exact iff_of_false Bool.noConfusion fun h => hnext (h.anti (by omega))
  · obtain rfl := Sum.inr.inj hstep
    exact iff_of_true rfl (hclear.anti (Nat.not_lt.mp hmore))

/-- The chunked search is the search over all occurrences of the magic: it finds something if and
only if a frame starts at one of them, or more of them than it may look at come before the first
frame. It ends; and each chunk looks at the occurrences that end in it, so that over the run each
occurrence is looked at once. -/
theorem later_frame_search (file : Bytes) (start stop : Nat) (hstop : stop ≤ file.length) :
    (containsLaterValidFrame file start stop = true ↔
      (∃ offset, start ≤ offset ∧ slice file offset 8 = magic ∧
        validFrameAt file offset stop = true) ∨
      maxMagicCandidates <
        ((occurrences file start stop).takeWhile (!validFrameAt file · stop)).length) ∧
    (∃ found, loop (searchStep file start stop) (stop - start + 1) ⟨start, [], 0⟩ = some found) ∧
    ∀ s, Reaches (searchStep file start stop) ⟨start, [], 0⟩ s →
      s.candidateCount = (occurrences file start s.scanOffset).length ∧
      ∀ readLength, s.scanOffset + readLength ≤ stop →
        occurrences file start (s.scanOffset + readLength) = occurrences file start s.scanOffset ++
          candidates start (s.scanOffset - s.carry.length)
            (s.carry ++ slice file s.scanOffset readLength)
            (range
              ((s.carry ++ slice file s.scanOffset readLength).length + 1 - magic.length)) := by
  refine ⟨?_, search_ends file start stop, fun s hreach => ?_⟩
  · rw [← Bool.not_eq_false, search_eq_false start hstop, Clear, not_and_or, Nat.not_le]
    constructor
    · intro hmany
      by_cases hframe : ∃ offset ∈ occurrences file start stop, validFrameAt file offset stop = true
      · obtain ⟨offset, hoffset, hvalid⟩ := hframe
        obtain ⟨hstart, -, hmagic⟩ := mem_occurrences.mp hoffset
        exact .inl ⟨offset, hstart, hmagic, hvalid⟩
      · have hnone : ∀ offset ∈ occurrences file start stop,
            validFrameAt file offset stop = false :=
          fun offset hoffset => Bool.eq_false_iff.mpr fun hvalid => hframe ⟨offset, hoffset, hvalid⟩
        right
        rw [takeWhile_eq_self_iff.mpr fun offset hoffset => by rw [hnone offset hoffset]; rfl]
        exact hmany.resolve_right (not_not.mpr hnone)
    · rintro (⟨offset, hstart, hmagic, hvalid⟩ | hmany)
      · refine .inr fun hnone => ?_
        have hrefuted := hnone offset
          (mem_occurrences.mpr ⟨hstart, validFrameAt_within hvalid, hmagic⟩)
        rw [hvalid] at hrefuted
        cases hrefuted
      · exact .inl (hmany.trans_le (takeWhile_sublist _).length_le)
  · have hs : Searched file start stop s := by
      induction hreach with
      | refl => exact searched_initial file start stop
      | tail _ hstep ih => exact searched_next hstop ih hstep
    refine ⟨by rw [hs.1]; rfl, fun readLength hread => ?_⟩
    exact (chunk_of_between hs.2.1 (hread.trans hstop) s hs.1 _ rfl).1

end Search

/-- An empty legacy frame followed by the first three bytes of another. -/
def sampleFile : Bytes :=
  [0x43, 0x4d, 0x54, 0x49, 0x57, 0x41, 0x4c, 0x31, 0, 1, 0, 0, 0, 0, 0, 0, 0, 0, 0x43, 0x4d, 0x54]

section Sample

open Castagnoli

/-- The frame at the start of the sample is found. -/
theorem sample_frame_found : containsLaterValidFrame sampleFile 0 21 = true :=
  (later_frame_search sampleFile 0 21 (by decide)).1.mpr
    (.inl ⟨0, le_rfl, by decide +kernel, by decide +kernel⟩)

end Sample

variable [Crc32c]

/-- A search that finds nothing has missed nothing. -/
theorem search_misses_nothing
    (h : containsLaterValidFrame file start file.length = false) (hstart : start ≤ offset) :
    decode (file.drop offset) ≠ .ok decoded := by
  intro hdecode
  have hlength := (decode_length hdecode).1
  have hminimum := decode_minimum hdecode
  rw [length_drop] at hlength
  have hrefuted := ((search_eq_false start le_rfl).mp h).2 offset
    (mem_occurrences.mpr ⟨hstart, by omega, (decode_eq_ok.mp hdecode).2.1⟩)
  exact absurd (validFrameAt_of_decode hdecode) (by simp [hrefuted])

/-- A search that finds something has seen the magic. -/
theorem search_finds_magic (hstop : stop ≤ file.length)
    (h : containsLaterValidFrame file start stop = true) :
    ∃ offset, start ≤ offset ∧ offset + 8 ≤ stop ∧ slice file offset 8 = magic := by
  by_contra hnone
  have hempty : occurrences file start stop = [] :=
    eq_nil_iff_forall_not_mem.mpr fun offset hoffset => hnone ⟨offset, mem_occurrences.mp hoffset⟩
  have hclear : Clear file start stop stop := by simp [Clear, hempty]
  rw [(search_eq_false start hstop).mpr hclear] at h
  cases h

/-! ## Incomplete tails -/

/-- When the scan takes the rest of the file for the beginning of a frame. -/
theorem readNext_eq_incompleteTail {s : ScanState}
    (h : readNext file segment s = .ok (.incompleteTail format)) :
    (file.length - s.offset < prefixLength ∧ format = s.format) ∨
      (∃ current, format = some current ∧ (∀ f ∈ s.format, f = current) ∧
        file.length - s.offset < current.headerLength) ∨
      (format = some .v2 ∧ (∀ f ∈ s.format, f = .v2) ∧
        containsLaterValidFrame file (s.offset + 1) file.length = false ∧
        ∀ decoded, decode (file.drop s.offset) ≠ .ok decoded) := by
  have hrest : ∀ n, slice file s.offset n = (file.drop s.offset).take n := fun _ => rfl
  unfold readNext at h
  dsimp only at h
  split at h
  · rename_i hshort
    simp only [bind_eq_ok, pure_eq_ok, Scanned.incompleteTail.injEq] at h
    obtain ⟨_, -, rfl⟩ := h
    exact .inl ⟨hshort, rfl⟩
  · simp only [bind_eq_ok, reject_eq_ok, required_eq_ok, WalFormat.ofVersion?_eq_some] at h
    obtain ⟨_, hmagic, current, hversion, _, hmixed, h⟩ := h
    have hformat : ∀ f ∈ s.format, f = current := by
      intro f hmem
      simpa [Option.mem_def.mp hmem] using hmixed
    split at h
    · rename_i hshort
      simp only [bind_eq_ok, pure_eq_ok, Scanned.incompleteTail.injEq] at h
      obtain ⟨_, -, rfl⟩ := h
      exact .inr (.inl ⟨current, rfl, hformat, hshort⟩)
    · simp only [bind_eq_ok, reject_eq_ok, mapError_eq_ok] at h
      obtain ⟨length, hdeclared, _, -, h⟩ := h
      split at h
      · rename_i hend
        simp only [bind_eq_ok, reject_eq_ok, not_not, pure_eq_ok, Scanned.incompleteTail.injEq] at h
        obtain ⟨_, ⟨rfl, hsearch⟩, rfl⟩ := h
        refine .inr (.inr ⟨rfl, hformat, hsearch, fun decoded hdecode => ?_⟩)
        -- the header declares a frame that ends past the file
        rw [hrest, declaredPayloadLength_take le_rfl] at hdeclared
        rw [hrest, readU16_take (by decide)] at hversion
        have hlength := (decode_of_declared hdeclared hversion hdecode).2
        have hfits := (decode_length hdecode).1
        have hminimum := decode_minimum hdecode
        rw [length_drop] at hfits
        omega
      · simp only [bind_eq_ok, pure_eq_ok, reduceCtorEq, and_false, exists_false] at h

/-- An incomplete tail holds no frame of the segment's format, and none at all where the format is
not known. -/
theorem incompleteTail_holds_no_frame {s : ScanState}
    (h : readNext file segment s = .ok (.incompleteTail format))
    (hoffset : s.offset ≤ offset)
    (hdecode : decode (file.drop offset) = .ok decoded) :
    ∃ current, format = some current ∧ current ≠ decoded.format := by
  obtain ⟨hlength, hheader⟩ := decode_length hdecode
  have hminimum := decode_minimum hdecode
  rw [length_drop] at hlength
  obtain ⟨hshort, -⟩ | ⟨current, rfl, -, hshort⟩ | ⟨rfl, -, hsearch, hfirst⟩ :=
    readNext_eq_incompleteTail h
  · simp only [prefixLength] at hshort
    omega
  · refine ⟨current, rfl, ?_⟩
    rintro rfl
    omega
  · rcases Nat.eq_or_lt_of_le hoffset with rfl | hlater
    · exact absurd hdecode (hfirst decoded)
    · exact absurd hdecode (search_misses_nothing hsearch hlater)

/-! ## Decompositions -/

/-- Bytes cut into consecutive frames of one format, each with the record it decodes to. -/
inductive Decomposition (format : Option WalFormat) : Nat → Bytes → List RecoveredRecord → Prop
  | nil (offset : Nat) : Decomposition format offset [] []
  | cons {offset : Nat} {frame rest : Bytes} {records : List RecoveredRecord}
      {decoded : DecodedFrame} (decodes : decode frame = .ok decoded)
      (whole : decoded.encodedLength = frame.length) (same : format = some decoded.format)
      (tail : Decomposition format (offset + frame.length) rest records) :
      Decomposition format offset (frame ++ rest)
        (⟨decoded.metadata, decoded.payload, offset, offset + frame.length⟩ :: records)

/-- Bytes have at most one decomposition: a frame's first bytes say where it ends. -/
theorem Decomposition.unique {format' : Option WalFormat}
    {records' : List RecoveredRecord} (h : Decomposition format offset bytes records)
    (h' : Decomposition format' offset bytes records') : records = records' := by
  induction h generalizing records' with
  | nil offset =>
    generalize hbytes : ([] : Bytes) = bytes at h'
    cases h' with
    | nil => rfl
    | @cons _ frame rest records decoded decodes whole same tail =>
      have hminimum := decode_minimum decodes
      obtain ⟨rfl, -⟩ := append_eq_nil_iff.mp hbytes.symm
      simp only [length_nil] at whole
      omega
  | @cons offset frame rest records decoded decodes whole same tail ih =>
    generalize hbytes : frame ++ rest = bytes at h'
    cases h' with
    | nil =>
      have hminimum := decode_minimum decodes
      obtain ⟨rfl, -⟩ := append_eq_nil_iff.mp hbytes
      simp only [length_nil] at whole
      omega
    | @cons _ frame' rest' records' decoded' decodes' whole' same' tail' =>
      have hdecode := decode_append decodes rest
      rw [hbytes, decode_append decodes' rest'] at hdecode
      obtain rfl := Except.ok.inj hdecode
      obtain ⟨rfl, rfl⟩ := append_inj hbytes (whole.symm.trans whole')
      rw [ih tail']

theorem Decomposition.snoc {frame : Bytes}
    (h : Decomposition format offset bytes records) (decodes : decode frame = .ok decoded)
    (whole : decoded.encodedLength = frame.length) (same : format = some decoded.format) :
    Decomposition format offset (bytes ++ frame) (records ++
      [⟨decoded.metadata, decoded.payload, offset + bytes.length,
        offset + bytes.length + frame.length⟩]) := by
  induction h with
  | nil offset =>
    simpa using Decomposition.cons decodes whole same (.nil (offset + frame.length))
  | @cons offset first rest records decoded' decodes' whole' same' tail ih =>
    rw [append_assoc, cons_append, length_append, ← Nat.add_assoc]
    exact .cons decodes' whole' same' ih

theorem Decomposition.mono {current : WalFormat} (h : Decomposition format offset bytes records)
    (hformat : ∀ f ∈ format, f = current) : Decomposition (some current) offset bytes records := by
  induction h with
  | nil offset => exact .nil offset
  | cons decodes whole same _ ih =>
    exact .cons decodes whole (congrArg some (hformat _ same).symm) ih

/-! ## Whole scans -/

def recordMetadata (records : List RecoveredRecord) : List RecordMetadata :=
  records.filterMap (·.metadata)

/-- What holds of every state of a scan. -/
structure ScanInvariant (file : Bytes) (segment : Option SegmentMetadata) (start : Nat)
    (expected : Option WalFormat) (s : ScanState) : Prop where
  within : start ≤ s.offset ∧ s.offset ≤ file.length
  decomposed : Decomposition s.format start (slice file start (s.offset - start)) s.visited
  expected : ∀ format ∈ expected, s.format = some format
  ordered : Ordered segment (recordMetadata s.visited)
  tracked : s.lastSequences = sequencesOf (recordMetadata s.visited)
  counted : s.recordCount = s.visited.length
  encoded : s.encoded = slice file start (s.offset - start)

theorem scanInvariant_initial (h : start ≤ file.length)
    (segment : Option SegmentMetadata) (expected : Option WalFormat) :
    ScanInvariant file segment start expected (.initial start expected) where
  within := ⟨le_rfl, h⟩
  decomposed := by
    rw [ScanState.initial, Nat.sub_self]
    exact .nil start
  expected := fun _ hmem => hmem
  ordered := ordered_nil segment
  tracked := rfl
  counted := rfl
  encoded := by
    rw [ScanState.initial, Nat.sub_self]
    rfl

theorem scanInvariant_next {s next : ScanState} (h : ScanInvariant file segment start expected s)
    (hread : readNext file segment s = .ok (.frame next)) :
    ScanInvariant file segment start expected next := by
  obtain ⟨hstart, hend⟩ := h.within
  obtain ⟨hlater, hinside⟩ := readNext_advances hread
  obtain ⟨decoded, lastSequences, hdecode, hformat, haccept, -, -, rfl⟩ :=
    readNext_eq_frame.mp hread
  obtain ⟨hadmissible, rfl⟩ := acceptRecord_eq_ok.mp haccept
  rw [ScanState.visit] at hlater hinside ⊢
  dsimp only at hlater hinside
  have hbefore : (slice file start (s.offset - start)).length = s.offset - start :=
    slice_length (by omega)
  have hframe : (slice file s.offset decoded.encodedLength).length = decoded.encodedLength :=
    slice_length hinside
  have hsplit : slice file start (s.offset + decoded.encodedLength - start) =
      slice file start (s.offset - start) ++ slice file s.offset decoded.encodedLength := by
    have hadd := slice_add file start (s.offset - start) decoded.encodedLength
    rw [Nat.add_sub_cancel' hstart] at hadd
    rw [hadd]
    congr 1
    omega
  have hrecords : recordMetadata (s.visited ++ [⟨decoded.metadata, decoded.payload, s.offset,
      s.offset + decoded.encodedLength⟩]) = recordMetadata s.visited ++
          decoded.metadata.toList := by
    rw [recordMetadata, recordMetadata, filterMap_append]
    cases decoded.metadata <;> simp
  refine ⟨⟨by dsimp only; omega, hinside⟩, ?_, ?_, ?_, ?_, ?_, ?_⟩
  · have hdecoded : decode (slice file s.offset decoded.encodedLength) = .ok decoded :=
      (decode_take le_rfl).mpr hdecode
    have hsnoc := (h.decomposed.mono hformat).snoc hdecoded hframe.symm rfl
    rw [hbefore, hframe, Nat.add_sub_cancel' hstart] at hsnoc
    rw [hsplit]
    exact hsnoc
  · intro format hmem
    dsimp only
    rw [hformat format (h.expected format hmem)]
  · rw [hrecords]
    rw [h.tracked] at hadmissible
    exact h.ordered.append_toList hadmissible
  · rw [hrecords, sequencesOf_append, h.tracked]
  · simp [h.counted]
  · rw [hsplit, ← h.encoded]

/-- What a successful scan says: the retained file is a prefix of the file, its records are its only
decomposition and are ordered, and no frame of the segment's format was dropped. -/
structure Recovered (file : Bytes) (segment : Option SegmentMetadata) (start : Nat)
    (expected : Option WalFormat) (outcome : ScanOutcome) (summary : RecoverySummary) : Prop where
  retained : outcome.file <+: file ∧ start ≤ outcome.file.length
  decomposed : Decomposition summary.format start (outcome.file.drop start) outcome.visited
  unique : ∀ format records, Decomposition format start (outcome.file.drop start) records →
    records = outcome.visited
  expected : ∀ format ∈ expected, summary.format = some format
  ordered : Ordered segment (recordMetadata outcome.visited)
  dropped : ∀ offset decoded, outcome.file.length ≤ offset →
    decode (file.drop offset) = .ok decoded →
    ∃ current, summary.format = some current ∧ current ≠ decoded.format
  counted : summary.recordCount = outcome.visited.length ∧
    summary.lastValidOffset = outcome.file.length ∧
    summary.lastValidOffset + summary.truncatedBytes = file.length

theorem recovered_of_invariant {s : ScanState} (h : ScanInvariant file segment start expected s)
    (hformat : ∀ f ∈ s.format, format = some f) (hdropped : ∀ offset decoded, s.offset ≤ offset →
      decode (file.drop offset) = .ok decoded →
      ∃ current, format = some current ∧ current ≠ decoded.format) :
    Recovered file segment start expected
      ⟨s.visited, s.encoded, file.take s.offset,
        .ok ⟨format, s.recordCount, s.offset, file.length - s.offset⟩⟩
      ⟨format, s.recordCount, s.offset, file.length - s.offset⟩ := by
  obtain ⟨hstart, hend⟩ := h.within
  have hlength : (file.take s.offset).length = s.offset := length_take_of_le hend
  have hslice : (file.take s.offset).drop start = slice file start (s.offset - start) := by
    rw [drop_take, slice]
  have hdecomposed : Decomposition format start
      (slice file start (s.offset - start)) s.visited := by
    cases hf : s.format with
    | none =>
      have hnil := h.decomposed
      rw [hf] at hnil
      cases hv : format with
      | none => exact hnil
      | some current => exact hnil.mono (by simp)
    | some current =>
      rw [hformat current hf, ← hf]
      exact h.decomposed
  have htaken : file.take s.offset <+: file := take_prefix _ _
  refine ⟨⟨htaken, by rw [hlength]; exact hstart⟩, ?_, ?_, ?_, h.ordered, ?_, ?_⟩
  · rw [hslice]
    exact hdecomposed
  · intro other records hother
    rw [hslice] at hother
    exact hother.unique hdecomposed
  · exact fun f hmem => hformat f (h.expected f hmem)
  · rw [hlength]
    exact hdropped
  · exact ⟨h.counted, hlength.symm, by dsimp only; omega⟩

/-- A scan of any file: with repair, success retains a decomposed prefix and an error changes
nothing. -/
theorem scanLoop_recovered (allowTailRepair : Bool) (h : start ≤ file.length) :
    ∀ outcome, outcome = scanLoop file segment allowTailRepair (.initial start expected) →
      (∀ error, outcome.result = .error error → outcome.file = file) ∧
      (allowTailRepair = false → outcome.file = file) ∧
      ∀ summary, outcome.result = .ok summary →
        Recovered file segment start expected outcome summary := by
  rintro outcome rfl
  refine scanLoop_spec (ScanInvariant file segment start expected) (fun outcome =>
    (∀ error, outcome.result = .error error → outcome.file = file) ∧
      (allowTailRepair = false → outcome.file = file) ∧
      ∀ summary, outcome.result = .ok summary →
        Recovered file segment start expected outcome summary) ?_ ?_
    (scanInvariant_initial h segment expected)
  · exact fun s next hinv hstep => scanInvariant_next hinv (scanStep_eq_next.mp hstep).2
  · intro s outcome hinv hstep
    unfold scanStep at hstep
    split_ifs at hstep with hmore
    · split at hstep
      · obtain rfl := Sum.inr.inj hstep
        exact ⟨fun _ _ => rfl, fun _ => rfl, fun _ hok => nomatch hok⟩
      · rename_i format htail
        obtain rfl := Sum.inr.inj hstep
        unfold handleIncompleteTail
        split_ifs with hrepair
        · refine ⟨(fun _ herror => nomatch herror), fun hno => absurd hrepair (by simp [hno]), ?_⟩
          rintro summary hsummary
          obtain rfl := Except.ok.inj hsummary
          refine recovered_of_invariant hinv ?_
            fun offset decoded hoffset hdecode =>
              incompleteTail_holds_no_frame htail hoffset hdecode
          intro f hmem
          obtain ⟨-, rfl⟩ | ⟨current, rfl, hsame, -⟩ | ⟨rfl, hsame, -⟩ :=
            readNext_eq_incompleteTail htail
          · exact hmem
          · rw [hsame f hmem]
          · rw [hsame f hmem]
        · exact ⟨fun _ _ => rfl, fun _ => rfl, fun _ hok => nomatch hok⟩
      · nomatch hstep
    · obtain rfl := Sum.inr.inj hstep
      refine ⟨fun _ _ => rfl, fun _ => rfl, ?_⟩
      rintro summary hsummary
      obtain rfl := Except.ok.inj hsummary
      have hend : s.offset = file.length := by
        have := hinv.within.2
        omega
      have hnothing : ∀ offset decoded, s.offset ≤ offset →
          decode (file.drop offset) = .ok decoded →
          ∃ current, s.format = some current ∧ current ≠ decoded.format := by
        intro offset decoded hoffset hdecode
        have hlength := (decode_length hdecode).1
        have hminimum := decode_minimum hdecode
        rw [length_drop] at hlength
        omega
      have hdone := recovered_of_invariant hinv (fun _ hmem => hmem) hnothing
      rw [hend, take_length, Nat.sub_self] at hdone
      rw [hend]
      exact hdone

/-- The same of a scan from an offset that may not be one of the file. -/
theorem scanWithFrom_recovered (file : Bytes) (recordStartOffset : UInt64)
    (expectedFormat : Option WalFormat) (segment : Option SegmentMetadata)
    (allowTailRepair : Bool) : ∀ outcome,
      outcome = scanWithFrom file recordStartOffset expectedFormat segment allowTailRepair →
      (∀ error, outcome.result = .error error → outcome.file = file) ∧
      (allowTailRepair = false → outcome.file = file) ∧
      ∀ summary, outcome.result = .ok summary →
        Recovered file segment recordStartOffset.toNat expectedFormat outcome summary := by
  rintro outcome rfl
  unfold scanWithFrom
  dsimp only
  split_ifs with hcapacity hlarge hstart
  iterate 3 exact ⟨fun _ _ => rfl, fun _ => rfl, fun _ hok => nomatch hok⟩
  exact scanLoop_recovered allowTailRepair (Nat.not_lt.mp hstart) _ rfl

end CryptoIntelligence.Wal
