/-
  Which records may follow one another: of declared streams, with a strictly increasing sequence for
  every stream and epoch, and no more stream epochs than the scan tracks.

  `Ordered` says it of a whole list of records; the scan and the writer decide it record by record
  from the map of last sequences. `ordered_snoc` connects the two: a list stays ordered exactly when
  the next record is admissible against the map of the list (`sequencesOf`).
-/
import CryptoIntelligence.Wal.Scan

namespace CryptoIntelligence.Wal

open Lib RecordMetadata List

/-! ## The map of a list of records -/

def Sequences.track (lastSequences : Sequences) (metadata : RecordMetadata) : Sequences :=
  lastSequences.insert metadata.streamEpoch metadata.recordSequence

open Sequences

def sequencesOf (records : List RecordMetadata) : Sequences :=
  records.foldl track ∅

theorem sequencesOf_append (records more : List RecordMetadata) :
    sequencesOf (records ++ more) = more.foldl track (sequencesOf records) := by
  rw [sequencesOf, foldl_append, sequencesOf]

theorem sequencesOf_snoc (records : List RecordMetadata) (metadata : RecordMetadata) :
    sequencesOf (records ++ [metadata]) = (sequencesOf records).track metadata :=
  sequencesOf_append records [metadata]

variable {records : List RecordMetadata} {key : StreamEpoch} {segment : Option SegmentMetadata}

theorem mem_sequencesOf :
    key ∈ sequencesOf records ↔ key ∈ records.map streamEpoch := by
  induction records using List.reverseRecOn with
  | nil => simp [sequencesOf]
  | append_singleton records metadata ih =>
    rw [sequencesOf_snoc, track, Std.ExtTreeMap.mem_insert, ih, map_append,
      mem_append, Std.LawfulEqCmp.compare_eq_iff_eq]
    simp only [map_cons, map_nil, mem_singleton]
    rw [or_comm, eq_comm]

theorem size_sequencesOf (records : List RecordMetadata) :
    (sequencesOf records).size = (records.map streamEpoch).toFinset.card := by
  induction records using List.reverseRecOn with
  | nil => simp [sequencesOf]
  | append_singleton records metadata ih =>
    rw [sequencesOf_snoc, track, Std.ExtTreeMap.size_insert, ih, map_append,
      toFinset_append, map_cons, map_nil, Finset.union_comm]
    simp only [toFinset_cons, toFinset_nil, insert_empty_eq, Finset.singleton_union,
      Std.ExtTreeMap.contains_iff_mem, mem_sequencesOf]
    split_ifs with hmem
    · rw [Finset.insert_eq_self.mpr (mem_toFinset.mpr hmem)]
    · rw [Finset.card_insert_of_notMem (by rwa [mem_toFinset])]

theorem get_track (lastSequences : Sequences) (metadata : RecordMetadata) (key : StreamEpoch) :
    (lastSequences.track metadata)[key]? =
      if metadata.streamEpoch = key then some metadata.recordSequence else lastSequences[key]? := by
  rw [track, Std.ExtTreeMap.getElem?_insert]
  simp only [Std.LawfulEqCmp.compare_eq_iff_eq]

theorem exists_of_get_sequencesOf
    {previous : UInt64} (h : (sequencesOf records)[key]? = some previous) :
    ∃ metadata ∈ records, metadata.streamEpoch = key ∧ metadata.recordSequence = previous := by
  induction records using List.reverseRecOn with
  | nil => simp [sequencesOf] at h
  | append_singleton records metadata ih =>
    rw [sequencesOf_snoc, get_track] at h
    split_ifs at h with hkey
    · exact ⟨metadata, by simp, hkey, Option.some.inj h⟩
    · obtain ⟨earlier, hmem, hearlier⟩ := ih h
      exact ⟨earlier, mem_append_left _ hmem, hearlier⟩

/-- Increasing by stream and epoch. -/
def Increasing (records : List RecordMetadata) : Prop :=
  records.Pairwise fun a b => a.streamEpoch = b.streamEpoch → a.recordSequence < b.recordSequence

instance (records : List RecordMetadata) : Decidable (Increasing records) :=
  inferInstanceAs (Decidable (records.Pairwise fun a b =>
    a.streamEpoch = b.streamEpoch → a.recordSequence < b.recordSequence))

theorem le_of_get_sequencesOf (hincreasing : Increasing records) {previous : UInt64}
    (h : (sequencesOf records)[key]? = some previous)
    {metadata : RecordMetadata} (hmem : metadata ∈ records) (hkey : metadata.streamEpoch = key) :
    metadata.recordSequence ≤ previous := by
  induction records using List.reverseRecOn with
  | nil => nomatch hmem
  | append_singleton records latest ih =>
    obtain ⟨hrecords, -, hlatest⟩ := pairwise_append.mp hincreasing
    rw [sequencesOf_snoc, get_track] at h
    rcases mem_append.mp hmem with hmem | hmem
    · split_ifs at h with heq
      · rw [← Option.some.inj h]
        exact UInt64.le_of_lt (hlatest metadata hmem latest (by simp) (hkey.trans heq.symm))
      · exact ih hrecords h hmem
    · obtain rfl := mem_singleton.mp hmem
      rw [if_pos hkey] at h
      exact UInt64.le_of_eq (Option.some.inj h)

/-! ## Ordered lists -/

structure Ordered (segment : Option SegmentMetadata) (records : List RecordMetadata) : Prop where
  declared : ∀ metadata ∈ records, ∀ declared ∈ segment,
    declared.containsStream metadata.streamId = true
  increasing : Increasing records
  bounded : (records.map streamEpoch).toFinset.card ≤ maxTrackedStreamEpochs

instance (segment : Option SegmentMetadata) (records : List RecordMetadata) :
    Decidable (Ordered segment records) :=
  decidable_of_iff ((∀ metadata ∈ records, ∀ declared ∈ segment,
      declared.containsStream metadata.streamId = true) ∧
    Increasing records ∧
    (records.map streamEpoch).toFinset.card ≤ maxTrackedStreamEpochs)
    ⟨fun ⟨h₁, h₂, h₃⟩ => ⟨h₁, h₂, h₃⟩, fun ⟨h₁, h₂, h₃⟩ => ⟨h₁, h₂, h₃⟩⟩

/-- What the scan and the writer ask of the next record. -/
structure Admissible (segment : Option SegmentMetadata) (lastSequences : Sequences)
    (metadata : RecordMetadata) : Prop where
  declared : ∀ declared ∈ segment, declared.containsStream metadata.streamId = true
  tracked : metadata.streamEpoch ∈ lastSequences ∨ lastSequences.size < maxTrackedStreamEpochs
  follows : ∀ previous, lastSequences[metadata.streamEpoch]? = some previous →
    previous < metadata.recordSequence

theorem ordered_nil (segment : Option SegmentMetadata) : Ordered segment [] :=
  ⟨by simp, List.Pairwise.nil, by simp⟩

theorem ordered_snoc {metadata : RecordMetadata} :
    Ordered segment (records ++ [metadata]) ↔
      Ordered segment records ∧ Admissible segment (sequencesOf records) metadata := by
  have hcard : ((records ++ [metadata]).map streamEpoch).toFinset.card =
      ((sequencesOf records).track metadata).size := by
    rw [← sequencesOf_snoc, size_sequencesOf]
  constructor
  · rintro ⟨hdeclared, hincreasing, hbounded⟩
    obtain ⟨hrecords, -, hlatest⟩ := pairwise_append.mp hincreasing
    rw [hcard, track, Std.ExtTreeMap.size_insert] at hbounded
    refine ⟨⟨fun m hm => hdeclared m (mem_append_left _ hm), hrecords, ?_⟩,
      ⟨hdeclared metadata (by simp), ?_, ?_⟩⟩
    · rw [← size_sequencesOf]
      split at hbounded <;> omega
    · by_cases hmem : metadata.streamEpoch ∈ sequencesOf records
      · exact .inl hmem
      · rw [if_neg (by rwa [Std.ExtTreeMap.contains_iff_mem])] at hbounded
        exact .inr hbounded
    · intro previous hprevious
      obtain ⟨earlier, hmem, hkey, rfl⟩ := exists_of_get_sequencesOf hprevious
      exact hlatest earlier hmem metadata (by simp) hkey
  · rintro ⟨hordered, hadmissible⟩
    refine ⟨?_, ?_, ?_⟩
    · exact forall_mem_concat.mpr ⟨hordered.declared, hadmissible.declared⟩
    · refine pairwise_append.mpr ⟨hordered.increasing, pairwise_singleton _ _, ?_⟩
      intro earlier hearlier latest hlatest hkey
      obtain rfl := mem_singleton.mp hlatest
      have hmem : latest.streamEpoch ∈ sequencesOf records :=
        mem_sequencesOf.mpr (mem_map.mpr ⟨earlier, hearlier, hkey⟩)
      have hprevious := Std.ExtTreeMap.getElem?_eq_some_getElem hmem
      exact UInt64.lt_of_le_of_lt (le_of_get_sequencesOf hordered.increasing hprevious
        hearlier hkey) (hadmissible.follows _ hprevious)
    · have hsize := hordered.bounded
      rw [← size_sequencesOf] at hsize
      rw [hcard, track, Std.ExtTreeMap.size_insert]
      split_ifs with hmem
      · exact hsize
      · rw [Std.ExtTreeMap.contains_iff_mem] at hmem
        exact hadmissible.tracked.resolve_left hmem

theorem Ordered.append_toList {metadata : Option RecordMetadata} (h : Ordered segment records)
    (hadmissible : ∀ m ∈ metadata, Admissible segment (sequencesOf records) m) :
    Ordered segment (records ++ metadata.toList) := by
  cases metadata with
  | none => simpa using h
  | some metadata => exact ordered_snoc.mpr ⟨h, hadmissible metadata rfl⟩

theorem Ordered.append_left {a b : List RecordMetadata}
    (h : Ordered segment (a ++ b)) : Ordered segment a := by
  refine ⟨fun m hm => h.declared m (mem_append_left _ hm),
    (pairwise_append.mp h.increasing).1, (Finset.card_le_card ?_).trans h.bounded⟩
  rw [map_append, toFinset_append]
  exact Finset.subset_union_left

/-! ## The scan decides order -/

theorem validateSequence_eq_ok {lastSequences next : Sequences} {metadata : RecordMetadata}
    {offset : Nat} :
    validateSequence lastSequences metadata offset = .ok next ↔
      (metadata.streamEpoch ∈ lastSequences ∨ lastSequences.size < maxTrackedStreamEpochs) ∧
      (∀ previous, lastSequences[metadata.streamEpoch]? = some previous →
        previous < metadata.recordSequence) ∧
      next = lastSequences.track metadata := by
  unfold validateSequence
  simp only [bind_eq_ok, reject_eq_ok, exists_and_left, exists_const]
  rw [not_and_or, not_not, Nat.not_le]
  refine and_congr_right fun _ => ?_
  rw [track, eq_comm (a := next)]
  split
  · rename_i previous heq
    simp [heq, UInt64.not_le]
  · rename_i heq
    simp [heq]

theorem acceptRecord_eq_ok {lastSequences next : Sequences}
    {metadata : Option RecordMetadata} {offset : Nat} :
    acceptRecord segment lastSequences metadata offset = .ok next ↔
      (∀ m ∈ metadata, Admissible segment lastSequences m) ∧
      next = metadata.toList.foldl track lastSequences := by
  cases metadata with
  | none => simp [acceptRecord, eq_comm]
  | some metadata =>
    have hdeclared : ¬ (segment.any fun declared =>
      !declared.containsStream metadata.streamId) = true
        ↔ ∀ declared ∈ segment, declared.containsStream metadata.streamId = true := by
      cases segment <;> simp
    simp only [acceptRecord, bind_eq_ok, reject_eq_ok, hdeclared, validateSequence_eq_ok,
      exists_and_left, exists_const, Option.toList_some, foldl_cons, foldl_nil,
      Option.mem_def, Option.some.injEq, forall_eq']
    constructor
    · rintro ⟨hd, ht, hf, rfl⟩
      exact ⟨⟨hd, ht, hf⟩, rfl⟩
    · rintro ⟨⟨hd, ht, hf⟩, rfl⟩
      exact ⟨hd, ht, hf, rfl⟩

end CryptoIntelligence.Wal
