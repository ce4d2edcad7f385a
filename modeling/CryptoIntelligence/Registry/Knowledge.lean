/-
  Catalog knowledge is immutable. A call leaves the log as it is or commits one batch: records of
  one new revision and one known-at time, which is not before the time of the batch before, such
  that the whole log gives a snapshot (`Commits`). So the log only grows, revisions and times do not
  decrease along it, and every cut of it by revision or by time ends where a batch ended (`Logged`).

  `knowledge_immutable` says what follows for the three queries: the snapshot as known at a time
  does not change when only later knowledge arrives, the snapshot at a revision is the snapshot that
  was current when the revision was committed, and no query fails on a cut that has records.
-/
import CryptoIntelligence.Registry.Catalog

namespace CryptoIntelligence.Registry

open Lib Domain Event InstrumentRegistry List Option

/-! ## One mutation -/

/-- What a mutation of a batch stages: nothing, or one record. -/
inductive Stages (registry : InstrumentRegistry) (s : Staging) : Staging → Prop
  | idempotent : Stages registry s { s with idempotentRecords := s.idempotentRecords + 1 }
  | pushes {s' : Staging} (record : CatalogRecord) (count : UInt32) :
    commitRevision registry.currentRevision s.commitRevision = .ok record.catalogRevision →
    validateBatchTime registry.lastKnownAt s.batchKnownAt record.metadata.knownAt =
      .ok s'.batchKnownAt →
    s'.derived.byId = s.derived.byId.insert record.instrument.id
      ⟨record.instrument, record.catalogRevision, record.definitionHash, count⟩ →
    s'.staged = s.staged ++ [record] → s'.commitRevision = some record.catalogRevision →
    Stages registry s s'

variable {blake3 : Bytes → Hash32} {registry registry' : InstrumentRegistry} {s s' : Staging}
    {revision : CatalogRevision}

theorem stageDefinition_stages {definition : InstrumentDefinition} {metadata : RevisionMetadata}
    (h : registry.stageDefinition blake3 s definition metadata = .ok s') :
    Stages registry s s' := by
  unfold stageDefinition at h
  split at h
  · split at h
    · cases h
      exact .idempotent
    · split at h <;> cases h
  · simp only [bind_eq_ok] at h
    obtain ⟨_, -, known, hknown, _, -, h⟩ := h
    have hpush : ∃ hash revision, commitRevision registry.currentRevision s.commitRevision =
        .ok revision ∧ s' = { s with
          derived := { s.derived with
            byId := s.derived.byId.insert definition.id ⟨definition, revision, hash, 0⟩
            }.rebuildSymbolIndex
          staged := s.staged ++ [.definition ⟨revision, metadata, hash, definition⟩]
          commitRevision := some revision
          batchKnownAt := known } := by
      split at h
      all_goals
        simp only [bind_eq_ok, pure_eq_ok] at h
        obtain ⟨_, -, hash, -, revision, hrevision, rfl⟩ := h
        exact ⟨hash, revision, hrevision, rfl⟩
    obtain ⟨hash, revision, hrevision, rfl⟩ := hpush
    exact .pushes (.definition ⟨revision, metadata, hash, definition⟩) 0 hrevision hknown
      rfl rfl rfl

theorem stageCorrection_stages {correction : CorrectionInput}
    (h : registry.stageCorrection blake3 s correction = .ok s') : Stages registry s s' := by
  unfold stageCorrection at h
  dsimp only at h
  split at h
  · cases h
    exact .idempotent
  · simp only [bind_eq_ok, reject_eq_ok] at h
    obtain ⟨current, -, _, -, _, -, _, -, _, -, _, -, _, -, known, hknown, _, -, hash, -, id,
      -, h⟩ := h
    split at h
    · cases h
    · simp only [bind_eq_ok, pure_eq_ok] at h
      obtain ⟨revision, hrevision, rfl⟩ := h
      exact .pushes (.correction ⟨revision, _, _, _, correction.metadata, _, hash, _, _, _⟩)
        (current.correctionCount + 1) hrevision hknown rfl rfl rfl

theorem stageMutation_stages {mutation : CatalogMutation}
    (h : registry.stageMutation blake3 s mutation = .ok s') : Stages registry s s' := by
  cases mutation with
  | definition definition metadata => exact stageDefinition_stages h
  | correction correction => exact stageCorrection_stages h

/-! ## One batch -/

/-- The staged records have the next revision and the time of the batch. -/
structure Batched (registry : InstrumentRegistry) (s : Staging) : Prop where
  revision : ∀ revision ∈ s.commitRevision,
    CatalogRevision.next registry.currentRevision = .ok revision
  staged : ∀ record ∈ s.staged, s.commitRevision = some record.catalogRevision ∧
    s.batchKnownAt = some record.metadata.knownAt
  time : ∀ known ∈ s.batchKnownAt, s.staged ≠ [] ∧
    ∀ previous ∈ registry.lastKnownAt, previous ≤ known

theorem validateBatchTime_eq_ok {previous batch batch' : Option UnixNanos} {next : UnixNanos}
    (h : validateBatchTime previous batch next = .ok batch') :
    batch' = some next ∧ (∀ known ∈ batch, known = next) ∧ ∀ time ∈ previous, time ≤ next := by
  simp only [validateBatchTime, bind_eq_ok, reject_eq_ok] at h
  obtain ⟨_, hprevious, h⟩ := h
  have hle : ∀ time ∈ previous, time ≤ next := fun time hmem =>
    Int64.not_lt.mp fun hlt => hprevious ⟨time, hmem, hlt⟩
  split at h
  · simp only [bind_eq_ok, reject_eq_ok, pure_eq_ok, ne_eq, not_not] at h
    obtain ⟨_, rfl, rfl⟩ := h
    exact ⟨rfl, fun known hmem => (Option.some.inj hmem).symm, hle⟩
  · cases h
    exact ⟨rfl, (by intros; contradiction), hle⟩

theorem commitRevision_eq_ok {actual current : Option CatalogRevision}
    (hcurrent : ∀ r ∈ current, CatalogRevision.next actual = .ok r)
    (h : commitRevision actual current = .ok revision) :
    CatalogRevision.next actual = .ok revision ∧ ∀ r ∈ current, r = revision := by
  simp only [commitRevision, bind_eq_ok, pure_eq_ok] at h
  obtain ⟨next, hnext, rfl⟩ := h
  cases current with
  | none => exact ⟨hnext, (by intros; contradiction)⟩
  | some r => exact ⟨hcurrent r rfl, fun _ hmem => (Option.some.inj hmem).symm⟩

theorem Batched.stages (h : Batched registry s)
    (hstages : Stages registry s s') : Batched registry s' := by
  cases hstages with
  | idempotent => exact ⟨h.revision, h.staged, h.time⟩
  | pushes record count hrevision htime _ hstaged hcommit =>
    obtain ⟨hnext, hsame⟩ := commitRevision_eq_ok h.revision hrevision
    obtain ⟨hknown, hbatch, hprevious⟩ := validateBatchTime_eq_ok htime
    refine ⟨fun r hr => ?_, ?_, fun known hmem => ?_⟩
    · rw [hcommit] at hr
      rw [hnext, Option.some.inj hr]
    · rw [hcommit, hknown, hstaged]
      refine forall_mem_concat.mpr ⟨fun other hold => ?_, rfl, rfl⟩
      obtain ⟨hr, hk⟩ := h.staged other hold
      rw [hsame _ hr, hbatch _ hk]
      exact ⟨rfl, rfl⟩
    · rw [hknown] at hmem
      rw [hstaged, ← Option.some.inj hmem]
      exact ⟨append_ne_nil_of_right_ne_nil _ (cons_ne_nil _ _), hprevious⟩

theorem stageMutations_batched {mutations : List CatalogMutation}
    (h : registry.stageMutations blake3 mutations = .ok s) : Batched registry s := by
  refine foldlM_keeps (Batched registry) (fun _ _ _ _ hs hok => ?_) ?_ h
  · exact hs.stages (stageMutation_stages hok)
  · exact ⟨nofun, fun _ hmem => absurd hmem not_mem_nil, nofun⟩

/-- A committed batch: records of one new revision and one time, with which the whole log gives a
    snapshot. -/
structure Commits (blake3 : Bytes → Hash32) (registry registry' : InstrumentRegistry)
    (batch : List CatalogRecord) (revision : CatalogRevision) (known : UnixNanos) : Prop where
  limits : registry'.limits = registry.limits
  records : registry'.records = registry.records ++ batch
  lastKnownAt : registry'.lastKnownAt = some known
  nonempty : batch ≠ []
  batch : ∀ record ∈ batch, record.catalogRevision = revision ∧ record.metadata.knownAt = known
  next : CatalogRevision.next registry.currentRevision = .ok revision
  later : ∀ previous ∈ registry.lastKnownAt, previous ≤ known
  valid : ∃ s, buildSnapshot blake3 registry'.records known registry'.limits = .ok s

/-- What a call does to the log: nothing, or one committed batch. -/
inductive LogEffect (blake3 : Bytes → Hash32) (registry registry' : InstrumentRegistry) : Prop
  | same : registry'.limits = registry.limits → registry'.records = registry.records →
    registry'.lastKnownAt = registry.lastKnownAt → LogEffect blake3 registry registry'
  | commits {batch : List CatalogRecord} {revision : CatalogRevision} {known : UnixNanos} :
    Commits blake3 registry registry' batch revision known → LogEffect blake3 registry registry'

theorem LogEffect.refl (blake3 : Bytes → Hash32) (registry : InstrumentRegistry) :
    LogEffect blake3 registry registry := .same rfl rfl rfl

theorem appendBatch_effect
    {expected : Option CatalogRevision} {mutations : List CatalogMutation} {outcome : BatchOutcome}
    (h : registry.appendBatch blake3 expected mutations = .ok (registry', outcome)) :
    LogEffect blake3 registry registry' := by
  simp only [InstrumentRegistry.appendBatch, bind_eq_ok, pure_eq_ok, Prod.mk.injEq] at h
  obtain ⟨_, -, _, -, _, -, s, hs, _, hvalid, rfl, -⟩ := h
  have hbatched := stageMutations_batched hs
  rcases hstaged : s.staged with _ | ⟨first, rest⟩
  · have hknown : s.batchKnownAt = none :=
      eq_none_iff_forall_not_mem.mpr fun known hmem => (hbatched.time known hmem).1 hstaged
    refine .same rfl (append_nil _) ?_
    rw [hknown]
    rfl
  · have hfirst : first ∈ s.staged := by
      rw [hstaged]
      exact mem_cons_self
    obtain ⟨hrevision, hknown⟩ := hbatched.staged first hfirst
    simp only [validateStaged, bind_eq_ok] at hvalid
    obtain ⟨_, -, hvalid⟩ := hvalid
    rw [if_pos (by rw [hstaged]; exact Nat.succ_pos _), hknown, required_some, ok_bind] at hvalid
    refine .commits ⟨rfl, rfl, ?_, cons_ne_nil first rest, fun record hmem => ?_,
      hbatched.revision _ hrevision, (hbatched.time _ hknown).2, ?_⟩
    · rw [hknown]
      rfl
    · rw [← hstaged] at hmem
      obtain ⟨hr, hk⟩ := hbatched.staged record hmem
      rw [hrevision] at hr
      rw [hknown] at hk
      exact ⟨(Option.some.inj hr).symm, (Option.some.inj hk).symm⟩
    · rw [← hstaged]
      cases hbuild : buildSnapshot blake3 (registry.records ++ s.staged) first.metadata.knownAt
          registry.limits with
      | ok snapshot => exact ⟨snapshot, rfl⟩
      | error err =>
        rw [hbuild] at hvalid
        cases hvalid

theorem appendOne_effect (blake3 : Bytes → Hash32) (registry : InstrumentRegistry)
    (mutation : CatalogMutation) :
    LogEffect blake3 registry (registry.appendOne blake3 mutation).1 := by
  unfold appendOne
  split
  · exact .refl blake3 registry
  · rename_i hok
    exact appendBatch_effect hok

theorem step_logEffect (blake3 : Bytes → Hash32) (registry : InstrumentRegistry)
    (call : RegistryCall) :
    LogEffect blake3 registry (registry.step blake3 call) := by
  cases call with
  | appendBatch expected mutations =>
    dsimp only [step]
    split
    · rename_i hok
      exact appendBatch_effect hok
    · exact .refl blake3 registry
  | appendDefinition definition metadata =>
    dsimp only [step, InstrumentRegistry.appendDefinition]
    split
    · split
      · exact .refl blake3 registry
      · exact appendOne_effect blake3 registry _
    · exact appendOne_effect blake3 registry _
  | appendCorrection correction =>
    dsimp only [step, InstrumentRegistry.appendCorrection]
    split
    · exact .refl blake3 registry
    · exact appendOne_effect blake3 registry _

/-! ## The log -/

theorem takeWhile_append_of_all {p : CatalogRecord → Bool} {old batch : List CatalogRecord}
    (hold : ∀ record ∈ old, p record = true) (hbatch : ∀ record ∈ batch, p record = true) :
    (old ++ batch).takeWhile p = old ++ batch :=
  takeWhile_eq_self_iff.mpr fun record hmem =>
    (mem_append.mp hmem).elim (hold record) (hbatch record)

theorem takeWhile_append_of_none {p : CatalogRecord → Bool} {old batch : List CatalogRecord}
    (hbatch : ∀ record ∈ batch, p record = false) :
    (old ++ batch).takeWhile p = old.takeWhile p := by
  have hnone : batch.takeWhile p = [] := by
    cases batch with
    | nil => rfl
    | cons first rest => rw [takeWhile_cons, hbatch first mem_cons_self]; rfl
  rw [takeWhile_append, hnone, append_nil]
  split
  · rename_i hlength
    have htaken : old.takeWhile p <+: old := takeWhile_prefix p
    exact (htaken.eq_of_length hlength).symm
  · rfl

theorem currentRevision_of_ne_nil (h : registry.records ≠ []) :
    registry.currentRevision = some (registry.records.getLast h).catalogRevision := by
  rw [InstrumentRegistry.currentRevision, getLast?_eq_some_getLast h]
  rfl

/-- What every call keeps true of the log. The last two fields are about the cuts of the log by time
    and by revision. -/
structure Logged (blake3 : Bytes → Hash32) (registry : InstrumentRegistry) : Prop where
  first : ∀ record ∈ registry.records.head?, record.catalogRevision.value = 1
  revisions : ∀ record ∈ registry.records, ∀ current ∈ registry.currentRevision,
    record.catalogRevision.value ≤ current.value
  times : ∀ record ∈ registry.records, ∀ known ∈ registry.lastKnownAt,
    record.metadata.knownAt ≤ known
  lastKnownAt : registry.lastKnownAt = registry.records.getLast?.map (·.metadata.knownAt)
  knownAt : ∀ time, registry.knownRecords time ≠ [] →
    ∃ s, registry.snapshotAsKnownAt blake3 time = .ok s
  atRevision : ∀ revision known,
    (registry.recordsAt revision).getLast?.map (·.metadata.knownAt) = some known →
    ∃ s, buildSnapshot blake3 (registry.recordsAt revision) known registry.limits = .ok s

theorem logged_start (blake3 : Bytes → Hash32) (limits : RegistryLimits) :
    Logged blake3 (.withLimits limits) := by
  refine ⟨fun record h => ?_, fun record h => ?_, fun record h => ?_, rfl, fun time h => ?_,
    fun revision known h => ?_⟩
  · cases h
  · cases h
  · cases h
  · exact absurd rfl h
  · cases h

theorem next_gt {current : Option CatalogRevision}
    (h : CatalogRevision.next current = .ok revision) :
    (current = none → revision.value = 1) ∧ ∀ r ∈ current, r.value < revision.value := by
  have hnew {value : UInt64} {e : RegistryError}
      (hvalue : required (CatalogRevision.new value) e = .ok revision) :
          revision.value = value := by
    rw [required_eq_ok, CatalogRevision.new] at hvalue
    split at hvalue
    · cases hvalue
    · rw [← Option.some.inj hvalue]
  cases current with
  | none =>
    simp only [CatalogRevision.next, pure_ok, ok_bind] at h
    exact ⟨fun _ => hnew h, nofun⟩
  | some r =>
    refine ⟨nofun, fun r' hr => ?_⟩
    rw [← Option.some.inj hr]
    simp only [CatalogRevision.next] at h
    split at h
    · cases h
    · rename_i hmax
      simp only [pure_ok, ok_bind] at h
      have hlt : r.value.toNat < 2 ^ 64 := r.value.toNat_lt
      have hne : r.value.toNat ≠ 2 ^ 64 - 1 := fun heq => hmax (UInt64.toNat_inj.mp heq)
      rw [hnew h, UInt64.lt_iff_toNat_lt, UInt64.toNat_add, Nat.mod_eq_of_lt]
      · exact Nat.lt_succ_self _
      · show r.value.toNat + 1 < 2 ^ 64
        omega

/-- Whether a snapshot can be built does not depend on the time it is taken at. -/
theorem buildSnapshot_other_time {records : List CatalogRecord}
    {time : UnixNanos} {limits : RegistryLimits}
    (h : ∃ s, buildSnapshot blake3 records time limits = .ok s) (other : UnixNanos) :
    ∃ s, buildSnapshot blake3 records other limits = .ok s := by
  obtain ⟨s, hs⟩ := h
  simp only [buildSnapshot, bind_eq_ok] at hs
  obtain ⟨revision, hrevision, _, hdisjoint, hs⟩ := hs
  split at hs
  · cases hs
  · rename_i hdigests
    obtain ⟨digests, hother⟩ := snapshotDigests_fits hdigests other
    unfold buildSnapshot
    rw [hrevision, ok_bind]
    dsimp only
    rw [hdisjoint, ok_bind, hother]
    exact ⟨_, rfl⟩

theorem Commits.currentRevision {batch : List CatalogRecord} {known : UnixNanos}
    (h : Commits blake3 registry registry' batch revision known) :
    registry'.currentRevision = some revision ∧
      registry'.records.getLast?.map (·.metadata.knownAt) = some known := by
  have hlast := h.batch _ (getLast_mem h.nonempty)
  rw [InstrumentRegistry.currentRevision, h.records, getLast?_append_of_ne_nil _ h.nonempty,
    getLast?_eq_some_getLast h.nonempty]
  exact ⟨congrArg some hlast.1, congrArg some hlast.2⟩

theorem Commits.logged {batch : List CatalogRecord} {known : UnixNanos}
    (h : Commits blake3 registry registry' batch revision known) (hlog : Logged blake3 registry) :
    Logged blake3 registry' := by
  obtain ⟨hcurrent, hlast⟩ := h.currentRevision
  obtain ⟨hfirst, hnext⟩ := next_gt h.next
  -- every record of the old log has an older revision and a time that is not later
  have hold : ∀ record ∈ registry.records, record.catalogRevision.value < revision.value ∧
      record.metadata.knownAt ≤ known := by
    intro record hmem
    have hne := ne_nil_of_mem hmem
    have hcurrentold := currentRevision_of_ne_nil hne
    have hknownold : registry.lastKnownAt =
        some (registry.records.getLast hne).metadata.knownAt := by
      rw [hlog.lastKnownAt, getLast?_eq_some_getLast hne]
      rfl
    exact ⟨UInt64.lt_of_le_of_lt (hlog.revisions record hmem _ hcurrentold) (hnext _ hcurrentold),
      Int64.le_trans (hlog.times record hmem _ hknownold) (h.later _ hknownold)⟩
  refine ⟨fun record hmem => ?_, fun record hmem current hc => ?_, fun record hmem time ht => ?_,
    h.lastKnownAt.trans hlast.symm, fun time hne => ?_, fun cut time htime => ?_⟩
  · rw [h.records] at hmem
    rcases hrecords : registry.records with _ | ⟨head, rest⟩
    · rw [hrecords, nil_append] at hmem
      rw [(h.batch record (mem_of_mem_head? hmem)).1]
      exact hfirst (by rw [InstrumentRegistry.currentRevision, hrecords]; rfl)
    · rw [hrecords] at hmem
      exact hlog.first record (by rw [hrecords]; exact hmem)
  · rw [hcurrent] at hc
    rw [← Option.some.inj hc]
    rw [h.records] at hmem
    rcases mem_append.mp hmem with hmem | hmem
    · exact UInt64.le_of_lt (hold record hmem).1
    · rw [(h.batch record hmem).1]
      exact UInt64.le_refl _
  · rw [h.lastKnownAt] at ht
    rw [← Option.some.inj ht]
    rw [h.records] at hmem
    rcases mem_append.mp hmem with hmem | hmem
    · exact (hold record hmem).2
    · rw [(h.batch record hmem).2]
      exact Int64.le_refl _
  · unfold InstrumentRegistry.snapshotAsKnownAt InstrumentRegistry.knownRecords at hne ⊢
    rw [h.records, h.limits] at *
    by_cases htime : known ≤ time
    · rw [takeWhile_append_of_all (fun record hmem => ?_) (fun record hmem => ?_)]
      · rw [← h.records, ← h.limits]
        exact buildSnapshot_other_time h.valid time
      · exact decide_eq_true (Int64.le_trans (hold record hmem).2 htime)
      · exact decide_eq_true ((h.batch record hmem).2 ▸ htime)
    · have hcut : ∀ record ∈ batch, decide (record.metadata.knownAt ≤ time) = false :=
        fun record hmem => decide_eq_false ((h.batch record hmem).2 ▸ htime)
      rw [takeWhile_append_of_none hcut] at hne ⊢
      exact hlog.knownAt time hne
  · unfold recordsAt at htime ⊢
    rw [h.records] at htime ⊢
    rw [h.limits]
    by_cases hrevision : revision.value ≤ cut.value
    · have hall : (registry.records ++ batch).takeWhile
          (fun record => record.catalogRevision.value ≤ cut.value) = registry.records ++ batch := by
        refine takeWhile_append_of_all (fun record hmem => ?_) (fun record hmem => ?_)
        · exact decide_eq_true (UInt64.le_trans (UInt64.le_of_lt (hold record hmem).1) hrevision)
        · exact decide_eq_true ((h.batch record hmem).1 ▸ hrevision)
      rw [hall] at htime ⊢
      rw [← h.records, ← h.limits]
      exact buildSnapshot_other_time h.valid time
    · have hcut : ∀ record ∈ batch, decide (record.catalogRevision.value ≤ cut.value) = false :=
        fun record hmem => decide_eq_false ((h.batch record hmem).1 ▸ hrevision)
      rw [takeWhile_append_of_none hcut] at htime ⊢
      exact hlog.atRevision cut time htime

theorem LogEffect.logged (h : LogEffect blake3 registry registry') (hlog : Logged blake3 registry) :
    Logged blake3 registry' := by
  cases h with
  | same hlimits hrecords hknown =>
    obtain ⟨limits, records, derived, known⟩ := registry
    obtain ⟨limits', records', derived', known'⟩ := registry'
    dsimp only at hlimits hrecords hknown
    subst hlimits hrecords hknown
    exact ⟨hlog.first, hlog.revisions, hlog.times, hlog.lastKnownAt, hlog.knownAt, hlog.atRevision⟩
  | commits hcommits => exact hcommits.logged hlog

/-- The later log is the earlier one with records of newer revisions. -/
def Extends (registry registry' : InstrumentRegistry) : Prop :=
  registry'.limits = registry.limits ∧ ∃ batch, registry'.records = registry.records ++ batch ∧
    ∀ record ∈ batch, ∀ current ∈ registry.currentRevision,
      current.value < record.catalogRevision.value

theorem Logged.currentRevision_le (hlog : Logged blake3 registry') (h : Extends registry registry')
    {current : CatalogRevision} (hrevision : registry.currentRevision = some revision)
    (hcurrent : registry'.currentRevision = some current) : revision.value ≤ current.value := by
  obtain ⟨-, batch, hrecords, -⟩ := h
  obtain ⟨last, hlast, rfl⟩ := map_eq_some_iff.mp hrevision
  refine hlog.revisions last ?_ current hcurrent
  rw [hrecords]
  exact mem_append_left _ (mem_of_getLast? hlast)

theorem run_extends (blake3 : Bytes → Hash32)
    (hlog : Logged blake3 registry) (calls : List RegistryCall) :
    Logged blake3 (registry.run blake3 calls) ∧ Extends registry (registry.run blake3 calls) := by
  induction calls using List.reverseRecOn with
  | nil => exact ⟨hlog, rfl, [], (append_nil _).symm, fun _ hmem => absurd hmem not_mem_nil⟩
  | append_singleton calls call ih =>
    obtain ⟨hlog', hextends⟩ := ih
    rw [run, foldl_append, foldl_cons, foldl_nil,
      ← run]
    have heffect := step_logEffect blake3 (registry.run blake3 calls) call
    refine ⟨heffect.logged hlog', ?_⟩
    obtain ⟨hlimits, batch, hrecords, hnewer⟩ := hextends
    cases heffect with
    | same hsame hrecords' _ => exact ⟨hsame.trans hlimits, batch, hrecords'.trans hrecords, hnewer⟩
    | @commits added revision _ hcommits =>
      refine ⟨hcommits.limits.trans hlimits, batch ++ added, ?_, fun record hmem current hc => ?_⟩
      · rw [hcommits.records, hrecords, append_assoc]
      · rcases mem_append.mp hmem with hmem | hmem
        · exact hnewer record hmem current hc
        · -- the last record of the old log is a record of the log the batch is added to
          rw [(hcommits.batch record hmem).1]
          obtain ⟨last, hlast, hrevision⟩ := map_eq_some_iff.mp hc
          have hne : (registry.run blake3 calls).records ≠ [] := by
            rw [hrecords]
            exact append_ne_nil_of_left_ne_nil
              (ne_nil_of_mem (mem_of_getLast? hlast)) batch
          have hcurrent := currentRevision_of_ne_nil hne
          exact UInt64.lt_of_le_of_lt
            (hlog'.currentRevision_le ⟨hlimits, batch, hrecords, hnewer⟩ hc hcurrent)
            ((next_gt hcommits.next).2 _ hcurrent)

/-! ## The queries -/

/-- The snapshot as known at a time does not change when the log grows by later knowledge. -/
theorem Extends.snapshotAsKnownAt (h : Extends registry registry') {time : UnixNanos}
    (hlater : ∀ record ∈ registry'.records.drop registry.records.length,
      time < record.metadata.knownAt) :
    registry'.snapshotAsKnownAt blake3 time = registry.snapshotAsKnownAt blake3 time := by
  obtain ⟨hlimits, batch, hrecords, -⟩ := h
  rw [hrecords, drop_left] at hlater
  unfold InstrumentRegistry.snapshotAsKnownAt InstrumentRegistry.knownRecords
  rw [hrecords, hlimits, takeWhile_append_of_none fun record hmem => ?_]
  exact decide_eq_false (Int64.not_le.mpr (hlater record hmem))

/-- The snapshot at a revision is the one that was current when the revision was. -/
theorem Extends.snapshotAtRevision (hlog : Logged blake3 registry) (hlog' : Logged blake3 registry')
    (h : Extends registry registry')
    (hrevision : registry.currentRevision = some revision) :
    registry'.snapshotAtRevision blake3 revision = registry.snapshot blake3 := by
  have hcut : registry'.recordsAt revision = registry.records := by
    obtain ⟨-, batch, hrecords, hnewer⟩ := h
    unfold recordsAt
    rw [hrecords, takeWhile_append_of_none fun record hmem => ?_, takeWhile_eq_self_iff]
    · exact fun record hmem => decide_eq_true (hlog.revisions record hmem revision hrevision)
    · exact decide_eq_false (UInt64.not_le.mpr (hnewer record hmem revision hrevision))
  have havailable : ¬ ∀ current ∈ registry'.currentRevision, revision.value > current.value := by
    intro hall
    obtain ⟨last, hlast, -⟩ := map_eq_some_iff.mp hrevision
    have hne : registry'.records ≠ [] := by
      rw [h.2.choose_spec.1]
      exact append_ne_nil_of_left_ne_nil
        (ne_nil_of_mem (mem_of_getLast? hlast)) _
    have hcurrent := currentRevision_of_ne_nil hne
    exact absurd (hlog'.currentRevision_le h hrevision hcurrent)
      (UInt64.not_le.mpr (hall _ hcurrent))
  unfold InstrumentRegistry.snapshotAtRevision InstrumentRegistry.snapshot
  rw [reject_neg havailable, ok_bind, hcut, ← hlog.lastKnownAt, h.1]

theorem Logged.snapshot_ok (hlog : Logged blake3 registry) (h : registry.records ≠ []) :
    ∃ s, registry.snapshot blake3 = .ok s := by
  have hlast : registry.records.getLast? = some (registry.records.getLast h) :=
    getLast?_eq_some_getLast h
  have hrevision := currentRevision_of_ne_nil h
  have hcut : registry.recordsAt (registry.records.getLast h).catalogRevision =
      registry.records := by
    rw [recordsAt, takeWhile_eq_self_iff]
    exact fun record hmem => decide_eq_true (hlog.revisions record hmem _ hrevision)
  have hvalid := hlog.atRevision (registry.records.getLast h).catalogRevision
    (registry.records.getLast h).metadata.knownAt (by rw [hcut, hlast]; rfl)
  unfold InstrumentRegistry.snapshot
  rw [hlog.lastKnownAt, hlast, map_some, required_some, ok_bind]
  rw [hcut] at hvalid
  exact hvalid

theorem Logged.snapshotAtRevision_ok (hlog : Logged blake3 registry) {current : CatalogRevision}
    (hcurrent : registry.currentRevision = some current) (hle : revision.value ≤ current.value) :
    ∃ s, registry.snapshotAtRevision blake3 revision = .ok s := by
  have havailable : ¬ ∀ c ∈ registry.currentRevision, revision.value > c.value :=
    fun hall => absurd hle (UInt64.not_le.mpr (hall current hcurrent))
  -- the first record has revision 1, so the cut has records
  have hne : registry.recordsAt revision ≠ [] := by
    obtain ⟨last, hlast, -⟩ := map_eq_some_iff.mp hcurrent
    rcases hrecords : registry.records with _ | ⟨first, rest⟩
    · rw [hrecords] at hlast
      cases hlast
    · have hfirst : first.catalogRevision.value = 1 :=
        hlog.first first (by rw [hrecords]; rfl)
      have hpos : first.catalogRevision.value ≤ revision.value := by
        rw [hfirst, UInt64.le_iff_toNat_le]
        exact Nat.one_le_iff_ne_zero.mpr fun hzero =>
          revision.value_ne_zero (UInt64.toNat_inj.mp hzero)
      rw [recordsAt, hrecords, takeWhile_cons, decide_eq_true hpos]
      exact cons_ne_nil _ _
  have hlast : (registry.recordsAt revision).getLast?.map (·.metadata.knownAt) =
      some ((registry.recordsAt revision).getLast hne).metadata.knownAt := by
    rw [getLast?_eq_some_getLast hne]
    rfl
  unfold InstrumentRegistry.snapshotAtRevision
  rw [reject_neg havailable, ok_bind, hlast, required_some, ok_bind]
  exact hlog.atRevision revision _ hlast

/-- No call changes or removes a record, and what a later call adds has a later revision. -/
theorem catalog_append_only (blake3 : Bytes → Hash32) (limits : RegistryLimits)
    (calls later : List RegistryCall) :
    Extends ((withLimits limits).run blake3 calls)
      (((withLimits limits).run blake3 calls).run blake3 later) := by
  obtain ⟨hlog, -⟩ := run_extends blake3 (logged_start blake3 limits) calls
  exact (run_extends blake3 hlog later).2

/-- Catalog knowledge is immutable: for every run and every continuation of it, the snapshot as
    known at a time stays when all later records are known later, the snapshot at a committed
    revision stays the one that was current, and no query fails on a cut that has records. -/
theorem knowledge_immutable (blake3 : Bytes → Hash32) (limits : RegistryLimits)
    (calls later : List RegistryCall) :
    let registry := (withLimits limits).run blake3 calls
    let registry' := registry.run blake3 later
    (∀ time, (∀ record ∈ registry'.records.drop registry.records.length,
        time < record.metadata.knownAt) →
      registry'.snapshotAsKnownAt blake3 time = registry.snapshotAsKnownAt blake3 time) ∧
    (∀ revision, registry.currentRevision = some revision →
      registry'.snapshotAtRevision blake3 revision = registry.snapshot blake3) ∧
    (registry.records ≠ [] → ∃ s, registry.snapshot blake3 = .ok s) ∧
    (∀ time, registry.knownRecords time ≠ [] →
      ∃ s, registry.snapshotAsKnownAt blake3 time = .ok s) ∧
    ∀ revision current, registry.currentRevision = some current → revision.value ≤ current.value →
      ∃ s, registry.snapshotAtRevision blake3 revision = .ok s := by
  intro registry registry'
  obtain ⟨hlog, -⟩ := run_extends blake3 (logged_start blake3 limits) calls
  obtain ⟨hlog', hextends⟩ := run_extends blake3 hlog later
  exact ⟨fun time hlater => hextends.snapshotAsKnownAt hlater,
    fun revision hrevision => hextends.snapshotAtRevision hlog hlog' hrevision,
    hlog.snapshot_ok, hlog.knownAt, fun revision current => hlog.snapshotAtRevision_ok⟩

theorem sampleCatalog_facts :
    (sampleCatalog [listCall firstListing 5]).currentRevision = some ⟨1, by decide⟩ ∧
      (sampleCatalog [listCall firstListing 5]).knownRecords 6 ≠ [] ∧
      (∀ record ∈ ((sampleCatalog [listCall firstListing 5]).run (fun _ => zeroHash)
          [listCall secondListing 8]).records.drop
            (sampleCatalog [listCall firstListing 5]).records.length,
        (6 : UnixNanos) < record.metadata.knownAt) ∧
      ((sampleCatalog [listCall firstListing 5]).run (fun _ => zeroHash)
        [listCall secondListing 8]).records.map (·.instrument.id.generation) = [1, 2] := by
  decide +kernel

/-- A second listing becomes known at 8. The catalog as known at 6 and the catalog at revision 1
    stay as they were, and the query at 6 does not fail. -/
theorem knowledge_immutable_sample :
    ((sampleCatalog [listCall firstListing 5]).run (fun _ => zeroHash)
        [listCall secondListing 8]).snapshotAsKnownAt (fun _ => zeroHash) 6 =
      (sampleCatalog [listCall firstListing 5]).snapshotAsKnownAt (fun _ => zeroHash) 6 ∧
    ((sampleCatalog [listCall firstListing 5]).run (fun _ => zeroHash)
        [listCall secondListing 8]).snapshotAtRevision (fun _ => zeroHash) ⟨1, by decide⟩ =
      (sampleCatalog [listCall firstListing 5]).snapshot (fun _ => zeroHash) ∧
    ∃ s, (sampleCatalog [listCall firstListing 5]).snapshotAsKnownAt (fun _ => zeroHash) 6 =
      .ok s := by
  obtain ⟨hrevision, hcut, hlater, -⟩ := sampleCatalog_facts
  obtain ⟨hknown, hat, -, hcutok, -⟩ := knowledge_immutable (fun _ => zeroHash) default
    [listCall firstListing 5] [listCall secondListing 8]
  exact ⟨hknown 6 hlater, hat _ hrevision, hcutok 6 hcut⟩

end CryptoIntelligence.Registry
