/-
  The canonical source-event identity is injective and depends on the source event alone.

  What is proved: for validated pairs the written bytes determine every identity field of the
  metadata and the whole payload, and depend on nothing else (`canonicalEventBytes_eq_iff`). On
  the way, a validated pair is always written (`canonicalEventBytes_writes`): validation bounds
  every length the writer could refuse.
-/
import CryptoIntelligence.Event.Canonical

namespace CryptoIntelligence.Event

open Lib Decimal Domain Writer UncheckedEventMetadata UncheckedEventPayload

/-! ## Metadata is read back -/

/-- What the instrument of the metadata shows: its product type from schema version 3 on. -/
def SameInstrument (schemaVersion : UInt32) (a b : InstrumentId) : Prop :=
  a.venue = b.venue ∧ a.venueSymbol = b.venueSymbol ∧ a.generation = b.generation ∧
    (schemaVersion ≥ 3 → a.productType = b.productType)

theorem instrument_reads (schemaVersion : UInt32) :
    Reads (fun _ _ => True) (instrument schemaVersion) (SameInstrument schemaVersion) := by
  unfold instrument
  by_cases h : schemaVersion ≥ 3
  · simp only [if_pos h]
    refine venue_free.cons (string_free.cons ((u8_free.comp ProductType.toU8_injective).cons
      (u32_free.cons (.nil ?_))))
    rintro a b ⟨⟨⟨⟨-, hvenue⟩, hsymbol⟩, hproduct⟩, hgeneration⟩
    exact ⟨hvenue, hsymbol, hgeneration, fun _ => hproduct⟩
  · simp only [if_neg h]
    refine venue_free.cons (string_free.cons (u32_free.cons (.nil ?_)))
    rintro a b ⟨⟨⟨-, hvenue⟩, hsymbol⟩, hgeneration⟩
    exact ⟨hvenue, hsymbol, hgeneration, fun h' => absurd h' h⟩

/-- The metadata fields that identify a source event. -/
structure SameSourceEvent (m m' : UncheckedEventMetadata) : Prop where
  schemaVersion : m.schemaVersion = m'.schemaVersion
  source : m.source = m'.source
  venue : m.venue = m'.venue
  instrumentId : m.instrumentId = m'.instrumentId
  exchangeTimestamp : m.exchangeTimestamp = m'.exchangeTimestamp
  exchangeTransactionTimestamp : m.exchangeTransactionTimestamp = m'.exchangeTransactionTimestamp
  sequenceNumber : m.sequenceNumber = m'.sequenceNumber
  previousSequenceNumber : m.schemaVersion ≥ 2 →
    m.previousSequenceNumber = m'.previousSequenceNumber

/-- Two pieces of metadata of one schema version whose instruments below version 3 are Spot. -/
def Comparable (schemaVersion : UInt32) (m m' : UncheckedEventMetadata) : Prop :=
  m.schemaVersion = schemaVersion ∧ m'.schemaVersion = schemaVersion ∧
    (schemaVersion < 3 → ∀ i ∈ m.instrumentId, i.productType = .spot) ∧
    (schemaVersion < 3 → ∀ i ∈ m'.instrumentId, i.productType = .spot)

/-- Instruments that show the same identity are equal: below version 3 both are Spot. -/
theorem instrumentId_eq_of_rel {v : UInt32} {o o' : Option InstrumentId}
    (h : Option.Rel (SameInstrument v) o o')
    (hs : v < 3 → ∀ i ∈ o, i.productType = .spot)
    (hs' : v < 3 → ∀ i ∈ o', i.productType = .spot) : o = o' := by
  cases h with
  | none => rfl
  | @some a b h =>
    obtain ⟨hvenue, hsymbol, hgeneration, hproduct⟩ := h
    have hp : a.productType = b.productType := by
      by_cases hv : v ≥ 3
      · exact hproduct hv
      · have hlt : v < 3 := by simpa using hv
        rw [hs hlt a rfl, hs' hlt b rfl]
    exact congrArg some (InstrumentId.ext hvenue hsymbol hp hgeneration)

/-- What the identity fields up to the sequence number show. -/
def IdentityRead (v : UInt32) (m m' : UncheckedEventMetadata) : Prop :=
  (((((((Comparable v m m' ∧ m.source.kind = m'.source.kind) ∧
    m.source.name = m'.source.name) ∧ m.source.generation = m'.source.generation) ∧
    m.venue = m'.venue) ∧ Option.Rel (SameInstrument v) m.instrumentId m'.instrumentId) ∧
    m.exchangeTimestamp = m'.exchangeTimestamp) ∧
    m.exchangeTransactionTimestamp = m'.exchangeTransactionTimestamp) ∧
    m.sequenceNumber = m'.sequenceNumber

variable {m : UncheckedEventMetadata} {s : String}

theorem IdentityRead.same {v : UInt32} {m' : UncheckedEventMetadata} (h : IdentityRead v m m')
    (hprev : v ≥ 2 → m.previousSequenceNumber = m'.previousSequenceNumber) :
    SameSourceEvent m m' := by
  obtain ⟨⟨⟨⟨⟨⟨⟨⟨⟨hm, hm', hs, hs'⟩, hk⟩, hn⟩, hg⟩, hvenue⟩, hi⟩, he⟩, het⟩, hseq⟩ := h
  exact ⟨hm.trans hm'.symm, SourceId.ext hk hn hg, hvenue, instrumentId_eq_of_rel hi hs hs', he,
    het, hseq, fun hv => hprev (hm ▸ hv)⟩

/-- The identity fields of one schema version, before the previous sequence number. -/
theorem identityFields_reads (v : UInt32) (tail : UncheckedEventMetadata → List Written)
    (htail : Reads (IdentityRead v) (fun m => concat (tail m)) SameSourceEvent) :
    Reads (Comparable v) (fun m => concat (u8 m.source.kind.toU8 :: string m.source.name ::
      u32 m.source.generation :: optional (fun v : VenueId => string v.value) m.venue ::
      optional (instrument v) m.instrumentId :: optional i64 m.exchangeTimestamp ::
      optional i64 m.exchangeTransactionTimestamp :: optional u64 m.sequenceNumber :: tail m))
      SameSourceEvent :=
  (u8_free.comp SourceKind.toU8_injective).cons (string_free.cons (u32_free.cons
    ((optional_prefixFree venue_free).cons ((optional_reads (instrument_reads v)).cons
    ((optional_prefixFree i64_free).cons ((optional_prefixFree i64_free).cons
    ((optional_prefixFree u64_free).cons htail)))))))

theorem encodeIdentityMetadata_reads (v : UInt32) :
    Reads (Comparable v) encodeIdentityMetadata SameSourceEvent := by
  intro m m' x y r s hknown hx hy hxy
  unfold encodeIdentityMetadata at hx hy
  rw [hknown.1] at hx
  rw [hknown.2.1] at hy
  by_cases hv : v ≥ 2
  · rw [if_pos hv] at hx hy
    refine identityFields_reads v (fun m => [optional u64 m.previousSequenceNumber])
      ((optional_prefixFree u64_free).cons (.nil ?_)) m m' x y r s hknown hx hy hxy
    exact fun m m' h => h.1.same fun _ => h.2
  · rw [if_neg hv] at hx hy
    refine identityFields_reads v (fun _ => []) (.nil ?_) m m' x y r s hknown hx hy hxy
    exact fun m m' h => h.same fun h' => absurd h' hv

/-! ## Validated pairs are always written -/

/-- The writer returned bytes. -/
def Writes (w : Written) : Prop := ∃ x, w = .ok x

theorem concat_writes {fields : List Written} (h : ∀ f ∈ fields, Writes f) :
    Writes (concat fields) := by
  induction fields with
  | nil => exact ⟨[], rfl⟩
  | cons f fields ih =>
    obtain ⟨x, hx⟩ := h f (by simp)
    obtain ⟨y, hy⟩ := ih fun g hg => h g (by simp [hg])
    exact ⟨x ++ y, concat_cons_eq_ok.mpr ⟨x, y, hx, hy, rfl⟩⟩

@[simp] theorem u8_writes (n : UInt8) : Writes (u8 n) := ⟨_, rfl⟩

@[simp] theorem boolean_writes (b : Bool) : Writes (boolean b) := ⟨_, rfl⟩

@[simp] theorem u32_writes (n : UInt32) : Writes (u32 n) := ⟨_, rfl⟩

@[simp] theorem u64_writes (n : UInt64) : Writes (u64 n) := ⟨_, rfl⟩

@[simp] theorem i64_writes (n : Int64) : Writes (i64 n) := ⟨_, rfl⟩

theorem bytes_writes {b : Bytes} (h : b.length < 2 ^ 32) : Writes (bytes b) :=
  ⟨_, by unfold bytes lengthPrefixed; exact if_pos h⟩

@[simp] theorem hash_writes (h : Hash32) : Writes (bytes h.toList) :=
  bytes_writes (by simp)

theorem string_writes (h : s.toList.length ≤ 4096) : Writes (string s) := by
  have hle := utf8_length_le s
  exact bytes_writes (by omega)

@[simp] theorem decimal_writes (d : FixedDecimal) : Writes (decimal d) :=
  string_writes (le_trans d.display_length_le (by decide))

theorem component_writes {maximumLength : Nat} (h : isComponent maximumLength s = true)
    (hmax : maximumLength ≤ 4096) : Writes (string s) := by
  simp only [isComponent, Bool.and_eq_true, decide_eq_true_eq] at h
  exact string_writes (le_trans h.1.2 hmax)

theorem normalized_writes {case : Char → Char} {maximumLength : Nat}
    (h : isNormalized case maximumLength s = true) (hmax : maximumLength ≤ 4096) :
    Writes (string s) := by
  simp only [isNormalized, Bool.and_eq_true] at h
  exact component_writes h.1 hmax

theorem optional_writes {α : Type} {encode : α → Written} {o : Option α}
    (h : ∀ a ∈ o, Writes (encode a)) : Writes (optional encode o) := by
  cases o with
  | none => exact ⟨_, rfl⟩
  | some a =>
    refine concat_writes ?_
    simpa using ⟨⟨_, rfl⟩, h a rfl⟩

theorem collection_writes {α : Type} {encode : α → Written} {values : List α}
    (hlen : values.length ≤ 100000) (h : ∀ a ∈ values, Writes (encode a)) :
    Writes (collection encode values) := by
  unfold collection counted
  rw [if_pos (by omega)]
  refine concat_writes ?_
  simpa using ⟨⟨_, rfl⟩, h⟩

@[simp] theorem venue_writes (v : VenueId) : Writes (venue v) :=
  normalized_writes v.normalized (by decide)

@[simp] theorem source_writes (v : SourceId) : Writes (source v) :=
  concat_writes (by simpa using normalized_writes v.normalized (by decide))

theorem asset_chain_writes (v : AssetId) : Writes (string v.chainId) := by
  have h := v.chain_valid
  unfold isChainId at h
  split at h
  all_goals first
    | exact component_writes h (by decide)
    | exact string_writes (by rw [beq_iff_eq.mp h]; decide)

theorem asset_contract_writes (v : AssetId) : Writes (string v.contractOrMint) := by
  have h := v.contract_valid
  unfold isContractOrMint at h
  split at h
  all_goals first
    | exact normalized_writes h (by decide)
    | exact component_writes h (by decide)
    | exact string_writes (by rw [beq_iff_eq.mp h]; decide)

@[simp] theorem asset_writes (v : AssetId) : Writes (asset v) := by
  refine concat_writes ?_
  simpa using ⟨asset_chain_writes v, asset_contract_writes v,
    normalized_writes v.symbol_normalized (by decide)⟩

@[simp] theorem level_writes (v : BookLevel) : Writes (level v) := by
  refine concat_writes ?_
  simpa using optional_writes fun _ _ => u32_writes _

@[simp] theorem optional_i64_writes (o : Option Int64) : Writes (optional i64 o) :=
  optional_writes fun _ _ => i64_writes _

@[simp] theorem optional_u64_writes (o : Option UInt64) : Writes (optional u64 o) :=
  optional_writes fun _ _ => u64_writes _

@[simp] theorem optional_decimal_writes {validate : FixedDecimal → Bool}
    (o : Option (Wrapped validate)) : Writes (optional (fun w => decimal w.value) o) :=
  optional_writes fun _ _ => decimal_writes _

@[simp] theorem instrumentDefinition_writes (v : InstrumentDefinition) :
    Writes (instrumentDefinition v) := by
  have hside : Writes (optional (fun side : OptionSide => u8 side.toU8) v.optionSide) :=
    optional_writes fun _ _ => u8_writes _
  refine concat_writes ?_
  simpa [hside] using normalized_writes v.id.symbol_normalized (by decide)

theorem encodeIdentityMetadata_writes (m : UncheckedEventMetadata) :
    Writes (encodeIdentityMetadata m) := by
  have hsource : Writes (string m.source.name) := normalized_writes m.source.normalized (by decide)
  have hvenue : Writes (optional (fun v : VenueId => string v.value) m.venue) :=
    optional_writes fun v _ => venue_writes v
  have hinstrument : Writes (optional (instrument m.schemaVersion) m.instrumentId) := by
    refine optional_writes fun i _ => concat_writes ?_
    have hv : Writes (string i.venue.value) := venue_writes i.venue
    have hs : Writes (string i.venueSymbol) := normalized_writes i.symbol_normalized (by decide)
    split <;> simp [hv, hs]
  refine concat_writes ?_
  split <;> simp [hsource, hvenue, hinstrument]

/-! ### Lengths that validation bounds -/

theorem validateText_ok {value field : String} (h : validateText value field = .ok ()) :
    Writes (string value) := by
  simp only [validateText, reject_eq_ok, Bool.or_eq_true, not_or, decide_eq_true_eq] at h
  obtain ⟨⟨⟨_, hlen⟩, _⟩, _⟩ := h
  exact bytes_writes (by unfold maxText at hlen; omega)

theorem validMetadataText_writes {value : String} (h : validMetadataText value = true) :
    Writes (string value) := by
  simp only [validMetadataText, Bool.and_eq_true, decide_eq_true_eq] at h
  obtain ⟨⟨⟨_, hlen⟩, _⟩, _⟩ := h
  exact bytes_writes (by unfold maxMetadataText at hlen; omega)

theorem validateOptionalText_ok {value : Option String} {field : String}
    (h : validateOptionalText value field = .ok ()) : Writes (optional string value) := by
  refine optional_writes ?_
  rintro s rfl
  exact validateText_ok h

theorem validateBook_lengths {bids asks : List BookLevel} {zero uncrossed : Bool}
    (h : validateBook bids asks zero uncrossed = .ok ()) :
    bids.length ≤ 100000 ∧ asks.length ≤ 100000 := by
  simp only [validateBook, bind_eq_ok, reject_eq_ok] at h
  obtain ⟨_, hlen, _⟩ := h
  unfold maxBookLevels at hlen
  omega

theorem levels_writes {l : List BookLevel} (h : l.length ≤ 100000) : Writes (levels l) :=
  collection_writes h fun _ _ => level_writes _

theorem structuredEvent_writes {v : StructuredEvent} (h : v.validate = .ok ()) :
    ∀ f ∈ payloadFields (.structuredEvent v), Writes f := by
  simp only [StructuredEvent.validate, bind_eq_ok, reject_eq_ok, not_or] at h
  obtain ⟨_, hid, _, htype, _, hmodel, _, hprompt, _, -, _, -, _, -, _, -, _,
    ⟨-, hassets, hvenues, hprotocols, hfacts, -⟩, _, heach, hfact⟩ := h
  unfold maxCollection at hassets hvenues hprotocols hfacts
  have hfact' : ∀ x ∈ v.extractedFacts, Writes (fact x) := by
    intro x hx
    have hxy := checkAll_eq_ok.mp hfact x hx
    simp only [bind_eq_ok] at hxy
    obtain ⟨_, hkey, hvalue⟩ := hxy
    exact concat_writes (by simpa using ⟨validateText_ok hkey, validateText_ok hvalue⟩)
  have h1 : Writes (assets v.affectedAssets) :=
    collection_writes (by omega) fun _ _ => asset_writes _
  have h2 : Writes (venues v.affectedVenues) :=
    collection_writes (by omega) fun _ _ => venue_writes _
  have h3 : Writes (strings v.affectedProtocols) :=
    collection_writes (by omega) fun s hs => validateText_ok (checkAll_eq_ok.mp heach s hs)
  have h4 : Writes (collection fact v.extractedFacts) := collection_writes (by omega) hfact'
  simp [payloadFields, validateText_ok hid, validateText_ok htype, validateText_ok hmodel,
    validateText_ok hprompt, h1, h2, h3, h4]

theorem predictionRecord_writes {v : PredictionRecord} (h : v.validate = .ok ()) :
    ∀ f ∈ payloadFields (.predictionRecord v), Writes f := by
  simp only [PredictionRecord.validate, bind_eq_ok] at h
  obtain ⟨_, htexts, _, hsupersedes, _⟩ := h
  have ht := checkAll_eq_ok.mp htexts
  simp only [List.forall_mem_cons, List.not_mem_nil, false_implies, implies_true, and_true] at ht
  obtain ⟨h1, h2, h3, h4, h5, h6⟩ := ht
  simp [payloadFields, validateText_ok h1, validateText_ok h2, validateText_ok h3,
    validateText_ok h4, validateText_ok h5, validateText_ok h6, validateOptionalText_ok hsupersedes]

/-- Validation bounds every length that the canonical writer could refuse. -/
theorem encodePayload_writes {p : UncheckedEventPayload}
    (h : p.validate m = .ok ()) : Writes (encodePayload p) := by
  simp only [UncheckedEventPayload.validate, bind_eq_ok, reject_eq_ok] at h
  obtain ⟨_, -, _, -, h⟩ := h
  refine concat_writes (List.forall_mem_cons.mpr ⟨u8_writes _, ?_⟩)
  cases p with
  | trade v =>
    simp only [bind_eq_ok, reject_eq_ok, Bool.or_eq_true, not_or, Bool.not_eq_true',
      Bool.not_eq_false] at h
    obtain ⟨_, ⟨hid, -⟩, -⟩ := h
    simp [payloadFields, validMetadataText_writes hid]
  | topOfBook v =>
    have h1 : Writes (optional level v.bid) := optional_writes fun _ _ => level_writes _
    have h2 : Writes (optional level v.ask) := optional_writes fun _ _ => level_writes _
    simp [payloadFields, h1, h2]
  | bookSnapshot v =>
    simp only [bind_eq_ok] at h
    obtain ⟨_, hb, -⟩ := h
    have hlen := validateBook_lengths hb
    simp [payloadFields, levels_writes hlen.1, levels_writes hlen.2]
  | bookDelta v =>
    simp only [bind_eq_ok] at h
    obtain ⟨_, hb, -⟩ := h
    have hlen := validateBook_lengths hb
    simp [payloadFields, levels_writes hlen.1, levels_writes hlen.2]
  | instrumentDefinition v => simp [payloadFields]
  | fundingObservation v => simp [payloadFields]
  | openInterestObservation v => simp [payloadFields]
  | liquidationObservation v =>
    simp only [LiquidationObservation.validate, bind_eq_ok] at h
    obtain ⟨_, ⟨_, hid, -⟩, -⟩ := h
    simp [payloadFields, validateText_ok hid]
  | markIndexObservation v => simp [payloadFields]
  | futureBasisObservation v => simp [payloadFields]
  | optionTicker v => simp [payloadFields]
  | optionTrade v =>
    simp only [OptionTrade.validate, bind_eq_ok] at h
    obtain ⟨_, ⟨_, hid, -⟩, -⟩ := h
    simp [payloadFields, validateText_ok hid]
  | venueStatus v =>
    simp only [VenueStatus.validate, bind_eq_ok] at h
    obtain ⟨_, hmessage, -⟩ := h
    simp [payloadFields, validateOptionalText_ok hmessage]
  | chainBlock v =>
    simp only [ChainBlock.validate, bind_eq_ok] at h
    obtain ⟨_, ⟨_, hhash, hparent⟩, -⟩ := h
    simp [payloadFields, validateText_ok hhash, validateOptionalText_ok hparent]
  | chainTransactionAggregate v => simp [payloadFields]
  | chainMempoolObservation v => simp [payloadFields]
  | chainMetric v =>
    simp only [ChainMetric.validate, bind_eq_ok] at h
    obtain ⟨_, -, _, -, hname⟩ := h
    simp [payloadFields, validateText_ok hname]
  | externalMarketObservation v =>
    simp only [ExternalMarketObservation.validate, bind_eq_ok] at h
    obtain ⟨_, ⟨_, hid, hnative⟩, -⟩ := h
    simp [payloadFields, validateText_ok hid, validateOptionalText_ok hnative]
  | structuredEvent v =>
    simp only [bind_eq_ok] at h
    obtain ⟨_, hv, -⟩ := h
    exact structuredEvent_writes hv
  | dataQualityObservation v =>
    simp only [DataQualityObservation.validate, bind_eq_ok] at h
    obtain ⟨_, ⟨_, hcomponent, _, -, hdetails⟩, -⟩ := h
    simp [payloadFields, validateText_ok hcomponent, validateOptionalText_ok hdetails]
  | predictionRecord v =>
    simp only [bind_eq_ok] at h
    obtain ⟨_, hv, -⟩ := h
    exact predictionRecord_writes hv
  | alertEvent v =>
    simp only [AlertEvent.validate, bind_eq_ok] at h
    obtain ⟨_, ⟨_, hid, _, hrule, _, hmessage, _, hforecast, -⟩, -⟩ := h
    simp [payloadFields, validateText_ok hid, validateText_ok hrule, validateText_ok hmessage,
      validateOptionalText_ok hforecast]

/-! ## The identity -/

theorem eventDomain_ok {v : UInt32} {x : Bytes} (h : eventDomain v = .ok x) :
    (v = 1 ∧ x = eventDomainV1) ∨ (v = 2 ∧ x = eventDomainV2) ∨ (v = 3 ∧ x = eventDomainV3) := by
  unfold eventDomain at h
  split at h
  · exact Or.inl ⟨‹_›, (Except.ok.inj h).symm⟩
  · split at h
    · exact Or.inr (Or.inl ⟨‹_›, (Except.ok.inj h).symm⟩)
    · split at h
      · exact Or.inr (Or.inr ⟨‹_›, (Except.ok.inj h).symm⟩)
      · cases h

/-- The three domain tags have one length and are distinct. -/
theorem eventDomain_free : PrefixFree eventDomain := by
  intro v w x y r s _ hx hy hxy
  have hlen : x.length = y.length := by
    rcases eventDomain_ok hx with ⟨-, rfl⟩ | ⟨-, rfl⟩ | ⟨-, rfl⟩ <;>
      rcases eventDomain_ok hy with ⟨-, rfl⟩ | ⟨-, rfl⟩ | ⟨-, rfl⟩ <;> decide
  obtain ⟨rfl, hrs⟩ := List.append_inj hxy hlen
  refine ⟨?_, hrs⟩
  rcases eventDomain_ok hx with ⟨rfl, htag⟩ | ⟨rfl, htag⟩ | ⟨rfl, htag⟩ <;>
    rcases eventDomain_ok hy with ⟨rfl, htag'⟩ | ⟨rfl, htag'⟩ | ⟨rfl, htag'⟩ <;>
      first | rfl | exact absurd (htag.symm.trans htag') (by decide)

theorem canonicalEventBytes_writes {p : UncheckedEventPayload}
    (h : p.validate m = .ok ()) : Writes (canonicalEventBytes m p) := by
  have hdomain : Writes (eventDomain m.schemaVersion) := by
    obtain ⟨hv | hv | hv, -⟩ := validate_schema
      (validate_metadata h) <;> rw [hv] <;> exact ⟨_, rfl⟩
  refine concat_writes ?_
  simpa using ⟨hdomain, encodeIdentityMetadata_writes m, encodePayload_writes h⟩

/-- The written bytes depend on nothing but the identity fields and the payload. -/
theorem canonicalEventBytes_congr {m' : UncheckedEventMetadata} (h : SameSourceEvent m m')
    (p : UncheckedEventPayload) : canonicalEventBytes m p = canonicalEventBytes m' p := by
  have htail : (if m'.schemaVersion ≥ 2 then [optional u64 m.previousSequenceNumber] else []) =
      if m'.schemaVersion ≥ 2 then [optional u64 m'.previousSequenceNumber] else [] := by
    split
    · rename_i hv
      rw [h.previousSequenceNumber (h.schemaVersion ▸ hv)]
    · rfl
  unfold canonicalEventBytes encodeIdentityMetadata
  rw [h.schemaVersion, h.source, h.venue, h.instrumentId, h.exchangeTimestamp,
    h.exchangeTransactionTimestamp, h.sequenceNumber, htail]

/-- The canonical bytes of two validated events are equal exactly when the events agree on schema
    version, source, venue, instrument, exchange times, sequence number, previous sequence number
    (from schema version 2 on) and the whole payload. -/
theorem canonicalEventBytes_eq_iff {m m' : UncheckedEventMetadata} {p p' : UncheckedEventPayload}
    (h : p.validate m = .ok ()) (h' : p'.validate m' = .ok ()) :
    canonicalEventBytes m p = canonicalEventBytes m' p' ↔ SameSourceEvent m m' ∧ p = p' := by
  constructor
  · intro heq
    obtain ⟨z, hz⟩ := canonicalEventBytes_writes h
    have hz' : canonicalEventBytes m' p' = .ok z := heq ▸ hz
    obtain ⟨d, x, hd, hx, rfl⟩ := concat_cons_eq_ok.mp hz
    obtain ⟨d', x', hd', hx', hxx⟩ := concat_cons_eq_ok.mp hz'
    obtain ⟨hschema, hrest⟩ := eventDomain_free _ _ _ _ _ _ trivial hd hd' hxx
    subst hrest
    have hcomparable : Comparable m.schemaVersion m m' :=
      ⟨rfl, hschema.symm,
        (validate_schema (validate_metadata h)).2,
        hschema ▸
          (validate_schema (validate_metadata h')).2⟩
    obtain ⟨a, b, ha, hb, rfl⟩ := concat_cons_eq_ok.mp hx
    obtain ⟨a', b', ha', hb', hab⟩ := concat_cons_eq_ok.mp hx'
    obtain ⟨hsame, hpayload⟩ :=
      encodeIdentityMetadata_reads m.schemaVersion m m' _ _ _ _ hcomparable ha ha' hab
    subst hpayload
    obtain ⟨c, e, hc, he, rfl⟩ := concat_cons_eq_ok.mp hb
    obtain ⟨c', e', hc', he', hce⟩ := concat_cons_eq_ok.mp hb'
    obtain ⟨hp, -⟩ := encodePayload_free p p' _ _ _ _ trivial hc hc' hce
    exact ⟨hsame, hp⟩
  · rintro ⟨hsame, rfl⟩
    exact canonicalEventBytes_congr hsame p

/-- A spot trade metadata record at schema version 2. -/
def tradeMetadata : UncheckedEventMetadata where
  schemaVersion := 2
  source := krakenSource
  venue := some krakenSpot.venue
  instrumentId := some krakenSpot
  exchangeTimestamp := some 1000
  exchangeTransactionTimestamp := none
  receiveWallTimestamp := 1500
  receiveMonotonicNs := 20
  normalizationTimestamp := 1600
  connectionStartedAt := 500
  sequenceNumber := some 7
  previousSequenceNumber := some 6
  connectionEpoch := 1
  subscriptionEpoch := 1
  snapshotKind := .notApplicable
  sourceChecksum := none
  rawPayloadHash := Vector.replicate 32 1
  parserVersion := "p1"
  normalizerVersion := "n1"
  ingestionInstance := "i1"
  qualityScorePpm := 1000000
  qualityFlags := 0

def tradePayload : UncheckedEventPayload :=
  .trade ⟨"t-1", ⟨.whole 100 (by decide), by decide⟩,
    ⟨⟨15, 1, by decide, by decide, by decide⟩, by decide⟩, .buy⟩

/-- One trade received a second time, later and over another connection. -/
theorem canonicalEventBytes_eq_iff_replayed :
    tradePayload.validate tradeMetadata = .ok () ∧
      (canonicalEventBytes tradeMetadata tradePayload =
          canonicalEventBytes { tradeMetadata with receiveMonotonicNs := 90, connectionEpoch := 2 }
            tradePayload ↔
        SameSourceEvent tradeMetadata
            { tradeMetadata with receiveMonotonicNs := 90, connectionEpoch := 2 } ∧
          tradePayload = tradePayload) :=
  ⟨by decide, canonicalEventBytes_eq_iff (by decide) (by decide)⟩

end CryptoIntelligence.Event
