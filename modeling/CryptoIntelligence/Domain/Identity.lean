/-
  Canonical generation-aware identities (`domain`): venues, assets, sources and instruments.
  Each is a structure that carries what its constructor checks (a bounded ASCII component in the
  canonical case, a nonzero generation, the chain and contract fields its namespace allows), and
  `new` is the constructor of the source with its errors.
-/
import CryptoIntelligence.Decimal.Value

namespace CryptoIntelligence.Domain

open Lib Decimal List

/-! ## Errors and components -/

inductive DomainError where
  | invalidIdentity (field : String)
  | generationZero
  | invalidInstrument (field : String)
  | invalidLifecycle (field : String)
  | decimal (error : DecimalError)
  deriving DecidableEq

abbrev UnixNanos := Int64

def ensureGeneration (generation : UInt32) : Except DomainError Unit :=
  reject (generation = 0) .generationZero

def isComponentChar (c : Char) : Bool :=
  c.isAlphanum || c == '-' || c == '_' || c == '.' || c == ':'

/-- What `validate_component` accepts. All its characters are ASCII, so its byte length is its
    character count. -/
def isComponent (maximumLength : Nat) (value : String) : Bool :=
  !value.toList.isEmpty && decide (value.toList.length ≤ maximumLength)
    && value.toList.all isComponentChar

def validateComponent (value : String) (field : String) (maximumLength : Nat) :
    Except DomainError String :=
  if isComponent maximumLength value then .ok value else .error (.invalidIdentity field)

def mapChars (case : Char → Char) (value : String) : String :=
  String.ofList (value.toList.map case)

/-- A component in a canonical letter case. -/
def isNormalized (case : Char → Char) (maximumLength : Nat) (value : String) : Bool :=
  isComponent maximumLength value && mapChars case value == value

def normalize (value : String) (field : String) (maximumLength : Nat) (case : Char → Char) :
    Except DomainError String := do
  let value ← validateComponent value field maximumLength
  return mapChars case value

def normalizeLower (value : String) (field : String) (maximumLength : Nat) :
    Except DomainError String := normalize value field maximumLength Char.toLower

def normalizeUpper (value : String) (field : String) (maximumLength : Nat) :
    Except DomainError String := normalize value field maximumLength Char.toUpper

/-- A letter-case function that keeps components components and is done after one pass. -/
structure IsCase (case : Char → Char) : Prop where
  component : ∀ c, isComponentChar c = true → isComponentChar (case c) = true
  idem : ∀ c, isComponentChar c = true → case (case c) = case c

theorem isComponentChar_lt {c : Char} (h : isComponentChar c = true) : c.toNat < 128 := by
  simp only [isComponentChar, Char.isAlphanum, Char.isAlpha, Char.isUpper, Char.isLower,
    Char.isDigit, Bool.or_eq_true, Bool.and_eq_true, decide_eq_true_eq, beq_iff_eq] at h
  simp only [UInt32.le_iff_toNat_le] at h
  have hv : c.toNat = c.val.toNat := rfl
  rcases h with ((((((h | h) | h) | rfl) | rfl) | rfl) | rfl)
  all_goals first
    | decide
    | (simp at h; omega)

theorem isCase_of_ascii {case : Char → Char}
    (h : ∀ n < 128, isComponentChar (Char.ofNat n) = true →
      isComponentChar (case (Char.ofNat n)) = true ∧
        case (case (Char.ofNat n)) = case (Char.ofNat n)) : IsCase case where
  component c hc := by
    have := h c.toNat (isComponentChar_lt hc)
    rw [Char.ofNat_toNat] at this
    exact (this hc).1
  idem c hc := by
    have := h c.toNat (isComponentChar_lt hc)
    rw [Char.ofNat_toNat] at this
    exact (this hc).2

theorem isCase_toLower : IsCase Char.toLower := isCase_of_ascii (by decide)

theorem isCase_toUpper : IsCase Char.toUpper := isCase_of_ascii (by decide)

theorem validateComponent_ok {value field v : String} {maximumLength : Nat}
    (h : validateComponent value field maximumLength = .ok v) :
    v = value ∧ isComponent maximumLength value = true := by
  unfold validateComponent at h
  split at h
  · rename_i hc
    exact ⟨(Except.ok.inj h).symm, hc⟩
  · cases h

theorem isNormalized_of_normalize {value field v : String} {maximumLength : Nat}
    {case : Char → Char} (hcase : IsCase case)
    (h : normalize value field maximumLength case = .ok v) :
    isNormalized case maximumLength v = true := by
  simp only [normalize, bind_eq_ok, pure_eq_ok] at h
  obtain ⟨v', hv, rfl⟩ := h
  obtain ⟨heq, hc⟩ := validateComponent_ok hv
  subst heq
  simp only [isComponent, Bool.and_eq_true, Bool.not_eq_true', isEmpty_eq_false_iff,
    decide_eq_true_eq, all_eq_true] at hc
  obtain ⟨⟨hne, hlen⟩, hall⟩ := hc
  have hidem : (v'.toList.map case).map case = v'.toList.map case := by
    rw [map_map, map_inj_left]
    exact fun c hmem => hcase.idem c (hall c hmem)
  simp only [isNormalized, isComponent, mapChars, String.toList_ofList, Bool.and_eq_true,
    Bool.not_eq_true', isEmpty_eq_false_iff, decide_eq_true_eq, all_eq_true,
    beq_iff_eq, length_map, hidem, and_true]
  refine ⟨⟨?_, hlen⟩, ?_⟩
  · simpa using hne
  · intro c hmem
    obtain ⟨d, hd, rfl⟩ := mem_map.mp hmem
    exact hcase.component d (hall d hd)

/-! ## Venues, sources and assets -/

def maxVenueLength : Nat := 64

def maxChainLength : Nat := 64

def maxContractLength : Nat := 160

def maxAssetSymbolLength : Nat := 32

def maxSourceLength : Nat := 96

def maxSymbolLength : Nat := 96

@[ext]
structure VenueId where
  value : String
  normalized : isNormalized Char.toLower maxVenueLength value = true
  deriving DecidableEq

def VenueId.new (value : String) : Except DomainError VenueId := do
  let ⟨v, h⟩ ← attach (normalizeLower value "venue" maxVenueLength)
  return ⟨v, isNormalized_of_normalize isCase_toLower h⟩

inductive SourceKind where
  | exchange
  | chain
  | macro_
  | news
  | derived
  | system
  deriving DecidableEq, Repr

def SourceKind.toU8 : SourceKind → UInt8
  | .exchange => 0
  | .chain => 1
  | .macro_ => 2
  | .news => 3
  | .derived => 4
  | .system => 5

theorem SourceKind.toU8_injective : Function.Injective SourceKind.toU8 := by
  intro a b h
  cases a <;> cases b <;> first | rfl | cases h

@[ext]
structure SourceId where
  kind : SourceKind
  name : String
  generation : UInt32
  normalized : isNormalized Char.toLower maxSourceLength name = true
  generation_ne_zero : generation ≠ 0
  deriving DecidableEq

theorem one_generation : (1 : UInt32) ≠ 0 := by decide

def SourceId.new (kind : SourceKind) (name : String) (generation : UInt32) :
    Except DomainError SourceId := do
  let ⟨_, hg⟩ ← attach (ensureGeneration generation)
  let ⟨n, h⟩ ← attach (normalizeLower name "source" maxSourceLength)
  return ⟨kind, n, generation, isNormalized_of_normalize isCase_toLower h, by
    simpa [ensureGeneration] using hg⟩

inductive AssetNamespace where
  | native
  | evm
  | solana
  | fiat
  | synthetic
  deriving DecidableEq, Repr

def AssetNamespace.toU8 : AssetNamespace → UInt8
  | .native => 0
  | .evm => 1
  | .solana => 2
  | .fiat => 3
  | .synthetic => 4

theorem AssetNamespace.toU8_injective : Function.Injective AssetNamespace.toU8 := by
  intro a b h
  cases a <;> cases b <;> first | rfl | cases h

/-- The chain identifier a namespace allows. -/
def isChainId (ns : AssetNamespace) (chainId : String) : Bool :=
  match ns with
  | .native | .evm | .solana => isComponent maxChainLength chainId
  | .fiat | .synthetic => chainId == ""

/-- The contract or mint a namespace allows. -/
def isContractOrMint (ns : AssetNamespace) (contractOrMint : String) : Bool :=
  match ns with
  | .evm => isNormalized Char.toLower maxContractLength contractOrMint
  | .solana => isComponent maxContractLength contractOrMint
  | .native | .fiat | .synthetic => contractOrMint == ""

@[ext]
structure AssetId where
  ns : AssetNamespace
  chainId : String
  contractOrMint : String
  canonicalSymbol : String
  generation : UInt32
  chain_valid : isChainId ns chainId = true
  contract_valid : isContractOrMint ns contractOrMint = true
  symbol_normalized : isNormalized Char.toUpper maxAssetSymbolLength canonicalSymbol = true
  generation_ne_zero : generation ≠ 0
  deriving DecidableEq

/-- The presence of chain and contract a namespace asks for. -/
def checkNamespace (ns : AssetNamespace) (chainId contractOrMint : String) :
    Except DomainError Unit :=
  match ns with
  | .native =>
    reject (chainId = "" ∨ contractOrMint ≠ "") (.invalidIdentity "native asset chain/contract")
  | .evm | .solana =>
    reject (chainId = "" ∨ contractOrMint = "") (.invalidIdentity "token asset chain/contract")
  | .fiat | .synthetic =>
    reject (chainId ≠ "" ∨ contractOrMint ≠ "") (.invalidIdentity "off-chain asset chain/contract")

def assetChain (chainId : String) : Except DomainError String :=
  if chainId = "" then .ok "" else validateComponent chainId "chain id" maxChainLength

def assetContract (ns : AssetNamespace) (contractOrMint : String) : Except DomainError String :=
  match ns with
  | .evm => normalizeLower contractOrMint "contract" maxContractLength
  | .solana => validateComponent contractOrMint "mint" maxContractLength
  | .native | .fiat | .synthetic => .ok ""

theorem isChainId_of_ok {ns : AssetNamespace} {chainId contractOrMint c : String}
    (hns : checkNamespace ns chainId contractOrMint = .ok ()) (h : assetChain chainId = .ok c) :
    isChainId ns c = true := by
  unfold assetChain at h
  split at h
  · rename_i h0
    cases h
    cases ns <;> simp_all [checkNamespace, isChainId]
  · rename_i h0
    obtain ⟨rfl, hc⟩ := validateComponent_ok h
    cases ns <;> simp_all [checkNamespace, isChainId]

theorem isContractOrMint_of_ok {ns : AssetNamespace} {contractOrMint c : String}
    (h : assetContract ns contractOrMint = .ok c) : isContractOrMint ns c = true := by
  cases ns with
  | evm => exact isNormalized_of_normalize isCase_toLower h
  | solana =>
    obtain ⟨rfl, hc⟩ := validateComponent_ok h
    exact hc
  | native => cases h; rfl
  | fiat => cases h; rfl
  | synthetic => cases h; rfl

def AssetId.new (ns : AssetNamespace) (chainId contractOrMint canonicalSymbol : String)
    (generation : UInt32) : Except DomainError AssetId := do
  let ⟨_, hg⟩ ← attach (ensureGeneration generation)
  let ⟨_, hns⟩ ← attach (checkNamespace ns chainId contractOrMint)
  let ⟨chain, hchain⟩ ← attach (assetChain chainId)
  let ⟨contract, hcontract⟩ ← attach (assetContract ns contractOrMint)
  let ⟨symbol, hsymbol⟩ ←
    attach (normalizeUpper canonicalSymbol "canonical symbol" maxAssetSymbolLength)
  return { ns, chainId := chain, contractOrMint := contract, canonicalSymbol := symbol, generation
           chain_valid := isChainId_of_ok hns hchain
           contract_valid := isContractOrMint_of_ok hcontract
           symbol_normalized := isNormalized_of_normalize isCase_toUpper hsymbol
           generation_ne_zero := by simpa [ensureGeneration] using hg }

/-! ## Instruments -/

inductive ProductType where
  | spot
  | perpetual
  | future
  | option
  deriving DecidableEq, Repr

def ProductType.toU8 : ProductType → UInt8
  | .spot => 0
  | .perpetual => 1
  | .future => 2
  | .option => 3

theorem ProductType.toU8_injective : Function.Injective ProductType.toU8 := by
  intro a b h
  cases a <;> cases b <;> first | rfl | cases h

def ProductType.all : List ProductType := [.spot, .perpetual, .future, .option]

@[ext]
structure InstrumentId where
  venue : VenueId
  venueSymbol : String
  productType : ProductType
  generation : UInt32
  symbol_normalized : isNormalized Char.toUpper maxSymbolLength venueSymbol = true
  generation_ne_zero : generation ≠ 0
  deriving DecidableEq

def InstrumentId.newForProduct (venue : VenueId) (venueSymbol : String)
    (productType : ProductType) (generation : UInt32) : Except DomainError InstrumentId := do
  let ⟨_, hg⟩ ← attach (ensureGeneration generation)
  let ⟨symbol, h⟩ ← attach (normalizeUpper venueSymbol "venue symbol" maxSymbolLength)
  return ⟨venue, symbol, productType, generation, isNormalized_of_normalize isCase_toUpper h, by
    simpa [ensureGeneration] using hg⟩

theorem InstrumentId.newForProduct_eq_ok {venue : VenueId} {venueSymbol : String}
    {productType : ProductType} {generation : UInt32} {id : InstrumentId} :
    InstrumentId.newForProduct venue venueSymbol productType generation = .ok id ↔
      id.venue = venue ∧ id.productType = productType ∧ id.generation = generation ∧
        normalizeUpper venueSymbol "venue symbol" maxSymbolLength = .ok id.venueSymbol := by
  simp only [InstrumentId.newForProduct, attach_bind_eq_ok, pure_eq_ok]
  constructor
  · rintro ⟨_, -, symbol, hsymbol, rfl⟩
    exact ⟨rfl, rfl, rfl, hsymbol⟩
  · rintro ⟨rfl, rfl, rfl, hsymbol⟩
    exact ⟨(), reject_neg id.generation_ne_zero, id.venueSymbol, hsymbol, rfl⟩

/-- Normalizing the symbol of an identity changes nothing. -/
theorem InstrumentId.normalizeUpper_venueSymbol (id : InstrumentId) (field : String) :
    normalizeUpper id.venueSymbol field maxSymbolLength = .ok id.venueSymbol := by
  have h := id.symbol_normalized
  rw [isNormalized, Bool.and_eq_true, beq_iff_eq] at h
  rw [normalizeUpper, normalize, validateComponent, if_pos h.1]
  exact congrArg Except.ok h.2

/-- Constructs the backward-compatible Spot identity form. -/
def InstrumentId.new (venue : VenueId) (venueSymbol : String) (generation : UInt32) :
    Except DomainError InstrumentId :=
  InstrumentId.newForProduct venue venueSymbol .spot generation

inductive ContractKind where
  | none
  | linear
  | inverse
  deriving DecidableEq, Repr

def ContractKind.toU8 : ContractKind → UInt8
  | .none => 0
  | .linear => 1
  | .inverse => 2

theorem ContractKind.toU8_injective : Function.Injective ContractKind.toU8 := by
  intro a b h
  cases a <;> cases b <;> first | rfl | cases h

inductive ContractValueUnit where
  | base
  | quote
  deriving DecidableEq, Repr

def ContractValueUnit.toU8 : ContractValueUnit → UInt8
  | .base => 0
  | .quote => 1

theorem ContractValueUnit.toU8_injective : Function.Injective ContractValueUnit.toU8 := by
  intro a b h
  cases a <;> cases b <;> first | rfl | cases h

inductive OptionSide where
  | call
  | put
  deriving DecidableEq, Repr

def OptionSide.toU8 : OptionSide → UInt8
  | .call => 0
  | .put => 1

theorem OptionSide.toU8_injective : Function.Injective OptionSide.toU8 := by
  intro a b h
  cases a <;> cases b <;> first | rfl | cases h

@[ext]
structure InstrumentDefinitionInput where
  id : InstrumentId
  productType : ProductType
  baseAsset : AssetId
  quoteAsset : AssetId
  settlementAsset : AssetId
  contractMultiplier : FixedDecimal
  contractValueUnit : ContractValueUnit
  contractKind : ContractKind
  expiryTime : Option UnixNanos
  strike : Option Price
  optionSide : Option OptionSide
  priceTick : Price
  quantityStep : Quantity
  listingTime : UnixNanos
  delistingTime : Option UnixNanos
  deriving DecidableEq

def checkContract (input : InstrumentDefinitionInput) : Except DomainError Unit :=
  match input.contractKind with
  | .none =>
    reject (input.productType ≠ .spot ∨ input.contractValueUnit ≠ .base
      ∨ input.settlementAsset ≠ input.quoteAsset) (.invalidInstrument "spot contract metadata")
  | .linear =>
    reject (input.productType = .spot ∨ input.contractValueUnit ≠ .base
      ∨ input.settlementAsset ≠ input.quoteAsset) (.invalidInstrument "linear contract metadata")
  | .inverse =>
    reject (input.productType = .spot ∨ input.contractValueUnit ≠ .quote
      ∨ input.settlementAsset ≠ input.baseAsset) (.invalidInstrument "inverse contract metadata")

def checkProduct (input : InstrumentDefinitionInput) : Except DomainError Unit :=
  let hasExpiry := input.expiryTime.isSome
  let hasStrike := input.strike.isSome
  let hasOptionSide := input.optionSide.isSome
  match input.productType with
  | .spot | .perpetual =>
    reject (hasExpiry || hasStrike || hasOptionSide)
      (.invalidInstrument "non-expiring product metadata")
  | .future =>
    reject (!hasExpiry || hasStrike || hasOptionSide) (.invalidInstrument "future metadata")
  | .option =>
    reject (!hasExpiry || !hasStrike || !hasOptionSide) (.invalidInstrument "option metadata")

def validateInstrument (input : InstrumentDefinitionInput) : Except DomainError Unit := do
  reject (input.id.productType ≠ input.productType)
    (.invalidInstrument "instrument identity product type")
  reject (input.baseAsset = input.quoteAsset) (.invalidInstrument "base and quote assets")
  reject (!input.contractMultiplier.isPositive) (.invalidInstrument "contract multiplier")
  reject (!input.quantityStep.value.isPositive) (.invalidInstrument "quantity step")
  checkContract input
  checkProduct input
  reject (∃ delisting ∈ input.delistingTime, delisting ≤ input.listingTime)
    (.invalidLifecycle "listing and delisting time")
  reject (∃ expiry ∈ input.expiryTime, expiry ≤ input.listingTime
      ∨ ∃ delisting ∈ input.delistingTime, delisting < expiry)
    (.invalidLifecycle "listing, expiry, and delisting time")

/-- A validated instrument definition. -/
structure InstrumentDefinition extends InstrumentDefinitionInput where
  valid : validateInstrument toInstrumentDefinitionInput = .ok ()
  deriving DecidableEq

def InstrumentDefinition.new (input : InstrumentDefinitionInput) :
    Except DomainError InstrumentDefinition := do
  let ⟨_, h⟩ ← attach (validateInstrument input)
  return ⟨input, h⟩

theorem InstrumentDefinition.id_productType (d : InstrumentDefinition) :
    d.id.productType = d.productType := by
  have h := d.valid
  simp only [validateInstrument, bind_eq_ok, reject_eq_ok] at h
  obtain ⟨_, hp, _⟩ := h
  exact not_not.mp hp

/-! ## Names of samples -/

def krakenSource : SourceId := ⟨.exchange, "kraken", 1, by decide, one_generation⟩

def binanceSource : SourceId := ⟨.exchange, "binance", 1, by decide, one_generation⟩

def bitcoin : AssetId :=
  ⟨.native, "bitcoin", "", "BTC", 1, by decide, by decide, by decide, one_generation⟩

def krakenSpot : InstrumentId :=
  ⟨⟨"kraken", by decide⟩, "BTCUSD", .spot, 1, by decide, one_generation⟩

def binancePerpetual : InstrumentId :=
  ⟨⟨"binance", by decide⟩, "BTCUSDT", .perpetual, 1, by decide, one_generation⟩

end CryptoIntelligence.Domain
