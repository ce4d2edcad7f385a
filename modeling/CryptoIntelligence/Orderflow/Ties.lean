/-
  Which well-ordered streams the windows of trades and of tops accept: those in which the lineages
  of one event time are in order as well.

  Lineages are hashes, so the order of two observations of one time is not the order of the source.
-/
import CryptoIntelligence.Orderflow.Windows

namespace CryptoIntelligence.Orderflow

open Lib Decimal Domain TopOfBookWindow
open Event (Hash32)
open OrderBook List

/-! ## Keys -/

theorem lineageKey_injective : Function.Injective lineageKey := by
  intro a b h
  have hlist : a.toList = b.toList :=
    map_injective_iff.mpr (fun _ _ => UInt8.toNat_inj.mp) h
  exact Vector.toList_inj.mp hlist

theorem flowKey_lt {eventTime eventTime' : UnixNanos} {lineage lineage' : Hash32} :
    flowKey eventTime lineage < flowKey eventTime' lineage' ↔
      eventTime < eventTime' ∨ eventTime = eventTime' ∧
        lineageKey lineage < lineageKey lineage' := by
  rw [flowKey, flowKey, Prod.Lex.toLex_lt_toLex, Int64.lt_iff_toInt_lt, Int64.toInt_inj]

theorem flowKey_lt_of_ne {eventTime eventTime' : UnixNanos} {lineage lineage' : Hash32}
    (h : flowKey eventTime lineage ≤ flowKey eventTime' lineage') (hne : lineage ≠ lineage') :
    flowKey eventTime lineage < flowKey eventTime' lineage' := by
  refine lt_of_le_of_ne h fun heq => hne ?_
  exact lineageKey_injective (congrArg Prod.snd (toLex.injective heq))

/-! ## Tops of the book -/

/-- One book in the order of its source: the stream that a top-of-book window is given, before
    anything rearranges it. -/
structure BookStream (stream : List TopOfBookObservation) (evaluationTime : UnixNanos) : Prop where
  one : ∀ a ∈ stream, ∀ b ∈ stream, a.instrument = b.instrument ∧ a.session = b.session
    ∧ a.evidencePolicy = b.evidencePolicy
  lineages : stream.Pairwise fun a b => a.lineage ≠ b.lineage
  sequences : stream.Pairwise fun a b => a.lastSourceSequence < b.lastSourceSequence
  times : stream.Pairwise fun a b => a.eventTime ≤ b.eventTime
  known : stream.Pairwise fun a b => a.asKnownAt ≤ b.asKnownAt
  evaluated : ∀ a ∈ stream, a.asKnownAt ≤ evaluationTime

/-- Observations of one time have their lineages in order. -/
def TiesByLineage (stream : List TopOfBookObservation) : Prop :=
  stream.Pairwise fun a b => a.eventTime = b.eventTime → lineageKey a.lineage < lineageKey b.lineage

theorem TopOfBookWindow.check_eq_ok {first : TopOfBookObservation} {evaluationTime : UnixNanos}
    (seen : List TopOfBookObservation) (observation : TopOfBookObservation) :
    check first evaluationTime seen observation = .ok () ↔
      (observation.instrument = first.instrument ∧ observation.session = first.session
          ∧ observation.evidencePolicy = first.evidencePolicy ∧
            observation.asKnownAt ≤ evaluationTime)
        ∧ (∀ earlier ∈ seen, earlier.lineage ≠ observation.lineage)
        ∧ ∀ previous ∈ seen.head?, previous.lastSourceSequence < observation.lastSourceSequence
          ∧ previous.asKnownAt ≤ observation.asKnownAt := by
  simp only [check, bind_eq_ok, reject_eq_ok, exists_const, ne_eq, not_not, not_exists,
    not_and, not_or, UInt64.not_le, Int64.not_lt, gt_iff_lt]
  tauto

theorem TopOfBookWindow.new_eq_ok {observations : List TopOfBookObservation} {capacity : Nat}
    {evaluationTime : UnixNanos} {window : TopOfBookWindow}
    (h : new observations capacity evaluationTime = .ok window) :
    capacity ≤ maxFlowTrades ∧ window.observations = sort observations := by
  simp only [new, bind_eq_ok, reject_eq_ok, pure_eq_ok, not_or, Nat.not_lt] at h
  obtain ⟨_, ⟨-, hcapacity⟩, _, -, _, -, _, -, _, -, rfl⟩ := h
  exact ⟨hcapacity, rfl⟩

/-- The sort puts a stream back in order if its ties allow it. -/
theorem BookStream.sort_eq {stream observations : List TopOfBookObservation}
    {evaluationTime : UnixNanos} (h : BookStream stream evaluationTime)
    (hperm : observations.Perm stream) (hties : TiesByLineage stream) :
    sort observations = stream := by
  refine sortByKey_eq_of_perm hperm ((h.times.and hties).imp fun {a b} hab => flowKey_lt.mpr ?_)
  by_cases heq : a.eventTime = b.eventTime
  · exact .inr ⟨heq, hab.2 heq⟩
  · exact .inl (by grind)

theorem BookStream.checked {stream : List TopOfBookObservation} {evaluationTime : UnixNanos}
    (h : BookStream stream evaluationTime) {first : TopOfBookObservation}
    (hfirst : first ∈ stream) :
    checkInOrder (check first evaluationTime) [] stream = .ok () := by
  rw [checkInOrder_eq_ok check_eq_ok]
  refine ⟨fun a ha => ?_, h.lineages, (h.sequences.and h.known).isChain⟩
  obtain ⟨hinstrument, hsession, hpolicy⟩ := h.one a ha first hfirst
  exact ⟨hinstrument, hsession, hpolicy, h.evaluated a ha⟩

theorem BookStream.new_iff {stream observations : List TopOfBookObservation}
    {evaluationTime : UnixNanos} (h : BookStream stream evaluationTime)
    (hperm : observations.Perm stream) {capacity : Nat} (htwo : 2 ≤ observations.length)
    (hcapacity : observations.length ≤ capacity) :
    new observations capacity evaluationTime = .ok ⟨stream, evaluationTime⟩ ↔
      capacity ≤ maxFlowTrades ∧ TiesByLineage stream := by
  constructor
  · intro hnew
    obtain ⟨hmaximum, hsorted⟩ := new_eq_ok hnew
    dsimp only at hsorted
    refine ⟨hmaximum, ?_⟩
    have hkeys : stream.Pairwise fun a b =>
        flowKey a.eventTime a.lineage ≤ flowKey b.eventTime b.lineage := by
      rw [hsorted]
      exact pairwise_sortByKey _ _
    refine (hkeys.and h.lineages).imp fun {a b} hab heq => ?_
    have hlt := flowKey_lt.mp (flowKey_lt_of_ne hab.1 hab.2)
    grind
  · rintro ⟨hmaximum, hties⟩
    have hsort := h.sort_eq hperm hties
    have hlength := hperm.length_eq
    obtain ⟨first, rest, rfl⟩ : ∃ first rest, stream = first :: rest :=
      exists_cons_of_length_pos (by omega)
    have hchecked := h.checked (mem_cons_self (a := first) (l := rest))
    simp only [new, hsort, head?_cons, required_some, ok_bind, hchecked, pure_ok]
    rw [reject_neg (by omega), reject_neg (by omega), reject_neg (by omega)]
    rfl

/-! ## Trades -/

/-- Trades of one instrument in the window, in an order in which both times never decrease. -/
structure TradeStream (stream : List FlowTradeObservation) (start stop evaluationTime : UnixNanos) :
    Prop where
  one : ∀ a ∈ stream, ∀ b ∈ stream, a.instrument = b.instrument
  inside : ∀ a ∈ stream, start ≤ a.eventTime ∧ a.eventTime < stop
  lineages : stream.Pairwise fun a b => a.lineage ≠ b.lineage
  times : stream.Pairwise fun a b => a.eventTime ≤ b.eventTime
  known : stream.Pairwise fun a b => a.asKnownAt ≤ b.asKnownAt
  evaluated : ∀ a ∈ stream, a.asKnownAt ≤ evaluationTime

/-- At one event time, a later lineage is not known earlier. -/
def TiesByKnowledge (trades : List FlowTradeObservation) : Prop :=
  ∀ a ∈ trades, ∀ b ∈ trades, a.eventTime = b.eventTime →
    lineageKey a.lineage < lineageKey b.lineage → a.asKnownAt ≤ b.asKnownAt

theorem TradeFlowWindow.check_eq_ok {first : FlowTradeObservation}
    {start stop evaluationTime : UnixNanos} (seen : List FlowTradeObservation)
    (observation : FlowTradeObservation) :
    TradeFlowWindow.check first start stop evaluationTime seen observation = .ok () ↔
      (observation.instrument = first.instrument ∧ start ≤ observation.eventTime
          ∧ observation.eventTime < stop ∧ observation.asKnownAt ≤ evaluationTime)
        ∧ (∀ earlier ∈ seen, earlier.lineage ≠ observation.lineage)
        ∧ ∀ previous ∈ seen.head?, previous.asKnownAt ≤ observation.asKnownAt := by
  simp only [TradeFlowWindow.check, bind_eq_ok, reject_eq_ok, exists_const, ne_eq, not_not,
    not_exists, not_and, not_or, Int64.not_lt, Int64.not_le, gt_iff_lt, ge_iff_le]
  tauto

theorem TradeFlowWindow.sort_perm (trades : List FlowTradeObservation) :
    (TradeFlowWindow.sort trades).Perm trades := sortByKey_perm _ trades

section Trades

variable {stream trades : List FlowTradeObservation} {start stop evaluationTime : UnixNanos}
  (h : TradeStream stream start stop evaluationTime) (hperm : trades.Perm stream)
include h hperm

open TradeFlowWindow

theorem TradeStream.sorted_lineages :
    (TradeFlowWindow.sort trades).Pairwise fun a b => a.lineage ≠ b.lineage := by
  have hsorted := (sort_perm trades).trans hperm
  exact (hsorted.pairwise_iff fun hne => hne.symm).mpr h.lineages

/-- The sorted trades are known in their order if and only if the ties allow it. -/
theorem TradeStream.sorted_known_iff :
    ((TradeFlowWindow.sort trades).IsChain fun a b => a.asKnownAt ≤ b.asKnownAt)
      ↔ TiesByKnowledge trades := by
  have hsorted : (TradeFlowWindow.sort trades).Pairwise fun a b =>
      flowKey a.eventTime a.lineage ≤ flowKey b.eventTime b.lineage := pairwise_sortByKey _ _
  have hmem : ∀ a, a ∈ TradeFlowWindow.sort trades ↔ a ∈ trades :=
    fun a => (sort_perm trades).mem_iff
  have htrans : IsTrans FlowTradeObservation fun a b => a.asKnownAt ≤ b.asKnownAt :=
    ⟨fun _ _ _ => Int64.le_trans⟩
  rw [isChain_iff_pairwise]
  constructor
  · intro hknown a ha b hb heq hlt
    have hkeys := flowKey_lt.mpr (.inr ⟨heq, hlt⟩)
    exact forall_of_pairwise_key (hsorted.and hknown) ((hmem a).mpr ha) ((hmem b).mpr hb) hkeys
  · intro hties
    have hlisted : stream.Pairwise fun a b => a.eventTime.toInt ≤ b.eventTime.toInt
        ∧ a.asKnownAt ≤ b.asKnownAt :=
      (h.times.and h.known).imp fun hab => ⟨Int64.le_iff_toInt_le.mp hab.1, hab.2⟩
    refine (hsorted.and (h.sorted_lineages hperm)).imp_of_mem fun {a b} ha hb hab => ?_
    have ha := (hmem a).mp ha
    have hb := (hmem b).mp hb
    rcases flowKey_lt.mp (flowKey_lt_of_ne hab.1 hab.2) with hearlier | ⟨heq, hlt⟩
    · exact forall_of_pairwise_key hlisted (hperm.mem_iff.mp ha) (hperm.mem_iff.mp hb)
        (Int64.lt_iff_toInt_lt.mp hearlier)
    · exact hties a ha b hb heq hlt

theorem TradeStream.checked_iff {first : FlowTradeObservation} (hfirst : first ∈ trades) :
    checkInOrder (TradeFlowWindow.check first start stop evaluationTime) []
        (TradeFlowWindow.sort trades) = .ok () ↔ TiesByKnowledge trades := by
  have hmem : ∀ a ∈ TradeFlowWindow.sort trades, a ∈ stream :=
    fun a ha => hperm.mem_iff.mp ((sort_perm trades).mem_iff.mp ha)
  rw [checkInOrder_eq_ok TradeFlowWindow.check_eq_ok, h.sorted_known_iff hperm]
  constructor
  · exact fun hchecked => hchecked.2.2
  · refine fun hties => ⟨fun a ha => ?_, h.sorted_lineages hperm, hties⟩
    have hinside := h.inside a (hmem a ha)
    exact ⟨h.one a (hmem a ha) first (hperm.mem_iff.mp hfirst), hinside.1, hinside.2,
      h.evaluated a (hmem a ha)⟩

theorem TradeStream.new_iff {capacity : Nat} :
    (∃ window, TradeFlowWindow.new trades capacity start stop evaluationTime = .ok window) ↔
      validateFinalizedWindow capacity start stop evaluationTime = .ok () ∧ trades ≠ []
        ∧ trades.length ≤ capacity ∧ TiesByKnowledge trades := by
  simp only [TradeFlowWindow.new, bind_eq_ok, reject_eq_ok, required_eq_ok, pure_eq_ok, Nat.not_lt]
  constructor
  · rintro ⟨window, _, hvalid, _, hne, _, hlength, first, hfirst, _, hchecked, -⟩
    have hmem := (sort_perm trades).mem_iff.mp (mem_of_mem_head? hfirst)
    exact ⟨hvalid, hne, hlength, (h.checked_iff hperm hmem).mp hchecked⟩
  · rintro ⟨hvalid, hne, hlength, hties⟩
    have hsorted : TradeFlowWindow.sort trades ≠ [] := by
      rw [← length_pos_iff, (sort_perm trades).length_eq]
      exact length_pos_iff.mpr hne
    obtain ⟨first, hfirst⟩ := Option.isSome_iff_exists.mp (isSome_head?.mpr hsorted)
    have hmem := (sort_perm trades).mem_iff.mp (mem_of_mem_head? hfirst)
    exact ⟨_, (), hvalid, (), hne, (), hlength, first, hfirst, (),
      (h.checked_iff hperm hmem).mpr hties, rfl⟩

end Trades

/-! ## Both windows -/

/-- A well-ordered stream of tops, in any arrangement, gives the window of the stream if and only if
    its ties are by lineage; well-ordered trades give a window if and only if theirs are by
    knowledge (and the capacity and the window are valid). -/
theorem windows_accept_iff_ties (capacity : Nat) (evaluationTime : UnixNanos) :
    (∀ stream observations : List TopOfBookObservation,
      BookStream stream evaluationTime → observations.Perm stream → 2 ≤ observations.length →
      observations.length ≤ capacity →
      (new observations capacity evaluationTime = .ok ⟨stream, evaluationTime⟩ ↔
        capacity ≤ maxFlowTrades ∧ TiesByLineage stream))
    ∧ ∀ (stream trades : List FlowTradeObservation) (start stop : UnixNanos),
      TradeStream stream start stop evaluationTime → trades.Perm stream →
      ((∃ window, TradeFlowWindow.new trades capacity start stop evaluationTime = .ok window) ↔
        validateFinalizedWindow capacity start stop evaluationTime = .ok () ∧ trades ≠ []
          ∧ trades.length ≤ capacity ∧ TiesByKnowledge trades) :=
  ⟨fun _ _ h hperm htwo hcapacity => h.new_iff hperm htwo hcapacity,
    fun _ _ _ _ h hperm => h.new_iff hperm⟩

/-! ## Ties in the other order -/

def tiePolicy : BookEvidencePolicy :=
  ⟨sampleBid.price, "normal-l2-3s", 1, "source-sequence", 1, "fair-price", 1⟩

def lowLineage : Hash32 := .replicate 32 1

def highLineage : Hash32 := .replicate 32 2

theorem lowLineage_ne : lowLineage ≠ noLineage := by decide

theorem highLineage_ne : highLineage ≠ noLineage := by decide

theorem known_early : (100 : UnixNanos) ≤ 110 := by decide

theorem known_late : (100 : UnixNanos) ≤ 120 := by decide

/-- An update of time 100. -/
def topAt (sequence : UInt64) (asKnownAt : UnixNanos) (known : 100 ≤ asKnownAt) (lineage : Hash32)
    (lineage_ne : lineage ≠ noLineage) : TopOfBookObservation :=
  ⟨krakenSpot, ⟨1, 1, 1⟩, tiePolicy, sequence, 100, asKnownAt, lineage, sampleBid.price,
    sampleBid.quantity, sampleAsk.price, sampleAsk.quantity, false, known, lineage_ne⟩

theorem tie_rule : validBoundedIdentity "venue" = true := by decide

/-- A trade of time 100. -/
def tradeAt (asKnownAt : UnixNanos) (known : 100 ≤ asKnownAt) (lineage : Hash32)
    (lineage_ne : lineage ≠ noLineage) : FlowTradeObservation :=
  ⟨krakenSpot, 100, asKnownAt, lineage, sampleAsk.price, sampleAsk.quantity, .buy,
    ⟨"venue", 1, false, one_generation, tie_rule⟩, false, none, 0, known, lineage_ne, rfl⟩

def orderedTops : List TopOfBookObservation :=
  [topAt 1 110 known_early lowLineage lowLineage_ne,
    topAt 2 120 known_late highLineage highLineage_ne]

def orderedTrades : List FlowTradeObservation :=
  [tradeAt 110 known_early lowLineage lowLineage_ne,
    tradeAt 120 known_late highLineage highLineage_ne]

def tiedTops : List TopOfBookObservation :=
  [topAt 1 110 known_early highLineage highLineage_ne,
    topAt 2 120 known_late lowLineage lowLineage_ne]

def tiedTrades : List FlowTradeObservation :=
  [tradeAt 110 known_early highLineage highLineage_ne,
    tradeAt 120 known_late lowLineage lowLineage_ne]

/-- Two updates and two trades with their lineages in order are accepted, also when they arrive in
    the other order. -/
theorem ordered_accepted :
    new orderedTops.reverse 8 200 = .ok ⟨orderedTops, 200⟩
      ∧ ∃ window, TradeFlowWindow.new orderedTrades.reverse 8 50 150 200 = .ok window := by
  have htops : BookStream orderedTops 200 := by
    constructor <;> decide
  have htrades : TradeStream orderedTrades 50 150 200 := by
    constructor <;> decide
  have hties : TiesByLineage orderedTops := by
    unfold TiesByLineage
    decide
  have hknowledge : TiesByKnowledge orderedTrades.reverse := by
    unfold TiesByKnowledge
    decide
  constructor
  · exact ((windows_accept_iff_ties 8 200).1 orderedTops _ htops (reverse_perm _) (by decide)
      (by decide)).mpr ⟨by decide, hties⟩
  · exact ((windows_accept_iff_ties 8 200).2 orderedTrades _ 50 150 htrades (reverse_perm _)).mpr
      ⟨rfl, by decide, by decide, hknowledge⟩

/-- With the lineages the other way round, neither is. -/
theorem tied_rejected :
    (BookStream tiedTops 200
        ∧ new tiedTops 8 200 = .error .nonMonotonicTime)
      ∧ TradeStream tiedTrades 50 150 200
        ∧ TradeFlowWindow.new tiedTrades 8 50 150 200 = .error .nonMonotonicTime := by
  refine ⟨⟨?_, rfl⟩, ?_, rfl⟩
  · constructor <;> decide
  · constructor <;> decide

end CryptoIntelligence.Orderflow
