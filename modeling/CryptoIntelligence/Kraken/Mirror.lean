/-
  The exact texts mirror the engine's book. While the book is trusted, the levels the synchronizer
  keeps are the levels of the engine, price by price and quantity by quantity, although the two are
  updated by different code. So the checksum built from the texts always fits the book the engine
  checks it against: a checksum fails on its CRC only, never because its levels are not those of the
  book (`exact_texts_mirror_book`).

  The texts of a level have to spell its values: the engine compares what the texts parse to.
-/
import CryptoIntelligence.OrderBook.ChecksumGate
import CryptoIntelligence.Kraken.Updates

namespace CryptoIntelligence.Kraken

open Lib Decimal Event OrderBook KrakenV2Checksum KrakenBookSynchronizer List

/-! ## Texts that spell their values -/

/-- The texts of a level parse to its price and its quantity. -/
structure NativeBookLevel.Parsed (level : NativeBookLevel) : Prop where
  price : FixedDecimal.parse level.priceText = .ok level.price.value
  quantity : FixedDecimal.parse level.quantityText = .ok level.quantity.value

def SpotBookMessage.Parsed (message : SpotBookMessage) : Prop :=
  (∀ level ∈ message.bids, level.Parsed) ∧ ∀ level ∈ message.asks, level.Parsed

/-- The book message of a call has texts that spell its values. -/
def SyncOp.Parsed : SyncOp → Prop
  | .applySpot message _ _ => message.Parsed
  | _ => True

/-- Both sides hold levels whose texts spell their values. -/
structure ExactBook.Parsed (book : ExactBook) : Prop where
  bids : Everywhere (fun _ level => level.Parsed) book.bids
  asks : Everywhere (fun _ level => level.Parsed) book.asks

theorem ExactBook.parsed_empty : ExactBook.empty.Parsed :=
  ⟨everywhere_empty _, everywhere_empty _⟩

theorem parsed_applyLevels {side : NativeLevels} (h : Everywhere (fun _ level => level.Parsed) side)
    {levels : List NativeBookLevel} (hlevels : ∀ level ∈ levels, level.Parsed) :
    Everywhere (fun _ level => level.Parsed) (applyLevels side levels) := by
  refine h.upsertAll fun level hmem value hvalue => ?_
  split at hvalue
  · cases hvalue
  · rw [← Option.some.inj hvalue]
    exact hlevels level hmem

theorem ExactBook.Parsed.apply {book : ExactBook} (h : book.Parsed) (depth : Nat)
    {message : SpotBookMessage} (hmessage : message.Parsed) : (book.apply depth message).Parsed :=
  ⟨(parsed_applyLevels h.bids hmessage.1).dropWorst _ _ _,
    (parsed_applyLevels h.asks hmessage.2).dropWorst _ _ _⟩

theorem exactOf_parsed (depth : Nat) {messages : List SpotBookMessage}
    (h : ∀ message ∈ messages, message.Parsed) : (exactOf depth messages).Parsed := by
  induction messages using List.reverseRecOn with
  | nil => exact ExactBook.parsed_empty
  | append_singleton messages message ih =>
    rw [exactOf_concat]
    refine (ih fun m hm => h m (mem_append_left _ hm)).apply depth ?_
    exact h message (mem_append_right _ (mem_singleton_self message))

/-! ## The checksum fits the book -/

theorem asChecksumInput_eq_ok {α : Type} {x : Except DecimalError α} {a : α}
    (h : asChecksumInput x = .ok a) : x = .ok a := by
  cases x with
  | error err => cases h
  | ok b => exact congrArg Except.ok (Except.ok.inj h)

/-- What a text parses to, wrapped, is the value the text spells. -/
theorem wrapped_of_parse {validate : FixedDecimal → Bool} {error : DecimalError} {text : String}
    {parsed : FixedDecimal} {value wrapped : Wrapped validate}
    (hspelled : FixedDecimal.parse text = .ok value.value)
    (hparsed : FixedDecimal.parse text = .ok parsed)
    (hwrapped : Wrapped.new error parsed = .ok wrapped) : wrapped = value := by
  obtain rfl : parsed = value.value := Except.ok.inj (hparsed.symm.trans hspelled)
  rw [Wrapped.new, dif_pos value.valid] at hwrapped
  exact (Except.ok.inj hwrapped).symm

/-- An exact level has the values its texts spell. -/
theorem exactLevel_values {level : NativeBookLevel} {exact : ExactChecksumLevel}
    (hparsed : level.Parsed) (h : exactLevel level = .ok exact) :
    (level.price, level.quantity) = (exact.price, exact.quantity) := by
  unfold exactLevel ExactChecksumLevel.new at h
  obtain ⟨⟨price, quantity⟩, hexact, h⟩ := attach_bind_eq_ok.mp h
  dsimp only at h
  split at h
  · cases h
    simp only [parseExact, bind_eq_ok, pure_eq_ok] at hexact
    obtain ⟨-, -, p, hp, price', hprice, q, hq, quantity', hquantity, hvalues⟩ := hexact
    rw [← hvalues, wrapped_of_parse hparsed.price (asChecksumInput_eq_ok hp)
      (asChecksumInput_eq_ok hprice), wrapped_of_parse hparsed.quantity (asChecksumInput_eq_ok hq)
      (asChecksumInput_eq_ok hquantity)]
  · cases h

/-- The exact levels made of a list of levels have its prices and quantities. -/
theorem exactLevels_values {levels : List NativeBookLevel} {exact : List ExactChecksumLevel}
    (hparsed : ∀ level ∈ levels, level.Parsed) (h : levels.mapM exactLevel = .ok exact) :
    exact.map (fun level => (level.price, level.quantity)) =
      levels.map fun level => (level.price, level.quantity) := by
  have hforall := forall₂_of_mapM h
  clear h
  induction hforall with
  | nil => rfl
  | cons hlevel _ ih =>
    rw [map_cons, map_cons, ih fun level hmem => hparsed level (mem_cons_of_mem _ hmem),
      exactLevel_values (hparsed _ mem_cons_self) hlevel]

theorem sideMatches_of_eq {exact : List ExactChecksumLevel} {top : List (Price × Quantity)}
    (h : exact.map (fun level => (level.price, level.quantity)) = top) :
    sideMatches exact top = true := by
  subst h
  unfold sideMatches
  induction exact with
  | nil => rfl
  | cons level exact ih =>
    rw [map_cons, zip_cons_cons, all_cons, ih]
    simp

/-- The top of the engine's asks is the top of the exact asks. -/
theorem ExactBook.Shown.topAsks {exact : ExactBook} {book : L2Book} (h : exact.Shown book)
    (depth : Nat) : book.topAsks depth =
      ((levelValues exact.asks).take depth).map fun level => (level.price, level.quantity) := by
  rw [L2Book.topAsks, ← map_take_toBookLevel, ← L2Book.asksAscending, h.asksAscending,
    ascendingLevels, ← map_take, map_map]
  rfl

theorem ExactBook.Shown.topBids {exact : ExactBook} {book : L2Book} (h : exact.Shown book)
    (depth : Nat) : book.topBids depth =
      ((levelValues exact.bids).reverse.take depth).map fun level =>
        (level.price, level.quantity) := by
  rw [L2Book.topBids, ← map_take_toBookLevel, ← L2Book.bidsDescending, h.bidsDescending,
    descendingLevels, ← map_take, map_map]
  rfl

variable {checksum : KrakenV2Checksum} {e : OrderBookEngine}

theorem checksumFor_expected {expected : UInt32} {asks bids : NativeLevels}
    (h : checksumFor expected asks bids = .ok checksum) :
    checksum.expected = expected := by
  simp only [checksumFor, bind_eq_ok, new] at h
  obtain ⟨_, -, _, -, h⟩ := h
  split at h
  · cases h
    rfl
  · cases h

/-- The checksum of an exact book fits the book that shows it: only its CRC is left to compare. -/
theorem verifyBook_of_shown {exact : ExactBook} {book : L2Book} (hshown : exact.Shown book)
    (hparsed : exact.Parsed) {expected : UInt32}
    (h : checksumFor expected exact.asks exact.bids = .ok checksum) :
    checksum.verifyBook book = .ok checksum.matchesExpected := by
  simp only [checksumFor, bind_eq_ok, new] at h
  obtain ⟨asks, hasks, bids, hbids, h⟩ := h
  split at h
  · cases h
    have hask : ∀ level ∈ (levelValues exact.asks).take 10, level.Parsed := by
      intro level hmem
      have hvalue := (mem_values_iff hshown.keyed.asks level).mp (mem_of_mem_take hmem)
      exact hparsed.asks _ level hvalue
    have hbid : ∀ level ∈ (levelValues exact.bids).reverse.take 10, level.Parsed := by
      intro level hmem
      have hvalue := (mem_values_iff hshown.keyed.bids level).mp
        (mem_reverse.mp (mem_of_mem_take hmem))
      exact hparsed.bids _ level hvalue
    have htopAsks := (exactLevels_values hask hasks).trans (hshown.topAsks 10).symm
    have htopBids := (exactLevels_values hbid hbids).trans (hshown.topBids 10).symm
    have hasksLength : asks.length = min book.asks.size krakenChecksumDepth := by
      have hlength := congrArg List.length htopAsks
      rw [length_map, L2Book.topAsks, length_map, length_take,
        Std.ExtTreeMap.length_toList, Nat.min_comm] at hlength
      exact hlength
    have hbidsLength : bids.length = min book.bids.size krakenChecksumDepth := by
      have hlength := congrArg List.length htopBids
      rw [length_map, L2Book.topBids, length_map, length_take, length_reverse,
        Std.ExtTreeMap.length_toList, Nat.min_comm] at hlength
      exact hlength
    have hsides : (sideMatches asks (book.topAsks krakenChecksumDepth) &&
        sideMatches bids (book.topBids krakenChecksumDepth)) = true := by
      rw [krakenChecksumDepth, sideMatches_of_eq htopAsks, sideMatches_of_eq htopBids]
      rfl
    rw [verifyBook, reject_neg (by simp [hasksLength, hbidsLength]), ok_bind]
    exact if_pos hsides
  · cases h

/-! ## The engine's answer -/

/-- The checksum of an update failed on its CRC, if it failed at all. -/
structure OnlyCrc (checksum : KrakenV2Checksum) (result : Except BookError ApplyResult) : Prop where
  input : result ≠ .error .invalidChecksumInput
  mismatch : result = .ok .checksumMismatch → checksum.computed ≠ checksum.expected

/-- A call in which every answer of the checksum is about its CRC. -/
theorem onlyCrc_of_answer {op : Op} {r : Attempt ApplyResult}
    (h : e.Answer (e.Effect op) r)
    (hfits : ∀ answer, e.Verified op answer → answer = .ok checksum.matchesExpected) :
    OnlyCrc checksum r.2 := by
  have herror {err : BookError} (h : err ≠ .invalidChecksumInput) : OnlyCrc checksum (.error err) :=
    ⟨fun heq => h (Except.error.inj heq), by simp⟩
  have hok {result : ApplyResult} (h : result ≠ .checksumMismatch) :
      OnlyCrc checksum (.ok result) :=
    ⟨by simp, fun heq => absurd (Except.ok.inj heq) h⟩
  cases h with
  | refused hguard =>
    refine herror ?_
    rintro rfl
    cases hguard
  | taken h =>
    cases h with
    | declined _ herr => rcases herr with rfl | rfl <;> exact herror (by decide)
    | lost _ _ hloss =>
      cases hloss with
      | gap => exact hok (by decide)
      | mismatch hverified =>
        have hfalse : false = checksum.matchesExpected := Except.ok.inj (hfits _ hverified)
        refine ⟨by simp, fun _ heq => ?_⟩
        rw [matchesExpected, heq, beq_self_eq_true] at hfalse
        cases hfalse
      | error herr =>
        refine herror ?_
        rintro rfl
        exact absurd herr (by decide)
      | input hverified => cases hfits _ hverified
      | foreign _ => exact herror (by decide)
    | _ => exact hok (by decide)

/-- A snapshot of a stream whose checksum fits the book it makes. -/
theorem applySnapshotChecked_onlyCrc
    (hstrategy : ∀ strategy ∈ e.strategy, strategy = .streamSnapshot) {snapshot : BookSnapshot}
    (hfits : ∀ base, L2Book.fromSnapshot snapshot e.config = .ok base →
      checksum.verifyBook base = .ok checksum.matchesExpected)
    (session : BookSession) (now latency : UInt64) :
    OnlyCrc checksum (e.applySnapshotChecked snapshot session now latency checksum).2 := by
  have hanswer : e.Answer (e.Effect
      (.applySnapshotChecked snapshot session now latency checksum)) _ :=
    OrderBookEngine.applySnapshotCandidate_effect e rfl rfl rfl (some latency)
  refine onlyCrc_of_answer hanswer fun answer hverified => ?_
  cases hverified with
  | snapshot hop hbase hverifies =>
    cases hop
    obtain ⟨_, hchecksum, rfl⟩ := hverifies
    cases hchecksum
    exact hfits _ hbase
  | replayed hexternal => cases hstrategy _ hexternal
  | live hop => cases hop

/-- A delta whose checksum fits the book it makes of a trusted one. Without a trusted book no
checksum is looked at. -/
theorem applyDeltaChecked_onlyCrc
    (hstrategy : ∀ strategy ∈ e.strategy, strategy = .streamSnapshot) {delta : BookDelta}
    (hfits : e.state = .synchronized → ∀ book next,
      e.book = some book → book.applyDelta delta e.config = .ok next →
      checksum.verifyBook next = .ok checksum.matchesExpected)
    (session : BookSession) (now latency : UInt64) :
    OnlyCrc checksum (e.applyDeltaChecked delta session now latency checksum).2 := by
  have hanswer : e.Answer (e.Effect (.applyDeltaChecked delta session now latency checksum)) _ :=
    OrderBookEngine.applyDeltaCandidate_effect e
      (d := ⟨delta, session, now, some checksum, none⟩) rfl (some latency)
  refine onlyCrc_of_answer hanswer fun answer hverified => ?_
  cases hverified with
  | snapshot hop => cases hop
  | replayed hexternal => cases hstrategy _ hexternal
  | live hop hstate hbook hnext hverifies =>
    cases hop
    obtain ⟨_, hchecksum, rfl⟩ := hverifies
    cases hchecksum
    exact hfits hstate _ _ hbook hnext

/-! ## The mirror -/

/-- The exact levels have the prices and the quantities of a book. -/
structure KrakenBookSynchronizer.Mirrors (s : KrakenBookSynchronizer) (book : L2Book) : Prop where
  bids : ∀ price : Price, s.exactBids[price]?.map NativeBookLevel.quantity =
    book.bids[price]?.map LevelValue.quantity
  asks : ∀ price : Price, s.exactAsks[price]?.map NativeBookLevel.quantity =
    book.asks[price]?.map LevelValue.quantity

/-- The book the engine checks the checksum of a message against. -/
def KrakenBookSynchronizer.engineCandidate (s : KrakenBookSynchronizer) (message : SpotBookMessage)
    (revision : UInt64) : Except BookError L2Book :=
  match message.kind with
  | .snapshot =>
    L2Book.fromSnapshot ⟨descendingLevels (s.candidate message).bids,
      ascendingLevels (s.candidate message).asks, revision⟩ s.engine.config
  | .update =>
    match s.engine.book with
    | none => .error .untrusted
    | some book =>
      book.applyDelta
        { bids := collapsedBookLevels message.bids, asks := collapsedBookLevels message.asks
          firstSequence := revision, lastSequence := revision } s.engine.config

section

variable {config : BookConfig} {s : KrakenBookSynchronizer} {r : Replica}

theorem getElem?_visible_quantity (side : NativeLevels) (price : Price) :
    (visible side)[price]?.map LevelValue.quantity =
      side[price]?.map NativeBookLevel.quantity := by
  rw [getElem?_visible, Option.map_map]
  rfl

/-- A trusted synchronizer mirrors the book of its engine. -/
theorem Follows.mirrors (h : Follows config s r) (hstate : s.state = .synchronized) :
    ∃ book, s.engine.book = some book ∧ s.Mirrors book := by
  obtain ⟨messages, rfl⟩ := Option.isSome_iff_exists.mp (h.trusted.mp hstate)
  have hheld := h.held messages rfl
  obtain ⟨book, hbook, hshown, -⟩ := hheld.book
  rw [← hheld.exact] at hshown
  refine ⟨book, hbook, ⟨fun price => ?_, fun price => ?_⟩⟩
  · rw [hshown.bids, getElem?_visible_quantity]
  · rw [hshown.asks, getElem?_visible_quantity]

/-- The messages of the replica have texts that spell their values. -/
def Replica.Parsed (r : Replica) : Prop := ∀ messages ∈ r, ∀ message ∈ messages, message.Parsed

variable {message : SpotBookMessage} {checksum : KrakenV2Checksum}

/-- The candidate of a message is shown by the book the engine makes of it. -/
theorem Follows.candidate_shown (h : Follows config s r) (hparsed : r.Parsed)
    (hmessage : message.Parsed)
    (hbase : message.kind = .snapshot ∨ s.state = .synchronized) {revision : UInt64} {book : L2Book}
    (hbook : s.engineCandidate message revision = .ok book) :
    (s.candidate message).Shown book ∧ (s.candidate message).Parsed := by
  unfold engineCandidate at hbook
  cases hkind : message.kind with
  | snapshot =>
    rw [hkind] at hbook
    dsimp only at hbook
    rw [h.candidate_of_snapshot hkind] at hbook ⊢
    exact ⟨(ExactBook.Shown.of_snapshot (exactOf_keyed _ _) hbook).1,
      exactOf_parsed _ (forall_mem_singleton.mpr hmessage)⟩
  | update =>
    rw [hkind] at hbase hbook
    have hstate : s.state = .synchronized := hbase.resolve_left (by decide)
    obtain ⟨messages, rfl⟩ := Option.isSome_iff_exists.mp (h.trusted.mp hstate)
    obtain ⟨held, hengine, hshown, -⟩ := (h.held messages rfl).book
    rw [hengine, h.engineConfig] at hbook
    rw [h.candidate_of_update hkind]
    refine ⟨?_, exactOf_parsed _
      (forall_mem_append.mpr ⟨hparsed messages rfl, forall_mem_singleton.mpr hmessage⟩)⟩
    rw [exactOf_concat]
    exact (hshown.of_delta hbook).1

/-- The checksum of a message fits the book the engine makes of the message. -/
theorem Follows.fits (h : Follows config s r) (hparsed : r.Parsed) (hmessage : message.Parsed)
    (hchecksum : checksumFor message.checksum (s.candidate message).asks
      (s.candidate message).bids = .ok checksum)
    (hbase : message.kind = .snapshot ∨ s.state = .synchronized) {revision : UInt64} {book : L2Book}
    (hbook : s.engineCandidate message revision = .ok book) :
    checksum.verifyBook book = .ok checksum.matchesExpected := by
  obtain ⟨hshown, hlevels⟩ := h.candidate_shown hparsed hmessage hbase hbook
  exact verifyBook_of_shown hshown hlevels hchecksum

theorem Follows.submit_onlyCrc (h : Follows config s r) (hparsed : r.Parsed)
    (hmessage : message.Parsed) (hchecksum : checksumFor message.checksum (s.candidate message).asks
      (s.candidate message).bids = .ok checksum)
    (session : BookSession) (revision now latency : UInt64) :
    OnlyCrc checksum
      (s.submit message (s.candidate message) session revision now latency checksum).2 := by
  have hfits : ∀ book, message.kind = .snapshot ∨ s.state = .synchronized →
      s.engineCandidate message revision = .ok book →
      checksum.verifyBook book = .ok checksum.matchesExpected :=
    fun book hbase hbook => h.fits hparsed hmessage hchecksum hbase hbook
  unfold engineCandidate at hfits
  unfold submit
  cases hkind : message.kind with
  | snapshot =>
    rw [hkind] at hfits
    exact applySnapshotChecked_onlyCrc h.strategy (fun base hbase => hfits base (.inl rfl) hbase)
      session now latency
  | update =>
    rw [hkind] at hfits
    refine applyDeltaChecked_onlyCrc h.strategy (fun hstate book next hbook hnext => ?_) session now
      latency
    rw [hbook] at hfits
    exact hfits next (.inr hstate) hnext

/-- Where the engine is not reached, `apply_spot` returns before it looks at a checksum. -/
theorem Follows.applySpot_onlyCrc (h : Follows config s r) (hparsed : r.Parsed)
    (hmessage : message.Parsed) (now latency : UInt64)
    (hchecksum : checksumFor message.checksum (s.candidate message).asks
      (s.candidate message).bids = .ok checksum) :
    (s.applySpot message now latency).2 ≠ .error (.book .invalidChecksumInput) ∧
      ((s.applySpot message now latency).2 = .ok .checksumMismatch →
        checksum.computed ≠ checksum.expected) := by
  unfold applySpot
  split
  · simp
  cases s.engine.session with
  | none => simp
  | some session =>
    dsimp only
    cases checkedNext s.localRevision with
    | none => simp
    | some revision =>
      dsimp only
      split
      · simp
      · rw [hchecksum]
        dsimp only
        have honly := h.submit_onlyCrc hparsed hmessage hchecksum session revision now latency
        generalize s.submit message (s.candidate message) session revision now latency checksum =
          answer at honly ⊢
        obtain ⟨engine, result⟩ := answer
        have hresult : (s.settle (s.candidate message) revision (engine, result)).2 =
            asSyncError result := by
          cases result with
          | error err => rfl
          | ok result => cases result <;> rfl
        rw [hresult]
        cases result with
        | error err =>
          refine ⟨fun heq => honly.input ?_, by simp [asSyncError]⟩
          cases heq
          rfl
        | ok result =>
          refine ⟨by simp [asSyncError], fun heq => honly.mismatch ?_⟩
          cases heq
          rfl

/-- A call with spelled texts leaves a replica of spelled messages. -/
theorem step_parsed (h : Follows config s r) (hparsed : r.Parsed) {op : SyncOp} (hop : op.Parsed) :
    ∃ r' : Replica, Follows config (s.step op).1 r' ∧ r'.Parsed := by
  obtain ⟨r', hstep, hfollows⟩ := step_follows h op
  refine ⟨r', hfollows, ?_⟩
  generalize hcall : (op, (s.step op).2) = call at hstep
  have hfirst : call.1 = op := by rw [← hcall]
  cases hstep with
  | keep _ _ => exact hparsed
  | lose _ _ =>
    intro messages hmessages
    cases hmessages
  | install _ =>
    rw [← hfirst] at hop
    intro messages hmessages message hmem
    rw [← Option.some.inj hmessages] at hmem
    rw [mem_singleton.mp hmem]
    exact hop
  | @extend earlier latest _ _ _ =>
    rw [← hfirst] at hop
    intro messages hmessages message hmem
    rw [← Option.some.inj hmessages] at hmem
    exact forall_mem_append.mpr ⟨hparsed earlier rfl, forall_mem_singleton.mpr hop⟩ message hmem

end

/-- After every run over messages whose texts spell their values, a trusted book has exactly the
    prices and the quantities of the exact levels. For every next message the checksum made of the
    exact levels fits the book the engine makes of the message: the engine never finds it to be of
    another book, and it fails only when its CRC differs. -/
theorem exact_texts_mirror_book (config : BookConfig) (policy : KrakenL3Policy)
    (s : KrakenBookSynchronizer)
    (hnew : tryNewWithL3 config policy = .ok s) (ops : List SyncOp)
    (hops : ∀ op ∈ ops, op.Parsed) :
    ((s.run ops).state = .synchronized →
      ∃ book, (s.run ops).engine.book = some book ∧ (s.run ops).Mirrors book) ∧
    ∀ (message : SpotBookMessage) (checksum : KrakenV2Checksum), message.Parsed →
      checksumFor message.checksum ((s.run ops).candidate message).asks
        ((s.run ops).candidate message).bids = .ok checksum →
      (∀ revision book, message.kind = .snapshot ∨ (s.run ops).state = .synchronized →
        (s.run ops).engineCandidate message revision = .ok book →
        checksum.verifyBook book = .ok (checksum.computed == message.checksum)) ∧
      ∀ now latency,
        ((s.run ops).applySpot message now latency).2 ≠ .error (.book .invalidChecksumInput) ∧
        (((s.run ops).applySpot message now latency).2 = .ok .checksumMismatch →
          checksum.computed ≠ message.checksum) := by
  have hrun : ∃ r : Replica, Follows config (s.run ops) r ∧ r.Parsed := by
    refine run_induction_of step (fun _ op => op.Parsed)
      (fun _ s => ∃ r : Replica, Follows config s r ∧ r.Parsed)
      ⟨none, tryNewWithL3_follows hnew, ?_⟩
        (fun _ _ _ ⟨_, h, hparsed⟩ hop => step_parsed h hparsed hop)
      ops ?_
    · intro messages hmessages
      cases hmessages
    · intro before op after hsplit
      exact hops op (by rw [hsplit]; simp)
  obtain ⟨r, hfollows, hparsed⟩ := hrun
  refine ⟨hfollows.mirrors, fun message checksum hmessage hchecksum => ?_⟩
  have hexpected := checksumFor_expected hchecksum
  refine ⟨fun revision book hbase hbook => ?_, fun now latency => ?_⟩
  · rw [hfollows.fits hparsed hmessage hchecksum hbase hbook, matchesExpected,
      hexpected]
  · rw [← hexpected]
    exact hfollows.applySpot_onlyCrc hparsed hmessage now latency hchecksum

/-- An update whose checksum is not that of the book it makes. -/
def wrongSum : SpotBookMessage := { addLow with checksum := 7 }

theorem sampleLevel_parsed :
    (NativeBookLevel.mk sampleBid.price sampleBid.quantity "99" "2").Parsed ∧
      (NativeBookLevel.mk sampleAsk.price sampleAsk.quantity "101" "3").Parsed ∧
      (NativeBookLevel.mk lowBid.price lowBid.quantity "98" "2").Parsed :=
  ⟨⟨by decide +kernel, by decide +kernel⟩, ⟨by decide +kernel, by decide +kernel⟩,
    ⟨by decide +kernel, by decide +kernel⟩⟩

theorem krakenRun_parsed : ∀ op ∈ krakenRun, op.Parsed := by
  obtain ⟨hbid, hask, hlow⟩ := sampleLevel_parsed
  simp only [krakenRun, krakenStart, cons_append, nil_append, forall_mem_cons]
  refine ⟨trivial, ⟨?_, ?_⟩, ⟨?_, ?_⟩, by simp⟩
  · exact forall_mem_singleton.mpr hbid
  · exact forall_mem_singleton.mpr hask
  · exact forall_mem_singleton.mpr hlow
  · simp [addLow]

/-- The book after a snapshot and an update is mirrored, and the next update fails on its CRC. -/
theorem mirror_after_update :
    (∃ book, (krakenSync.run krakenRun).engine.book = some book ∧
      (krakenSync.run krakenRun).Mirrors book) ∧
    ((krakenSync.run krakenRun).applySpot wrongSum 3 0).2 = .ok .checksumMismatch ∧
    ∃ checksum, checksumFor 7 ((krakenSync.run krakenRun).candidate wrongSum).asks
        ((krakenSync.run krakenRun).candidate wrongSum).bids = .ok checksum ∧
      checksum.computed ≠ 7 := by
  have hmirror := exact_texts_mirror_book krakenConfig .disabled krakenSync tryNew_krakenConfig
    krakenRun krakenRun_parsed
  have hstate : (krakenSync.run krakenRun).state = .synchronized := by decide +kernel
  have hresult : ((krakenSync.run krakenRun).applySpot wrongSum 3 0).2 = .ok .checksumMismatch := by
    decide +kernel
  have hbuilt : (checksumFor 7 ((krakenSync.run krakenRun).candidate wrongSum).asks
      ((krakenSync.run krakenRun).candidate wrongSum).bids).toBool = true := by
    decide +kernel
  have hparsed : wrongSum.Parsed :=
    ⟨forall_mem_singleton.mpr sampleLevel_parsed.2.2, by simp [wrongSum, addLow]⟩
  refine ⟨hmirror.1 hstate, hresult, ?_⟩
  cases hchecksum : checksumFor 7 ((krakenSync.run krakenRun).candidate wrongSum).asks
      ((krakenSync.run krakenRun).candidate wrongSum).bids with
  | error err =>
    rw [hchecksum] at hbuilt
    cases hbuilt
  | ok checksum =>
    exact ⟨checksum, rfl, ((hmirror.2 wrongSum checksum hparsed hchecksum).2 3 0).2 hresult⟩

end CryptoIntelligence.Kraken
