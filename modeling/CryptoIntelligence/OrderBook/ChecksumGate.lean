/-
  Required checksums gate publication. Under the policy `required` every published book was
  certified by the checksum of its last mutation, and so was every intermediate book on the way
  from the snapshot, replayed deltas included; after a checksum failure nothing is published until
  another snapshot is installed (`required_checksum_gates`).

  `Describes` is what a verified checksum says of a book. The deltas are certified by the chains of
  `Provenance`; the snapshot by the call that installed it (`certified`).
-/
import CryptoIntelligence.OrderBook.Provenance

namespace CryptoIntelligence.OrderBook

open Lib Decimal Event OrderBookEngine List

/-! ## What a verified checksum says -/

/-- The top ten levels of each side have the values of the exact levels, and the CRC over their
    source texts is the expected one. -/
structure KrakenV2Checksum.Describes (c : KrakenV2Checksum) (asks bids : List BookLevel) :
    Prop where
  asks : c.asks.map (fun level => (level.price, level.quantity)) =
    (asks.take krakenChecksumDepth).map fun level => (level.price, level.quantity)
  bids : c.bids.map (fun level => (level.price, level.quantity)) =
    (bids.take krakenChecksumDepth).map fun level => (level.price, level.quantity)
  crc : c.computed = c.expected

theorem eq_of_sideMatches {exact : List ExactChecksumLevel} {top : List (Price × Quantity)}
    (hlength : exact.length = top.length) (h : KrakenV2Checksum.sideMatches exact top = true) :
    exact.map (fun level => (level.price, level.quantity)) = top := by
  induction exact generalizing top with
  | nil => exact (length_eq_zero_iff.mp hlength.symm).symm
  | cons level exact ih =>
    obtain ⟨entry, top, rfl⟩ := exists_cons_of_length_eq_add_one hlength.symm
    simp only [KrakenV2Checksum.sideMatches, zip_cons_cons, all_cons, Bool.and_eq_true,
      beq_iff_eq] at h
    obtain ⟨⟨hprice, hquantity⟩, hrest⟩ := h
    rw [map_cons, ih (by simpa using hlength) hrest, hprice, hquantity]

/-- The top of a side with its prices and quantities, read off the published levels. -/
theorem map_take_toBookLevel (entries : List (Price × LevelValue)) (depth : Nat) :
    ((entries.map toBookLevel).take depth).map (fun level => (level.price, level.quantity)) =
      (entries.take depth).map fun e => (e.1, e.2.quantity) := by
  rw [← map_take, map_map]
  rfl

theorem verifyBook_describes {c : KrakenV2Checksum} {book : L2Book}
    (h : c.verifyBook book = .ok true) : c.Describes book.asksAscending book.bidsDescending := by
  simp only [KrakenV2Checksum.verifyBook, bind_eq_ok, reject_eq_ok, not_or, not_not] at h
  obtain ⟨_, ⟨hasks, hbids⟩, h⟩ := h
  split at h
  · rename_i hsides
    rw [Bool.and_eq_true] at hsides
    refine ⟨?_, ?_, ?_⟩
    · rw [L2Book.asksAscending, map_take_toBookLevel]
      refine eq_of_sideMatches ?_ hsides.1
      rw [hasks, length_map, length_take, Nat.min_comm,
        Std.ExtTreeMap.length_toList]
    · rw [L2Book.bidsDescending, map_take_toBookLevel]
      refine eq_of_sideMatches ?_ hsides.2
      rw [hbids, length_map, length_take, Nat.min_comm,
        length_reverse, Std.ExtTreeMap.length_toList]
    · exact beq_iff_eq.mp (pure_eq_ok.mp h)
  · nomatch h

/-- Under the policy `required` only a checksum that describes the book is accepted. -/
theorem checksumAccepts_required {config : BookConfig}
    (hrequired : config.checksumPolicy = .required)
    {book : L2Book} {checksum : Option KrakenV2Checksum}
    (h : checksumAccepts config book checksum = true) :
    ∃ c, checksum = some c ∧ c.Describes book.asksAscending book.bidsDescending := by
  cases checksum with
  | none => simp [checksumAccepts, hrequired] at h
  | some c =>
    refine ⟨c, rfl, verifyBook_describes ?_⟩
    cases hverify : c.verifyBook book with
    | error err => simp [checksumAccepts, hverify] at h
    | ok same =>
      rw [checksumAccepts, hverify] at h
      rw [show same = true from h]

/-! ## Chains -/

/-- The book after some of the deltas of a chain is described by the checksum of the last of
    them. -/
theorem Chain.certified {config : BookConfig} (hrequired : config.checksumPolicy = .required)
    {session : BookSession} {first : Bool} {base book : L2Book}
    {ds before after : List BufferedDelta}
    {d : BufferedDelta} (h : Chain config session first base ds book)
    (hds : ds = before ++ d :: after) :
    ∃ mid c, (before ++ [d]).foldlM (fun b d => b.applyDelta d.delta config) base = .ok mid ∧
      d.checksum = some c ∧ c.Describes mid.asksAscending mid.bidsDescending := by
  induction h generalizing before with
  | nil => exact absurd hds.symm (by simp)
  | @cons _ book next _ e es _ _ hfollow _ ih =>
    obtain ⟨-, happly, haccept⟩ := follow_eq_some hfollow
    cases before with
    | nil =>
      obtain ⟨rfl, -⟩ := List.cons.inj hds
      obtain ⟨c, hc, hdescribes⟩ := checksumAccepts_required hrequired haccept
      refine ⟨next, c, ?_, hc, hdescribes⟩
      rw [nil_append, foldlM_cons, happly, ok_bind]
      rfl
    | cons b before =>
      obtain ⟨rfl, hrest⟩ := List.cons.inj hds
      obtain ⟨mid, c, hfold, hc, hdescribes⟩ := ih hrest
      refine ⟨mid, c, ?_, hc, hdescribes⟩
      rw [cons_append, foldlM_cons, happly, ok_bind, hfold]

/-! ## Calls on the engine -/

/-- How a call reports a checksum that is missing, does not match or does not fit the book. -/
def ChecksumFailure (result : Except BookError ApplyResult) : Prop :=
  result = .ok .checksumMismatch ∨ result = .error .checksumRequired ∨
    result = .error .invalidChecksumInput

/-- A call with a snapshot or a delta that failed on its checksum. -/
def Call.failsChecksum (call : Call) : Prop :=
  (call.op.snapshot?.isSome ∨ call.op.delta?.isSome) ∧
    ∃ result, call.outcome = result.map some ∧ ChecksumFailure result

theorem map_some_injective {a b : Except BookError ApplyResult} (h : a.map some = b.map some) :
    a = b := by
  cases a <;> cases b <;> simp_all [Except.map]

namespace OrderBookEngine

/-- A checksum failure costs the trust in the book. -/
theorem Effect.untrusted {e : OrderBookEngine} {op : Op}
    {r : Attempt ApplyResult} (h : Effect e op r)
    (hfailure : ChecksumFailure r.2) : r.1.state = .untrusted := by
  cases h with
  | declined _ herr => rcases herr with rfl | rfl <;> rcases hfailure with h | h | h <;> cases h
  | lost _ hl => exact hl.state
  | _ => rcases hfailure with h | h | h <;> cases h

/-- What one call does about checksums: an applied snapshot was accepted, and a failure costs the
    trust in the book. -/
theorem step_gated (blake3 : Bytes → Hash32) (e : OrderBookEngine) (op : Op) :
    (∀ snapshot session, op.snapshot? = some (snapshot, session) →
      (e.step blake3 op).2 = .ok (some .applied) →
      ∃ base, L2Book.fromSnapshot snapshot e.config = .ok base ∧
        checksumAccepts e.config base op.snapshotChecksum? = true) ∧
    (Call.failsChecksum ⟨op, (e.step blake3 op).2⟩ → (e.step blake3 op).1.state = .untrusted) := by
  have heffect := step_effect blake3 e op
  generalize e.step blake3 op = r at heffect ⊢
  cases heffect with
  | unstarted | started | disconnected | unresynced | resynced =>
    exact ⟨by intros; contradiction,
      fun h => by simp [Call.failsChecksum, Op.snapshot?, Op.delta?] at h⟩
  | refused hguard =>
    refine ⟨by intros; contradiction, ?_⟩
    rintro ⟨_, result, hresult, hfailure⟩
    rcases hfailure with rfl | rfl | rfl <;> cases hresult <;> cases hguard
  | ordered hsnapshot hdelta =>
    exact ⟨by simp [hsnapshot], fun h => by simp [Call.failsChecksum, hsnapshot, hdelta] at h⟩
  | updated heffect =>
    refine ⟨fun snapshot session hsnapshot happlied => ?_, ?_⟩
    · cases heffect with
      | lost _ _ hresult => exact absurd (map_some_injective happlied) hresult.ne_applied
      | streamed hop _ _ hbase haccept | aligned hop _ _ _ _ hbase haccept =>
        obtain ⟨rfl, -⟩ := Prod.mk.inj (Option.some.inj (hop.symm.trans hsnapshot))
        exact ⟨_, hbase, haccept⟩
      | live hop =>
        rw [(Op.of_delta hop).1] at hsnapshot
        cases hsnapshot
      | _ => cases happlied
    · rintro ⟨-, result, hresult, hfailure⟩
      exact heffect.untrusted (map_some_injective hresult ▸ hfailure)

end OrderBookEngine

/-! ## Runs -/

variable {call : Call}

/-- Only a snapshot restores trust. -/
theorem not_trusted_step {config : BookConfig} {f f' : Feed}
    (hstep : f.Step config call f') (hinstalls : ¬ call.installs)
    (h : ∀ book, f.phase ≠ .trusted book) (book : L2Book) : f'.phase ≠ .trusted book := by
  cases hstep with
  | stay => exact h book
  | start | disconnect | resync | lose | collect => nofun
  | install hop => exact absurd ⟨by rw [hop]; rfl, rfl⟩ hinstalls
  | live _ _ _ _ hphase => exact absurd hphase (h _)
  | refresh => exact h book

/-- After a checksum failure there is no trusted book until a snapshot is installed. -/
theorem untrusted_after_failure (blake3 : Bytes → Hash32) {config : BookConfig}
    {e : OrderBookEngine}
    (hnew : new config = .ok e) (ops : List Op) {before after : List Call}
    (hhistory : e.history blake3 ops = before ++ call :: after)
    (hfails : call.failsChecksum) (hquiet : ∀ c ∈ after, ¬ c.installs) (book : L2Book) :
    (e.run blake3 ops).feed.phase ≠ .trusted book := by
  obtain ⟨-, hstate, -⟩ := new_eq_ok hnew
  refine (run_induction (step blake3) (fun calls e => e.state ≠ .replaying ∧
    ∀ before call after, calls = before ++ call :: after → call.failsChecksum →
      (∀ c ∈ after, ¬ c.installs) → ∀ book, e.feed.phase ≠ .trusted book)
    ⟨by rw [hstate]; decide, ?_⟩ ?_ ops).2 before call after hhistory hfails hquiet book
  · intro before call after h
    exact absurd h.symm (by simp)
  · rintro calls e op ⟨hstate, hlost⟩
    obtain ⟨hstep, hstate', -⟩ := step_refines blake3 hstate op
    refine ⟨hstate', fun before call after hcalls hfails hquiet => ?_⟩
    rcases eq_nil_or_concat' after with rfl | ⟨after, last, rfl⟩
    · -- the call that failed is the last one
      obtain ⟨-, hlast⟩ := append_inj' hcalls rfl
      obtain rfl := (List.cons.inj hlast).1
      have huntrusted := (OrderBookEngine.step_gated blake3 e op).2 hfails
      intro book h
      unfold feed phase at h
      rw [huntrusted] at h
      cases h
    · rw [← cons_append, ← append_assoc] at hcalls
      obtain ⟨hearlier, hlast⟩ := append_inj' hcalls rfl
      obtain rfl := (List.cons.inj hlast).1
      exact not_trusted_step hstep (hquiet _ (by simp))
        (hlost before call after hearlier hfails fun c hc => hquiet c (by simp [hc]))

namespace Origin

variable {config : BookConfig} {session : BookSession} {calls : List Call} {book : L2Book}

/-- The deltas of an origin lead from its snapshot to the book. -/
theorem foldlM_eq (o : Origin config session calls book) :
    (o.replayed ++ o.live).foldlM (fun b d => b.applyDelta d.delta config) o.base = .ok book := by
  rw [foldlM_append, o.replay_chain.spec.2.1, ok_bind, o.live_chain.spec.2.1]

/-- The snapshot of an origin was described by the checksum that came with it. -/
theorem certified (blake3 : Bytes → Hash32) {e : OrderBookEngine} {ops : List Op}
    (o : Origin config session (e.history blake3 ops) book)
    (hnew : new config = .ok e) (hrequired : config.checksumPolicy = .required) :
    ∃ c, o.install.snapshotChecksum? = some c ∧
      c.Describes o.base.asksAscending o.base.bidsDescending := by
  obtain ⟨earlier, -, houtcome⟩ := historyOf_split (step blake3) o.calls_eq
  have hconfig := (traced_run blake3 hnew earlier).1
  obtain ⟨base, hbase, haccept⟩ :=
    (OrderBookEngine.step_gated blake3 (e.run blake3 earlier) o.install).1 o.snapshot session
      o.submitted houtcome
  rw [hconfig] at hbase haccept
  obtain rfl : o.base = base := Except.ok.inj (o.base_eq.symm.trans hbase)
  exact checksumAccepts_required hrequired haccept

/-- The book after each delta of an origin is described by the checksum of that delta. -/
theorem deltas_certified (o : Origin config session calls book)
    (hrequired : config.checksumPolicy = .required) (earlier : List BufferedDelta)
    (d : BufferedDelta) (later : List BufferedDelta)
    (h : o.replayed ++ o.live = earlier ++ d :: later) :
    ∃ mid c, (earlier ++ [d]).foldlM (fun b d => b.applyDelta d.delta config) o.base = .ok mid ∧
      d.checksum = some c ∧ c.Describes mid.asksAscending mid.bidsDescending := by
  rcases append_eq_append_iff.mp h with ⟨rest, hearlier, hlive⟩ | ⟨rest, hreplayed, hrest⟩
  · obtain ⟨mid, c, hfold, hc, hdescribes⟩ := o.live_chain.certified hrequired hlive
    refine ⟨mid, c, ?_, hc, hdescribes⟩
    rw [hearlier, append_assoc, foldlM_append, o.replay_chain.spec.2.1, ok_bind, hfold]
  · cases rest with
    | nil =>
      have hlive : o.live = [] ++ d :: later := hrest.symm
      obtain ⟨mid, c, hfold, hc, hdescribes⟩ := o.live_chain.certified hrequired hlive
      refine ⟨mid, c, ?_, hc, hdescribes⟩
      rw [append_nil] at hreplayed
      rw [← hreplayed, foldlM_append, o.replay_chain.spec.2.1, ok_bind]
      exact hfold
    | cons d' rest =>
      obtain ⟨rfl, -⟩ := List.cons.inj hrest
      exact o.replay_chain.certified hrequired hreplayed

end Origin

/-- The checksum of the last of a snapshot and the deltas after it. -/
def lastChecksum (snapshot : Option KrakenV2Checksum) (ds : List BufferedDelta) :
    Option KrakenV2Checksum :=
  match ds.getLast? with
  | some d => d.checksum
  | none => snapshot

/-- Under the policy `required`, a published view is described by the checksum of the last
    mutation of the current session: its snapshot was certified when it was installed, and so was
    the book after each delta, replayed or live. After a checksum failure nothing is published
    before another snapshot is installed. -/
theorem required_checksum_gates (blake3 : Bytes → Hash32) (config : BookConfig)
    (e : OrderBookEngine)
    (hnew : new config = .ok e) (hrequired : config.checksumPolicy = .required)
    (ops : List Op) :
    (∀ view, (e.run blake3 ops).snapshot = .ok view →
      ∃ (before waiting after : List Call) (install : Op) (snapshot : BookSnapshot)
        (replayed live : List BufferedDelta) (base : L2Book) (checksum last : KrakenV2Checksum),
        e.history blake3 ops = before ++ waiting ++ ⟨install, .ok (some .applied)⟩ :: after ∧
        install.snapshot? = some (snapshot, view.session) ∧
        (∀ call ∈ waiting ++ after, ¬ call.installs) ∧
        replayed.Sublist (waiting.filterMap Call.waiting?) ∧
        live = after.filterMap Call.applied? ∧
        L2Book.fromSnapshot snapshot config = .ok base ∧
        install.snapshotChecksum? = some checksum ∧
        checksum.Describes base.asksAscending base.bidsDescending ∧
        (∀ earlier d later, replayed ++ live = earlier ++ d :: later →
          ∃ mid c, (earlier ++ [d]).foldlM (fun b d => b.applyDelta d.delta config) base = .ok mid ∧
            d.checksum = some c ∧ c.Describes mid.asksAscending mid.bidsDescending) ∧
        lastChecksum (some checksum) (replayed ++ live) = some last ∧
        last.Describes view.asks view.bids) ∧
    (∀ before call after, e.history blake3 ops = before ++ call :: after → call.failsChecksum →
      (∀ c ∈ after, ¬ c.installs) → ∀ view, (e.run blake3 ops).snapshot ≠ .ok view) := by
  obtain ⟨-, -, htraced⟩ := traced_run blake3 hnew ops
  refine ⟨fun view hview => ?_, fun before call after hhistory hfails hquiet view hview => ?_⟩
  · obtain ⟨book, hphase, hsession, hbids, hasks, -, -⟩ := snapshot_eq_ok hview
    obtain ⟨session, hs, ⟨o⟩⟩ := htraced.trusted book hphase
    obtain rfl : view.session = session := Option.some.inj (hsession.symm.trans hs)
    obtain ⟨checksum, hchecksum, hsnapshot⟩ := o.certified blake3 hnew hrequired
    have hfold := o.foldlM_eq
    have hdeltas := o.deltas_certified hrequired
    refine ⟨o.before, o.waiting, o.after, o.install, o.snapshot, o.replayed, o.live, o.base,
      checksum, (lastChecksum (some checksum) (o.replayed ++ o.live)).getD checksum, o.calls_eq,
      o.submitted, ?_, o.replayed_waited, o.live_applied, o.base_eq, hchecksum, hsnapshot, hdeltas,
      ?_⟩
    · intro call hcall
      exact (mem_append.mp hcall).elim (o.waiting_quiet call) (o.after_quiet call)
    · rw [hasks, hbids]
      rcases eq_nil_or_concat' (o.replayed ++ o.live) with hnone | ⟨earlier, d, hsome⟩
      · rw [hnone] at hfold ⊢
        rw [← show o.base = book from Except.ok.inj hfold]
        exact ⟨rfl, hsnapshot⟩
      · obtain ⟨mid, c, hmid, hc, hdescribes⟩ := hdeltas earlier d [] hsome
        rw [← hsome, hfold] at hmid
        obtain rfl := Except.ok.inj hmid
        have hlast : lastChecksum (some checksum) (o.replayed ++ o.live) = some c := by
          rw [hsome, lastChecksum, getLast?_concat]
          exact hc
        rw [hlast]
        exact ⟨rfl, hdescribes⟩
  · obtain ⟨book, hphase, -⟩ := snapshot_eq_ok hview
    exact untrusted_after_failure blake3 hnew ops hhistory hfails hquiet book hphase

/-- The configuration of the sample run with required checksums. -/
def checkedConfig : BookConfig :=
  { sampleConfig .rangeContainsNext with checksumPolicy := .required }

/-- Printed values are read back. -/
theorem parseExact_display {price : Price} {quantity : Quantity}
    (hprice : validDecimalText price.display = true)
    (hquantity : validDecimalText quantity.display = true) :
    parseExact price.display quantity.display = .ok (price, quantity) := by
  have hp : FixedDecimal.parse price.display = .ok price.value := FixedDecimal.parse_display _
  have hq : FixedDecimal.parse quantity.display = .ok quantity.value := FixedDecimal.parse_display _
  have hprice' : Price.new price.value = .ok price := dif_pos price.valid
  have hquantity' : Quantity.new quantity.value = .ok quantity := dif_pos quantity.valid
  simp only [parseExact, hprice, hquantity, hp, hq, hprice', hquantity', asChecksumInput, ok_bind]
  rfl

/-- The checksum of the sample book. -/
def sampleChecksum : KrakenV2Checksum where
  expected := ieeeCrc32 [0x31, 0x30, 0x31, 0x33, 0x39, 0x39, 0x32]
  asks := [⟨_, _, sampleAsk.price, sampleAsk.quantity,
    parseExact_display (by decide +kernel) (by decide +kernel), by decide⟩]
  bids := [⟨_, _, sampleBid.price, sampleBid.quantity,
    parseExact_display (by decide +kernel) (by decide +kernel), by decide⟩]
  valid := by decide +kernel

/-- The sample run with a checksum on every mutation. -/
def checkedRun : List Op :=
  [.startSession sampleSession .externalBuffered,
    .applyDeltaChecked (sampleDelta 9 11) sampleSession 1 0 sampleChecksum,
    .applySnapshotChecked sampleSnapshot sampleSession 2 0 sampleChecksum,
    .applyDeltaChecked (sampleDelta 12 12) sampleSession 3 0 sampleChecksum]

/-- A view published under required checksums is described by one. -/
theorem required_checksum_gates_sample :
    ∃ (view : BookSnapshotView) (last : KrakenV2Checksum),
      ((fresh checkedConfig).run sampleDigest
        checkedRun).snapshot = .ok view ∧ last.Describes view.asks view.bids := by
  have hsome : ((fresh checkedConfig).run sampleDigest
      checkedRun).snapshot.toOption.isSome = true := by
    decide +kernel
  cases hview : ((fresh checkedConfig).run sampleDigest
      checkedRun).snapshot with
  | error err =>
    rw [hview] at hsome
    nomatch hsome
  | ok view =>
    obtain ⟨-, -, -, -, -, -, -, -, -, last, -, -, -, -, -, -, -, -, -, -, hlast⟩ :=
      (required_checksum_gates sampleDigest checkedConfig _
        (new_of_validate (by decide)) rfl checkedRun).1 view hview
    exact ⟨view, last, rfl, hlast⟩

end CryptoIntelligence.OrderBook
