/-
  Alignment under `PreviousFinal`. The first delta after a snapshot may align by range, but the
  engine grants this only to the first delta it replays from the buffer. `aligned_iff` says
  exactly when a chained stream ends synchronized at its last delta: when a delta that is newer
  than the snapshot was already waiting for it, or when the first such delta names the snapshot's
  own sequence. Otherwise the first newer delta that comes live is taken for a gap
  (`live_first_delta_gaps`).
-/
import CryptoIntelligence.OrderBook.Buffering

namespace CryptoIntelligence.OrderBook

open Lib Event List Option

/-! ## What the stream means -/

/-- Each delta names the last sequence of the one before it and is not older. -/
def Chained : List Arrival → Prop :=
  List.IsChain fun a b =>
    b.previous = some a.delta.lastSequence ∧ a.delta.lastSequence ≤ b.delta.lastSequence

/-- A delta on the book, unless the book is already past it. -/
def settle (config : BookConfig) (book : L2Book) (delta : BookDelta) : Except BookError L2Book :=
  if delta.lastSequence ≤ book.sequence then .ok book else book.applyDelta delta config

/-- The book of a snapshot and all deltas newer than it, whenever they arrive. -/
def settled (config : BookConfig) (base : L2Book) (as : List Arrival) : Except BookError L2Book :=
  as.foldlM (fun book a => settle config book a.delta) base

namespace OrderBookEngine

variable {config : BookConfig} {session : BookSession}

/-! ## Steps -/

theorem settled_cons (base : L2Book) (a : Arrival) (as : List Arrival) :
    settled config base (a :: as) = settle config base a.delta >>= fun book =>
      settled config book as := by
  rw [settled, foldlM_cons]
  rfl

theorem settled_append (base : L2Book) (as bs : List Arrival) :
    settled config base (as ++ bs) = settled config base as >>= fun book =>
      settled config book bs := by
  rw [settled, foldlM_append]
  rfl

variable {book : L2Book} {stale : List Arrival}

/-- Stale deltas change nothing, waiting or live. -/
theorem advance_stale (config : BookConfig) (session : BookSession)
    (h : ∀ a ∈ stale, a.delta.lastSequence ≤ book.sequence) (first : Bool) :
    (stale.map (Arrival.buffered session)).foldlM (advance config session) (book, first) =
        some (book, first) ∧
      settled config book stale = .ok book := by
  induction stale with
  | nil => exact ⟨rfl, rfl⟩
  | cons a stale ih =>
    have ha := h a (by simp)
    obtain ⟨h₁, h₂⟩ := ih fun b hb => h b (by simp [hb])
    have hadvance : advance config session (book, first) (a.buffered session) =
        some (book, first) := by
      simp [advance, Arrival.buffered, ha]
    have hsettle : settle config book a.delta = .ok book := by
      simp [settle, ha]
    rw [map_cons, foldlM_cons, hadvance, settled_cons, hsettle]
    exact ⟨h₁, h₂⟩

/-- A delta that is newer and accepted by the rule is applied, waiting or live. -/
theorem advance_newer (session : BookSession) (first : Bool)
    (hchecksum : config.checksumPolicy = .disabled)
    {a : Arrival} (hnewer : book.sequence < a.delta.lastSequence)
    (hchecks : PassesChecks config a.delta)
    (hrule : sequenceRule config.sequencePolicy a.delta book.sequence first a.previous =
      some true) :
    ∃ next, advance config session (book, first) (a.buffered session) = some (next, false) ∧
      settle config book a.delta = .ok next ∧ next.sequence = a.delta.lastSequence := by
  obtain ⟨next, hnext⟩ := hchecks.applies book
  have hstale : ¬ a.delta.lastSequence ≤ book.sequence := UInt64.not_le.mpr hnewer
  have hfollow : follow config first book (a.buffered session) = some next := by
    simp [follow, Arrival.buffered, hrule, hnext, checksumAccepts, hchecksum]
  refine ⟨next, ?_, ?_, applyDelta_sequence hnext⟩
  · simp only [advance, hfollow]
    simp [Arrival.buffered, hstale]
  · simp [settle, hstale, hnext]

/-- A chained stream goes on from the delta it names. -/
theorem advance_chained (session : BookSession) (hchecksum : config.checksumPolicy = .disabled)
    (hpolicy : config.sequencePolicy = .previousFinal) {rest : List Arrival} :
    ∀ {book : L2Book} {a : Arrival}, book.sequence = a.delta.lastSequence → Chained (a :: rest) →
    (∀ b ∈ rest, PassesChecks config b.delta) →
    ∃ last, (rest.map (Arrival.buffered session)).foldlM (advance config session) (book, false) =
        some (last, false) ∧
      settled config book rest = .ok last ∧
      last.sequence = (rest.getLastD a).delta.lastSequence := by
  induction rest with
  | nil =>
    intro book a hbook _ _
    exact ⟨book, rfl, rfl, hbook⟩
  | cons b rest ih =>
    intro book a hbook hchain hchecks
    obtain ⟨⟨hnames, hle⟩, hchain⟩ := isChain_cons_cons.mp hchain
    have hrest : ∀ c ∈ rest, PassesChecks config c.delta := fun c hc => hchecks c (by simp [hc])
    rw [map_cons, foldlM_cons, settled_cons, getLastD_cons]
    by_cases hstale : b.delta.lastSequence ≤ book.sequence
    · -- the same final sequence again: the book stays, and stands where `b` ends
      have hsame : book.sequence = b.delta.lastSequence := by
        rw [hbook] at hstale ⊢
        exact UInt64.le_antisymm hle hstale
      have hadvance : advance config session (book, false) (b.buffered session) =
          some (book, false) := by
        simp [advance, Arrival.buffered, hstale]
      have hsettle : settle config book b.delta = .ok book := by
        simp [settle, hstale]
      rw [hadvance, hsettle]
      exact ih hsame hchain hrest
    · have hrule : sequenceRule config.sequencePolicy b.delta book.sequence false b.previous =
          some true := by
        simp [sequenceRule, hpolicy, hnames, hbook]
      obtain ⟨next, hadvance, hsettle, hnext⟩ := advance_newer session false hchecksum
        (UInt64.not_le.mp hstale) (hchecks b (by simp)) hrule
      rw [hadvance, hsettle]
      exact ih hnext hchain hrest

theorem sequenceRule_of_containsNext {delta : BookDelta} {current : UInt64}
    (h : ContainsNext delta current) (previous : Option UInt64) :
    sequenceRule .previousFinal delta current true previous = some true := by
  have hlt : current.toNat + 1 < 2 ^ 64 := lt_of_le_of_lt h.2 (UInt64.toNat_lt _)
  have hnext : checkedNext current = some (current + 1) := if_pos hlt
  have htoNat := checkedNext_eq_some hnext
  simp only [sequenceRule, hnext, map_some, UInt64.le_iff_toNat_le, htoNat, h.1, h.2,
    decide_true, Bool.and_self]

/-! ## The whole stream -/

/-- The engine publishes the settled book at the last sequence of the stream. -/
def AlignedAt (e : OrderBookEngine) (settled : Except BookError L2Book) (last : UInt64) : Prop :=
  e.state = .synchronized ∧ ∃ book, settled = .ok book ∧
    e.published = some (book.bidsDescending, book.asksAscending, last)

theorem alignedAt_of_reaches {e : OrderBookEngine} {settled : Except BookError L2Book}
    {last : UInt64} (hsession : e.session = some session)
    (h : e.Reaches (some book)) (hsettled : settled = .ok book) (hlast : book.sequence = last) :
    e.AlignedAt settled last := by
  refine ⟨h.1, book, hsettled, ?_⟩
  rw [published_of_reaches hsession h, ← hlast]
  rfl

theorem not_alignedAt_of_lost {e : OrderBookEngine} {settled : Except BookError L2Book}
    {last : UInt64} (h : e.Reaches none) : ¬ e.AlignedAt settled last := by
  intro haligned
  have hstate : e.state = .untrusted := h
  exact absurd (hstate.symm.trans haligned.1) (by decide)

/-- The first newer delta was waiting: it aligns by range and the rest follows. -/
theorem sessionBook_of_waiting (session : BookSession)
    (hchecksum : config.checksumPolicy = .disabled)
    (hpolicy : config.sequencePolicy = .previousFinal) {base : L2Book} {mid bs : List Arrival}
    {d : Arrival} (hstale : ∀ a ∈ stale, a.delta.lastSequence ≤ base.sequence)
    (hnext : ContainsNext d.delta base.sequence)
    (hchain : Chained (d :: (mid ++ bs)))
    (hchecks : ∀ a ∈ d :: (mid ++ bs), PassesChecks config a.delta) :
    ∃ book, sessionBook config session base (stale ++ d :: mid) bs = some book ∧
      settled config base (stale ++ d :: (mid ++ bs)) = .ok book ∧
      book.sequence = ((mid ++ bs).getLastD d).delta.lastSequence := by
  obtain ⟨hskip, hsettled⟩ := advance_stale config session hstale true
  have hnewer : base.sequence < d.delta.lastSequence := by
    rw [UInt64.lt_iff_toNat_lt]
    exact hnext.2
  obtain ⟨next, hadvance, hsettle, hsequence⟩ := advance_newer session true
    hchecksum hnewer (hchecks d (by simp)) (by
      rw [hpolicy]
      exact sequenceRule_of_containsNext hnext d.previous)
  obtain ⟨last, hfold, hrest, hlast⟩ := advance_chained session hchecksum hpolicy
    hsequence hchain fun b hb => hchecks b (by simp [hb])
  rw [map_append, foldlM_append] at hfold
  obtain ⟨⟨middle, flag⟩, hmid, hbs⟩ := bind_eq_some_iff.mp hfold
  obtain rfl : flag = false := foldlM_advance_live hmid
  refine ⟨last, ?_, ?_, hlast⟩
  · unfold sessionBook
    rw [map_append, foldlM_append, hskip]
    simp only [bind_eq_bind, bind_some, map_cons, foldlM_cons, hadvance,
      hmid, map_some, hbs]
  · rw [settled_append, hsettled, ok_bind, settled_cons, hsettle, ok_bind, hrest]

/-- Every newer delta came live: the first of them has to name the snapshot's sequence. -/
theorem sessionBook_of_live (session : BookSession) (hchecksum : config.checksumPolicy = .disabled)
    (hpolicy : config.sequencePolicy = .previousFinal) {base : L2Book}
    {as rest : List Arrival} {d : Arrival}
    (has : ∀ a ∈ as, a.delta.lastSequence ≤ base.sequence)
    (hstale : ∀ a ∈ stale, a.delta.lastSequence ≤ base.sequence)
    (hnewer : base.sequence < d.delta.lastSequence) (hchain : Chained (d :: rest))
    (hchecks : ∀ a ∈ d :: rest, PassesChecks config a.delta) :
    if d.previous = some base.sequence then
      ∃ book, sessionBook config session base as (stale ++ d :: rest) = some book ∧
        settled config base (as ++ (stale ++ d :: rest)) = .ok book ∧
        book.sequence = (rest.getLastD d).delta.lastSequence
    else sessionBook config session base as (stale ++ d :: rest) = none := by
  obtain ⟨hskip₁, hsettled₁⟩ := advance_stale config session has true
  obtain ⟨hskip₂, hsettled₂⟩ := advance_stale config session hstale false
  have hlive : sessionBook config session base as (stale ++ d :: rest) =
      (advance config session (base, false) (d.buffered session) >>= fun next =>
        (rest.map (Arrival.buffered session)).foldlM (advance config session) next).map
          Prod.fst := by
    unfold sessionBook
    rw [hskip₁, map_append, map_cons]
    simp only [map_some, bind_some, foldlM_append, hskip₂, bind_eq_bind,
      foldlM_cons]
  rw [hlive]
  split
  · rename_i hnames
    obtain ⟨next, hadvance, hsettle, hsequence⟩ := advance_newer session false
      hchecksum hnewer (hchecks d (by simp)) (by
        simp [sequenceRule, hpolicy, hnames])
    obtain ⟨last, hfold, hrest, hlast⟩ := advance_chained session hchecksum hpolicy
      hsequence hchain fun b hb => hchecks b (by simp [hb])
    refine ⟨last, ?_, ?_, hlast⟩
    · simp only [hadvance, bind_eq_bind, bind_some, hfold, map_some]
    · rw [settled_append, hsettled₁, ok_bind, settled_append, hsettled₂, ok_bind, settled_cons,
        hsettle, ok_bind, hrest]
  · rename_i hnames
    have hstop : advance config session (base, false) (d.buffered session) = none := by
      simp [advance, Arrival.buffered, UInt64.not_le.mpr hnewer, follow, sequenceRule, hpolicy,
        hnames]
    rw [hstop]
    rfl

/-- A chained stream whose first delta newer than the snapshot contains the next sequence ends
    synchronized at its last delta, with the settled levels, exactly when a newer delta was
    already waiting for the snapshot or the first newer one names the snapshot's sequence. -/
theorem aligned_iff (blake3 : Bytes → Hash32) (e : OrderBookEngine) (session : BookSession)
    (hsession : e.validateNewSession session = .ok ())
    (hchecksum : e.config.checksumPolicy = .disabled)
    (hpolicy : e.config.sequencePolicy = .previousFinal)
    (snapshot : BookSnapshot) (base : L2Book)
    (hbase : L2Book.fromSnapshot snapshot e.config = .ok base)
    (as bs stale rest : List Arrival) (d : Arrival) (hstream : as ++ bs = stale ++ d :: rest)
    (hchain : Chained (as ++ bs))
    (hstale : ∀ a ∈ stale, a.delta.lastSequence ≤ snapshot.lastSequence)
    (hnext : ContainsNext d.delta snapshot.lastSequence)
    (hchecks : ∀ a ∈ as ++ bs, PassesChecks e.config a.delta)
    (hcount : as.length ≤ e.config.maxBufferedDeltas)
    (hupdates : levelUpdates as ≤ e.config.maxBufferedLevelUpdates) (now : UInt64)
    (htimes : NonDecreasing e.lastObservedMonotonicNs (sessionTimes as now bs)) :
    (e.run blake3 (sessionOps session as snapshot now bs)).AlignedAt
        (settled e.config base (as ++ bs)) (rest.getLastD d).delta.lastSequence ↔
      (∃ a ∈ as, snapshot.lastSequence < a.delta.lastSequence) ∨
        d.previous = some snapshot.lastSequence := by
  obtain ⟨hs, hr⟩ := session_reaches blake3 hsession hchecksum hbase hchecks hcount hupdates htimes
  rw [← fromSnapshot_sequence hbase] at hstale hnext ⊢
  have hnewer : base.sequence < d.delta.lastSequence := by
    rw [UInt64.lt_iff_toNat_lt]
    exact hnext.2
  have htail : Chained (d :: rest) := by
    rw [hstream] at hchain
    exact hchain.right_of_append
  have htailChecks : ∀ a ∈ d :: rest, PassesChecks e.config a.delta := fun a ha =>
    hchecks a (by rw [hstream]; exact mem_append_right _ ha)
  have hlive (as' : List Arrival) (hsplit : stale = as ++ as') (hbs : bs = as' ++ d :: rest) :
      (e.run blake3 (sessionOps session as snapshot now bs)).AlignedAt
          (settled e.config base (as ++ bs)) (rest.getLastD d).delta.lastSequence ↔
        (∃ a ∈ as, base.sequence < a.delta.lastSequence) ∨ d.previous = some base.sequence := by
    have has : ∀ a ∈ as, a.delta.lastSequence ≤ base.sequence := fun a ha =>
      hstale a (by rw [hsplit]; exact mem_append_left _ ha)
    have has' : ∀ a ∈ as', a.delta.lastSequence ≤ base.sequence := fun a ha =>
      hstale a (by rw [hsplit]; exact mem_append_right _ ha)
    have hnone : ¬ ∃ a ∈ as, base.sequence < a.delta.lastSequence :=
      fun ⟨a, ha, hlt⟩ => absurd hlt (UInt64.not_lt.mpr (has a ha))
    have hbook := sessionBook_of_live session hchecksum hpolicy has has' hnewer htail
      htailChecks
    rw [or_iff_right hnone]
    rw [← hbs] at hbook
    split at hbook
    · rename_i hnames
      obtain ⟨book, hsome, hsettled, hlast⟩ := hbook
      rw [hsome] at hr
      exact ⟨fun _ => hnames, fun _ => alignedAt_of_reaches hs hr hsettled hlast⟩
    · rename_i hnames
      rw [hbook] at hr
      exact ⟨fun h => absurd h (not_alignedAt_of_lost hr), fun h => absurd h hnames⟩
  -- every delta before the snapshot was stale, or the first newer one is among them
  rcases append_eq_append_iff.mp hstream with ⟨as', hsplit, hbs⟩ | ⟨cs, has, hcs⟩
  · exact hlive as' hsplit hbs
  · cases cs with
    | nil => exact hlive [] (by simpa using has.symm) hcs.symm
    | cons c mid =>
      rw [cons_append] at hcs
      obtain ⟨rfl, rfl⟩ := List.cons.inj hcs
      subst has
      obtain ⟨book, hsome, hsettled, hlast⟩ := sessionBook_of_waiting session
        hchecksum hpolicy hstale hnext htail htailChecks
      rw [hsome] at hr
      rw [← hstream] at hsettled
      exact ⟨fun _ => .inl ⟨d, by simp, hnewer⟩,
        fun _ => alignedAt_of_reaches hs hr hsettled hlast⟩

/-- A delta whose range contains the sequence after the snapshot, and whose predecessor ends
    before it. -/
def overlappingArrival (now : UInt64) : Arrival := ⟨sampleDelta 9 12, now, some 8⟩

/-- The stream of one overlapping delta, waiting for the snapshot: the engine aligns. -/
theorem aligned_iff_waiting :
    ((fresh (sampleConfig .previousFinal)).run sampleDigest
      (sessionOps sampleSession [overlappingArrival 1] sampleSnapshot 2 [])).AlignedAt
        (settled (sampleConfig .previousFinal) sampleBase [overlappingArrival 1]) 12 :=
  (aligned_iff _ (fresh (sampleConfig .previousFinal)) sampleSession (sampleSession_starts _) rfl
    rfl sampleSnapshot sampleBase (sampleSnapshot_accepted _) [overlappingArrival 1] [] [] []
    (overlappingArrival 1) rfl (isChain_singleton _) nofun ⟨by decide, by decide⟩
    (by
      intro a ha
      rw [append_nil, mem_singleton] at ha
      rw [ha]
      rfl)
    (by decide) (by decide) 2 (by decide)).mpr (.inl ⟨_, mem_singleton_self _, by decide⟩)

/-- The same delta live: the engine reports a gap and gives up the book. -/
theorem live_first_delta_gaps :
    ContainsNext (overlappingArrival 2).delta sampleSnapshot.lastSequence ∧
      ((fresh (sampleConfig .previousFinal)).run sampleDigest
        (sessionOps sampleSession [] sampleSnapshot 1 [overlappingArrival 2])).state =
          .untrusted ∧
      ((fresh (sampleConfig .previousFinal)).run sampleDigest
        (sessionOps sampleSession [overlappingArrival 1] sampleSnapshot 2 [])).state =
          .synchronized :=
  ⟨⟨by decide, by decide⟩, by decide, by decide⟩

end OrderBookEngine

end CryptoIntelligence.OrderBook
