import Cl8yDex.PairRuns
import Cl8yDex.SnapshotCoherence

/-!
# Mirrors over runs

What a job knows when it makes a request is enough for the request to keep the mirrors coherent, so
that they are after every run of the jobs, however these are interleaved and cut off.
-/

namespace Cl8yDex.BookSnapshot

open DecimalText Interleaving

section Jobs

variable {contractText : Addr → String} {chain : ℤ → PairStorage}
  {fromStr : String → Option ℚ} {α : Type} {Q : α → Prop}

/-- The job keeps the mirrors coherent and its result is as told. -/
abbrev Kept (contractText : Addr → String) (chain : ℤ → PairStorage) (Q : α → Prop)
    (p : Job α) : Prop :=
  p.Keeps (Serves contractText chain) (Coherent contractText chain) Later Q

theorem kept_ofSql {r : Except SnapshotError α} (h : ∀ v, r = .ok v → Q v) :
    Kept contractText chain Q (ofSql r) := by
  cases r with
  | ok v => exact h v rfl
  | error e => exact trivial

theorem kept_ofLcd {r : Except LcdError α} (h : ∀ v, r = .ok v → Q v) :
    Kept contractText chain Q (ofLcd r) := by
  cases r with
  | ok v => exact h v rfl
  | error e => exact trivial

theorem kept_refuse {msg : String} : Kept contractText chain Q (refuse msg) := trivial

/-- A request that only reads tells what its answers tell. -/
theorem kept_read {r : Request} {Q : r.Answer → Prop}
    (h : ∀ db a db', Coherent contractText chain db → Serves contractText chain r db a db' →
      db' = db ∧ Q a) : Kept contractText chain Q (Program.request r) := by
  apply Program.Keeps.request
  intro db a db' hdb hserves
  obtain ⟨rfl, hQ⟩ := h db a db' hdb hserves
  exact ⟨hdb, .refl _, hQ⟩

/-- A statement or a transaction. -/
theorem kept_performed {r : Request}
    (h : ∀ db a db', Coherent contractText chain db → Serves contractText chain r db a db' →
      Coherent contractText chain db' ∧ Later db db') :
    Kept contractText chain (fun _ => True) (Program.request r) := by
  apply Program.Keeps.request
  intro db a db' hdb hserves
  obtain ⟨hcoherent, hlater⟩ := h db a db' hdb hserves
  exact ⟨hcoherent, hlater, trivial⟩

theorem toUnit_ok {r : Except SnapshotError Database} {v : Unit} {db : Database}
    (h : toUnit r = .ok (v, db)) : r = .ok db := by
  cases r with
  | error e => cases h
  | ok db' =>
      cases h
      rfl

theorem kept_utcNow : Kept contractText chain (fun _ => True) (Program.request .utcNow) :=
  kept_read fun _ _ _ _ hserves => ⟨hserves, trivial⟩

theorem kept_pool (blockHeight : Option ℤ) : Kept contractText chain
    (fun a : Except LcdError PoolResponse => ∀ response, a = .ok response →
      ∀ h, blockHeight = some h → response = queryPool (chain h))
    (Program.request (Request.pool blockHeight)) :=
  kept_read fun _ _ _ _ hserves =>
    ⟨hserves.1, fun response hok h hh => hserves.2 h response hh hok⟩

theorem kept_getFeeConfig (height : ℤ) : Kept contractText chain
    (fun a : Except LcdError ℕ => ∀ fee, a = .ok fee → (fee : ℤ) = feeAt chain height)
    (Program.request (Request.getFeeConfig height)) :=
  kept_read fun _ _ _ _ hserves => ⟨hserves.1, fun fee hok => congrArg _ (hserves.2 fee hok)⟩

theorem kept_getAssetById (assetId : ℤ) :
    Kept contractText chain (fun _ => True) (Program.request (.getAssetById assetId)) :=
  kept_read fun _ _ _ _ hserves => ⟨hserves.1, trivial⟩

theorem kept_selectFee (height : ℤ) : Kept contractText chain
    (fun a : Except SnapshotError (Option ℤ) => ∀ v, a = .ok v →
      ∀ fee, v = some fee → fee = feeAt chain height)
    (Program.request (Request.selectFee height)) := by
  apply kept_read
  intro db a db' hdb hserves
  obtain ⟨rfl, hselected⟩ := hserves
  refine ⟨rfl, fun v ha fee hfee => ?_⟩
  obtain ⟨now, hnow⟩ := hselected v ha
  exact hdb.selected (hnow.symm.trans hfee)

theorem kept_applyCachedFee (height fee : ℤ) :
    Kept contractText chain (fun _ => True) (Program.request (.applyCachedFee height fee)) := by
  apply kept_performed
  intro db a db' hdb hserves
  obtain ⟨now, v, hok, -⟩ | ⟨-, rfl⟩ := hserves
  · exact hdb.applyCached (toUnit_ok hok)
  · exact ⟨hdb, .refl _⟩

theorem kept_publishFee {height fee : ℤ} (observedAt : ℤ) (hfee : fee = feeAt chain height) :
    Kept contractText chain (fun _ => True)
      (Program.request (.publishFee height fee observedAt)) := by
  apply kept_performed
  intro db a db' hdb hserves
  obtain ⟨now, v, hok, -⟩ | ⟨-, rfl⟩ := hserves
  · exact hdb.publish hfee (toUnit_ok hok)
  · exact ⟨hdb, .refl _⟩

theorem kept_upsertPoolObservation {r0 r1 : ℚ} {blockHeight : Option ℤ} (observedAt : ℤ)
    (h0 : ∀ h, blockHeight = some h → r0 = (chain h).reserves.1)
    (h1 : ∀ h, blockHeight = some h → r1 = (chain h).reserves.2) :
    Kept contractText chain (fun _ => True)
      (Program.request (.upsertPoolObservation r0 r1 blockHeight observedAt)) := by
  apply kept_performed
  intro db a db' hdb hserves
  obtain ⟨now, v, hok, -⟩ | ⟨-, rfl⟩ := hserves
  · exact hdb.upsertPool (fun h hh => ⟨h0 h hh, h1 h hh⟩) hok
  · exact ⟨hdb, .refl _⟩

theorem kept_observedFee (height : ℤ) :
    Kept contractText chain (fun _ => True) (observedFee height) := by
  unfold observedFee
  apply (kept_selectFee height).bind
  intro a ha
  apply (kept_ofSql ha).bind
  intro cached hcached
  cases cached with
  | some fee =>
      dsimp only
      split_ifs
      · apply (kept_applyCachedFee height fee).bind
        intro applied _
        apply (kept_ofSql fun _ _ => trivial).bind
        exact fun _ _ => trivial
      · exact kept_refuse
  | none =>
      apply kept_utcNow.bind
      intro observedAt _
      apply (kept_getFeeConfig height).bind
      intro answer hanswer
      apply (kept_ofLcd hanswer).bind
      intro feeBps hfee
      split_ifs
      · exact kept_refuse
      · apply (kept_publishFee observedAt hfee).bind
        intro published _
        apply (kept_ofSql fun _ _ => trivial).bind
        exact fun _ _ => trivial

theorem kept_checkPairAsset (assetId : ℤ) (asset : PoolAsset) :
    Kept contractText chain (fun _ => True) (checkPairAsset contractText assetId asset) := by
  unfold checkPairAsset
  apply (kept_getAssetById assetId).bind
  intro a _
  apply (kept_ofSql fun _ _ => trivial).bind
  intro expected _
  cases expected with
  | none => exact kept_refuse
  | some expected =>
      dsimp only
      split_ifs
      · exact trivial
      · exact kept_refuse

theorem kept_observePool (hread : ReadsDecimals fromStr) (pair : PairRow) (blockHeight : Option ℤ)
    (observedAt : ℤ) : Kept contractText chain (fun _ => True)
      (observePool fromStr contractText pair blockHeight observedAt) := by
  unfold observePool
  apply (kept_pool blockHeight).bind
  intro a ha
  apply (kept_ofLcd ha).bind
  intro response hresponse
  apply (kept_checkPairAsset _ _).bind
  intro _ _
  apply (kept_checkPairAsset _ _).bind
  intro _ _
  have hreserve0 : ∀ r, parseReserveAmount fromStr response.asset0.amount = .ok r →
      ∀ h, blockHeight = some h → r = (chain h).reserves.1 := by
    intro r hr h hh
    rw [hresponse h hh] at hr
    exact parseReserveAmount_text hread hr
  have hreserve1 : ∀ r, parseReserveAmount fromStr response.asset1.amount = .ok r →
      ∀ h, blockHeight = some h → r = (chain h).reserves.2 := by
    intro r hr h hh
    rw [hresponse h hh] at hr
    exact parseReserveAmount_text hread hr
  apply (kept_ofSql hreserve0).bind
  intro r0 hr0
  apply (kept_ofSql hreserve1).bind
  intro r1 hr1
  apply (kept_upsertPoolObservation observedAt hr0 hr1).bind
  intro answer _
  apply (kept_ofSql fun _ _ => trivial).bind
  intro taken _
  split_ifs
  · exact kept_refuse
  · cases blockHeight with
    | none => exact trivial
    | some height =>
        apply (kept_observedFee height).bind
        exact fun _ _ => trivial

theorem kept_orderBookHead (s : LimitOrderSide) (height : ℤ) : Kept contractText chain
    (fun a : Except LcdError (Option ℕ) => ∀ head, a = .ok head →
      head = (chain height).book.head s)
    (Program.request (Request.orderBookHead s.sideStr height)) := by
  apply kept_read
  intro db a db' _ hserves
  refine ⟨hserves.1, fun head hok => ?_⟩
  have hquery := hserves.2 head hok
  cases s with
  | bid => exact (Option.some.inj hquery).symm
  | ask => exact (Option.some.inj hquery).symm

theorem kept_fetchLimitOrder (orderId : ℕ) (height : ℤ) : Kept contractText chain
    (fun found => ∀ row, found = some row →
      queryLimitOrder contractText (chain height) orderId = some row)
    (fetchLimitOrder orderId height) := by
  have hread : Kept contractText chain
      (fun a : Except LcdError ChainLimitOrderRow => ∀ row, a = .ok row →
        queryLimitOrder contractText (chain height) orderId = some row)
      (Program.request (Request.limitOrder orderId height)) :=
    kept_read fun _ _ _ _ hserves => hserves
  unfold fetchLimitOrder
  apply hread.bind
  intro a ha
  cases a with
  | ok row =>
      intro other hother
      cases hother
      exact ha row rfl
  | error e =>
      dsimp only
      split_ifs
      · intro row hrow
        cases hrow
      · exact trivial

/-- The walk adds the orders from its place on to those it has. -/
theorem kept_walkFrom (hread : ReadsDecimals fromStr) (s : LimitOrderSide) (height : ℤ)
    (budget : ℕ) : ∀ (current : Option ℕ) (seen : List ℕ) (orders : List RestingOrderInput),
      Kept contractText chain (fun all => ∃ ids rest, all = orders ++ rest ∧
          Walked (chain height).book current ids ∧
          rest.map some = ids.map (mirrored contractText (chain height).book s))
        (walkFrom fromStr s.sideStr height budget current seen orders) := by
  induction budget with
  | zero =>
      intro current seen orders
      cases current with
      | none => exact ⟨[], [], by simp, rfl, rfl⟩
      | some oid => exact kept_refuse
  | succ budget ih =>
      intro current seen orders
      cases current with
      | none => exact ⟨[], [], by simp, rfl, rfl⟩
      | some oid =>
          unfold walkFrom
          split_ifs
          · exact kept_refuse
          · exact kept_refuse
          · apply (kept_fetchLimitOrder oid height).bind
            intro found hfound
            cases found with
            | none => exact kept_refuse
            | some row =>
                have hrow := hfound row rfl
                have horder : ∀ o, restingOrder fromStr s.sideStr oid row = .ok o →
                    mirrored contractText (chain height).book s oid = some o ∧
                      ∃ order, (chain height).book.orders oid = some order ∧
                        row.next = order.next := fun o ho => restingOrder_mirrored hread hrow ho
                apply (kept_ofSql horder).bind
                rintro o ⟨hmirrored, order, hstored, hnext⟩
                apply (ih row.next (oid :: seen) (orders ++ [o])).mono
                rintro all ⟨ids, rest, rfl, hwalked, hrest⟩
                refine ⟨oid :: ids, o :: rest, by simp, ⟨rfl, order, hstored, ?_⟩, ?_⟩
                · rwa [← hnext]
                · rw [List.map_cons, List.map_cons, hmirrored, hrest]

theorem kept_walkRestingBookSide (hread : ReadsDecimals fromStr) (s : LimitOrderSide)
    (height : ℤ) : Kept contractText chain (WalkedSide contractText chain height s)
      (walkRestingBookSide fromStr s.sideStr height) := by
  unfold walkRestingBookSide
  apply (kept_orderBookHead s height).bind
  intro a ha
  apply (kept_ofLcd ha).bind
  intro head hhead
  apply (kept_walkFrom hread s height maxOrdersPerSide head [] []).mono
  rintro all ⟨ids, rest, rfl, hwalked, hrest⟩
  rw [hhead] at hwalked
  exact ⟨ids, hwalked, hrest⟩

theorem kept_getPairReserves : Kept contractText chain
    (fun a : Except SnapshotError (Option PairReservesRow) => ∀ v, a = .ok v → ∀ row height,
      v = some row → row.blockHeight = some height → ReservesAt chain row height)
    (Program.request Request.getPairReserves) := by
  apply kept_read
  intro db a db' hdb hserves
  obtain ⟨rfl, hselected⟩ := hserves
  refine ⟨rfl, fun v ha row height hrow hheight => ?_⟩
  obtain ⟨now, hnow⟩ := hselected v ha
  exact (hdb.pool row height (hnow.symm.trans hrow) hheight).1

def sidesOf (bids asks : List RestingOrderInput) : LimitOrderSide → List RestingOrderInput
  | .bid => bids
  | .ask => asks

theorem kept_publishHybrid {observation : PairReservesRow} {height fee : ℤ}
    {bids asks : List RestingOrderInput} (hheight : observation.blockHeight = some height)
    (hreserves : ReservesAt chain observation height) (hfee : fee = feeAt chain height)
    (hbids : WalkedSide contractText chain height .bid bids)
    (hasks : WalkedSide contractText chain height .ask asks) :
    Kept contractText chain (fun _ => True)
      (Program.request (.publishHybrid observation fee (bids ++ asks))) := by
  have hwalked : ∀ s, WalkedSide contractText chain height s (sidesOf bids asks s) := by
    intro s
    cases s with
    | bid => exact hbids
    | ask => exact hasks
  apply kept_performed
  intro db a db' hdb hserves
  obtain ⟨now, v, hok, -⟩ | ⟨-, rfl⟩ := hserves
  · exact hdb.publishHybrid (sidesOf bids asks) hheight hreserves hfee hwalked (toUnit_ok hok)
  · exact ⟨hdb, .refl _⟩

theorem kept_observeBook (hread : ReadsDecimals fromStr) (maxStalenessMs : ℤ) :
    Kept contractText chain (fun _ => True) (observeBook fromStr maxStalenessMs) := by
  unfold observeBook
  apply kept_getPairReserves.bind
  intro a ha
  apply (kept_ofSql ha).bind
  intro found hfound
  cases found with
  | none => exact kept_refuse
  | some observation =>
      apply kept_utcNow.bind
      intro now _
      split_ifs
      · exact kept_refuse
      apply kept_utcNow.bind
      intro later _
      split_ifs
      · exact kept_refuse
      cases hheight : observation.blockHeight with
      | none => exact kept_refuse
      | some height =>
          apply (kept_selectFee height).bind
          intro answer hanswer
          apply (kept_ofSql hanswer).bind
          intro cached hcached
          cases cached with
          | none => exact kept_refuse
          | some feeBps =>
              apply (kept_walkRestingBookSide hread .bid height).bind
              intro bids hbids
              apply (kept_walkRestingBookSide hread .ask height).bind
              intro asks hasks
              apply (kept_publishHybrid hheight (hfound observation height rfl hheight)
                (hcached feeBps rfl) hbids hasks).bind
              intro published _
              exact kept_ofSql fun _ _ => trivial

theorem kept_starts (hread : ReadsDecimals fromStr) {p : Job Unit}
    (hp : Starts fromStr contractText p) : Kept contractText chain (fun _ => True) p := by
  cases hp with
  | pool pair blockHeight observedAt => exact kept_observePool hread pair blockHeight observedAt
  | fee height =>
      apply (kept_observedFee height).bind
      exact fun _ _ => trivial
  | book maxStalenessMs => exact kept_observeBook hread maxStalenessMs

/-- The tables before any snapshot. -/
def Database.empty (assets : ℤ → Option AssetRow) : Database := ⟨assets, none, none, none, []⟩

theorem Coherent.empty (assets : ℤ → Option AssetRow) :
    Coherent contractText chain (.empty assets) := by
  constructor
  · intro o ho
    cases ho
  · intro row height hrow
    cases hrow
  · intro row hrow
    cases hrow
  · exact fun _ => rfl

/-- Whatever jobs run, and however they are interleaved and cut off, the mirrors are coherent and
their rows do not go back. -/
theorem mirrors_coherent (contractText : Addr → String) (fromStr : String → Option ℚ)
    (hread : ReadsDecimals fromStr) (chain : ℤ → PairStorage) (assets : ℤ → Option AssetRow)
    (w : World Request Request.Answer SnapshotError Database)
    (hw : Interleaving.Reachable (Serves contractText chain) (Starts fromStr contractText)
      (.empty assets) w) :
    Coherent contractText chain w.state ∧
      ∀ w', Relation.ReflTransGen
        (Interleaving.Step (Serves contractText chain) (Starts fromStr contractText)) w w' →
          Later w.state w'.state := by
  have hstarts : ∀ p, Starts fromStr contractText p →
      Kept contractText chain (fun _ => True) p := fun p hp => kept_starts hread hp
  have hkept := hw.kept .refl hstarts (.empty assets)
  exact ⟨hkept.1, fun w' hrun => (Interleaving.Reachable.related .refl .trans hstarts hkept hrun).2⟩

end Jobs

section Sample

/-- A chain and a database that never fail, at one time of the clock. -/
def promptly {β : Type} (run : Database → Except SnapshotError (β × Database)) (db : Database) :
    Except SnapshotError β × Database :=
  match run db with
  | .ok (v, db') => (.ok v, db')
  | .error e => (.error e, db)

def promptReply (contractText : Addr → String) (chain : ℤ → PairStorage) (now : ℤ) :
    (r : Request) → Database → r.Answer × Database
  | .utcNow, db => (now, db)
  | .pool none, db => (Except.error .other, db)
  | .pool (some h), db => (Except.ok (queryPool (chain h)), db)
  | .getFeeConfig h, db => (Except.ok (chain h).feeConfig.feeBps, db)
  | .orderBookHead side h, db =>
      (match queryOrderBookHead (chain h) side with
        | some head => Except.ok head
        | none => Except.error .other, db)
  | .limitOrder orderId h, db =>
      (match queryLimitOrder contractText (chain h) orderId with
        | some row => Except.ok row
        | none => Except.error .other, db)
  | .getAssetById assetId, db => (Except.ok (db.assets assetId), db)
  | .getPairReserves, db => (Except.ok db.pairReserves, db)
  | .selectFee h, db => (Except.ok (selectFee now h db), db)
  | .upsertPoolObservation r0 r1 h t, db => promptly (upsertPoolObservation r0 r1 h t) db
  | .applyCachedFee h fee, db => promptly (fun db => toUnit (applyCachedFee now h fee db)) db
  | .publishFee h fee t, db => promptly (fun db => toUnit (publishFee now h fee t db)) db
  | .publishHybrid row fee orders, db =>
      promptly (fun db => toUnit (publishHybrid now row fee orders db)) db

theorem promptly_performed {β : Type}
    (run : ℤ → Database → Except SnapshotError (β × Database)) (now : ℤ) (db : Database) :
    Performed run db (promptly (run now) db).1 (promptly (run now) db).2 := by
  unfold promptly
  cases hrun : run now db with
  | error e => exact .inr ⟨⟨e, rfl⟩, rfl⟩
  | ok r => exact .inl ⟨now, r.1, hrun, rfl⟩

theorem promptReply_serves (contractText : Addr → String) (chain : ℤ → PairStorage) (now : ℤ)
    (r : Request) (db : Database) : Serves contractText chain r db
      (promptReply contractText chain now r db).1 (promptReply contractText chain now r db).2 := by
  cases r with
  | utcNow => exact rfl
  | pool height =>
      cases height with
      | none =>
          refine ⟨rfl, fun h response hh => ?_⟩
          cases hh
      | some height =>
          refine ⟨rfl, fun h response hh hok => ?_⟩
          cases hh
          cases hok
          rfl
  | getFeeConfig height =>
      refine ⟨rfl, fun fee hok => ?_⟩
      cases hok
      rfl
  | orderBookHead side height =>
      refine ⟨rfl, fun head hok => ?_⟩
      unfold promptReply at hok
      dsimp only at hok
      cases hquery : queryOrderBookHead (chain height) side with
      | none =>
          rw [hquery] at hok
          cases hok
      | some other =>
          rw [hquery] at hok
          cases hok
          rfl
  | limitOrder orderId height =>
      refine ⟨rfl, fun row hok => ?_⟩
      unfold promptReply at hok
      dsimp only at hok
      cases hquery : queryLimitOrder contractText (chain height) orderId with
      | none =>
          rw [hquery] at hok
          cases hok
      | some other =>
          rw [hquery] at hok
          cases hok
          rfl
  | getAssetById assetId =>
      refine ⟨rfl, fun v hok => ⟨now, ?_⟩⟩
      cases hok
      rfl
  | getPairReserves =>
      refine ⟨rfl, fun v hok => ⟨now, ?_⟩⟩
      cases hok
      rfl
  | selectFee height =>
      refine ⟨rfl, fun v hok => ⟨now, ?_⟩⟩
      cases hok
      rfl
  | upsertPoolObservation r0 r1 height t =>
      exact promptly_performed (fun _ => upsertPoolObservation r0 r1 height t) now db
  | applyCachedFee height fee =>
      exact promptly_performed (fun now db => toUnit (applyCachedFee now height fee db)) now db
  | publishFee height fee t =>
      exact promptly_performed (fun now db => toUnit (publishFee now height fee t db)) now db
  | publishHybrid row fee orders =>
      exact promptly_performed (fun now db => toUnit (publishHybrid now row fee orders db)) now db

/-- Digits with at most one point. -/
def plainFromStr (text : String) : Option ℚ :=
  match splitOnce '.' text.toList with
  | some (whole, fraction) =>
    if isDigits whole ∧ isDigits fraction then
      some (value whole + value fraction / 10 ^ fraction.length)
    else none
  | none => if isDigits text.toList then some (value text.toList : ℚ) else none

theorem plainFromStr_reads : ReadsDecimals plainFromStr := by
  intro d
  have hsplit : (d.atomics : ℚ) =
      10 ^ 18 * (d.atomics / 10 ^ 18 : ℕ) + (d.atomics % 10 ^ 18 : ℕ) := by
    exact_mod_cast (Nat.div_add_mod d.atomics (10 ^ 18)).symm
  have hless : d.atomics % 10 ^ 18 < 10 ^ 18 := Nat.mod_lt _ (by decide)
  unfold plainFromStr WasmEvents.decimalText
  by_cases hfraction : d.atomics % 10 ^ 18 = 0
  · rw [if_pos hfraction, WasmEvents.toList_toString, splitOnce_toDigits]
    dsimp only
    rw [if_pos isDigits_toDigits, value_toDigits, hsplit, hfraction]
    simp
  · have htrimmed := isDigit_trimmed (isDigit_padded (k := 18) (n := d.atomics % 10 ^ 18))
    have hnonempty : trimmed (padded 18 (d.atomics % 10 ^ 18)) ≠ [] := by
      apply trimmed_ne_nil
      rw [value_padded]
      exact hfraction
    have hdot : '.' ∉ Nat.toDigits 10 (d.atomics / 10 ^ 18) := by
      intro hmem
      cases isDigit_toDigits '.' hmem
    rw [if_neg hfraction, String.toList_ofList, splitOnce_append '.' hdot]
    dsimp only
    rw [if_pos ⟨isDigits_toDigits, isDigits_iff.2 ⟨hnonempty, htrimmed⟩⟩, value_toDigits,
      fraction_trimmed, value_padded, length_padded (by decide) hless, hsplit]
    congr 1
    field_simp

/-- The pair with two bids at height 6, and its pool alone before. -/
def sampleChain (height : ℤ) : PairStorage := if height < 6 then samplePool else sampleBook

def sampleAssets (assetId : ℤ) : Option AssetRow := some ⟨true, none, some (toString assetId)⟩

def sampleReply (now : ℤ) : (r : Request) → Database → r.Answer × Database :=
  promptReply toString sampleChain now

/-- The pool was read at height 5, and four requests of a book job are answered. -/
def bookStarted : Job Unit × Database :=
  let pooled := (observePool plainFromStr toString ⟨1, 2⟩ (some 5) 4000).alone (sampleReply 4000)
    (.empty sampleAssets)
  (observeBook plainFromStr 30000).served (sampleReply 5000) 4 pooled

/-- Meanwhile a pool job stores the reserves of height 6. -/
def poolStarted : Job Unit × Database :=
  (observePool plainFromStr toString ⟨1, 2⟩ (some 6) 8000).served (sampleReply 8000) 4
    bookStarted.2

/-- The book job goes on, and then the pool job. -/
def bookFinished : Job Unit × Database :=
  bookStarted.1.served (sampleReply 8500) 3 poolStarted.2

def poolFinished : Job Unit × Database :=
  poolStarted.1.served (sampleReply 8500) 10 bookFinished.2

/-- A second book job is given up before it publishes. -/
def bookAbandoned : Job Unit × Database :=
  (observeBook plainFromStr 30000).served (sampleReply 9000) 5 poolFinished.2

def sampleSnapshots : Database :=
  (observeBook plainFromStr 30000).alone (sampleReply 9500) bookAbandoned.2

theorem sampleSnapshots_reachable : Interleaving.Reachable (Serves toString sampleChain)
    (Starts plainFromStr toString) (.empty sampleAssets)
    ⟨sampleSnapshots, [poolFinished.1, bookFinished.1]⟩ := by
  have hreply := promptReply_serves toString sampleChain
  have hempty : Interleaving.Reachable (Serves toString sampleChain)
      (Starts plainFromStr toString) (.empty sampleAssets) ⟨.empty sampleAssets, []⟩ := .first
  have hpooled := hempty.alone (hreply 4000) (.pool ⟨1, 2⟩ (some 5) 4000)
  have hbook := (hpooled.step (.start (.book 30000))).served 4 [] (hreply 5000)
  have hpool := (hbook.step (.start (.pool ⟨1, 2⟩ (some 6) 8000))).served 4 [] (hreply 8000)
  have hpublished := hpool.served 3 [poolStarted.1] (hreply 8500)
  have hfinished := hpublished.served 10 [] (hreply 8500)
  have hagain := (hfinished.step (.start (.book 30000))).served 5 [] (hreply 9000)
  exact (hagain.step (.drop_head ..)).alone (hreply 9500) (.book 30000)

/-- The first book job publishes height 5 when the pool is at height 6 already; after the last one
the hybrid row has the two bids of height 6. -/
theorem mirrors_coherent_sample : ∃ row,
    poolStarted.2.pairReserves.bind PairReservesRow.blockHeight = some 6 ∧
      bookFinished.2.hybridReserves.bind PairReservesRow.blockHeight = some 5 ∧
      sampleSnapshots.hybridReserves = some row ∧ row.blockHeight = some 6 ∧
      sampleSnapshots.restingOrders.length = 2 ∧
      HybridMirrored toString sampleChain sampleSnapshots.restingOrders row 6 := by
  have hcoherent := (mirrors_coherent toString plainFromStr plainFromStr_reads sampleChain
    sampleAssets _ sampleSnapshots_reachable).1
  have hheight : sampleSnapshots.hybridReserves.bind PairReservesRow.blockHeight = some 6 := by
    decide +kernel
  obtain ⟨row, hrow, hrowHeight⟩ := Option.bind_eq_some_iff.1 hheight
  obtain ⟨height, hmirrored⟩ := hcoherent.hybrid row hrow
  have hsame : height = 6 := Option.some.inj (hmirrored.known.symm.trans hrowHeight)
  rw [hsame] at hmirrored
  exact ⟨row, by decide +kernel, by decide +kernel, hrow, hrowHeight, by decide +kernel, hmirrored⟩

end Sample

end Cl8yDex.BookSnapshot
