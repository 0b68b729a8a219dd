import Cl8yDex.EventDeltas
import Cl8yDex.PairRuns

/-!
# Reserves rebuilt from the events of a run

Swaps, deposits and withdrawals of one pair one after another. The indexer folds the changes that
it reads off their events forwards from the reserves before the run, or takes them back from the
last reserves over the rows that it has stored.
-/

namespace Cl8yDex.PoolEvents

open Outcome EventReserves

/-- The calls of a run that the pair accepted, as their events and the reserves after each. What
else the pair does leaves its tokens and reserves alone. -/
inductive PoolRun : PairStorage → List (PoolEvent × (ℕ × ℕ)) → PairStorage → Prop
  | done (p : PairStorage) : PoolRun p [] p
  | call {p last : PairStorage} {out : PairStorage × Response} {call : PoolCall}
    {event : PoolEvent} {tape : List (PoolEvent × (ℕ × ℕ))} (hrun : call.run p = .ok out)
    (hevent : emitted p call out.2.attributes = some event) (hrest : PoolRun out.1 tape last) :
    PoolRun p ((event, out.1.reserves) :: tape) last
  | other {p p' last : PairStorage} {tape : List (PoolEvent × (ℕ × ℕ))}
    (hinfo : p'.pairInfo = p.pairInfo) (hreserves : p'.reserves = p.reserves)
    (hrest : PoolRun p' tape last) : PoolRun p tape last

/-- The reserves after each delta, when none of them falls below zero. -/
def foldDeltas : ℤ × ℤ → List ReserveDelta → Option (List (ℤ × ℤ))
  | _, [] => some []
  | pre, delta :: deltas =>
    (applyDelta pre delta).bind fun post =>
      (foldDeltas post deltas).map fun posts => post :: posts

/-- The reserves after each event, from those before all of them. -/
def reconstructed (token0 : Addr) (start : ℤ × ℤ) (events : List PoolEvent) :
    Option (List (ℤ × ℤ)) :=
  foldDeltas start ((events.filterMap PoolEvent.parse).map (ParsedEvent.delta token0))

/-- Where an event is stored, and whether its reserves are known there already. -/
structure Place where
  id : ℤ
  blockHeight : ℤ
  txHash : String
  swapIndex : ℤ
  filled : Bool

/-- The pair and the assets of its rows. -/
structure PairRows where
  pairId : ℤ
  token0 : Addr
  assetId : Addr → ℤ

def PairRows.row (rows : PairRows) (place : Place) : ParsedEvent → TapeEvent
  | .swap parsed => .swap {
      id := place.id
      pairId := rows.pairId
      asset0Id := rows.assetId rows.token0
      blockHeight := place.blockHeight
      txHash := place.txHash
      swapIndex := place.swapIndex
      offerAssetId := rows.assetId parsed.offerAsset
      offerAmount := parsed.offerAmount
      returnAmount := parsed.returnAmount
      poolReturnAmount := parsed.poolReturnAmount
      bookReturnAmount := parsed.bookReturnAmount
      limitBookOfferConsumed := parsed.limitBookOfferConsumed
      commissionAmount := parsed.commissionAmount
      reserve0 := none
      reserve1 := none }
  | .liquidity event => .liq {
      id := place.id
      pairId := rows.pairId
      blockHeight := place.blockHeight
      txHash := place.txHash
      eventType := event.eventType
      asset0Amount := some event.asset0Amount
      asset1Amount := some event.asset1Amount
      reserve0 := none
      reserve1 := none }

/-- The row of an event with the reserves after it. -/
def PairRows.complete (rows : PairRows) (entry : (PoolEvent × (ℕ × ℕ)) × Place) :
    Option TapeEvent :=
  entry.1.1.parse.map fun parsed => (rows.row entry.2 parsed).withReserves (amounts entry.1.2)

/-- The row of an event as it is stored before a backfill. -/
def PairRows.stored (rows : PairRows) (entry : (PoolEvent × (ℕ × ℕ)) × Place) :
    Option TapeEvent :=
  if entry.2.filled then rows.complete entry else entry.1.1.parse.map (rows.row entry.2)

section Forwards

theorem foldDeltas_cons {pre post : ℤ × ℤ} {delta : ReserveDelta} {deltas : List ReserveDelta}
    {posts : List (ℤ × ℤ)} : foldDeltas pre (delta :: deltas) = some (post :: posts) ↔
      applyDelta pre delta = some post ∧ foldDeltas post deltas = some posts := by
  have hfold : foldDeltas pre (delta :: deltas) = (applyDelta pre delta).bind fun next =>
      (foldDeltas next deltas).map fun posts => next :: posts := rfl
  rw [hfold, Option.bind_eq_some_iff]
  constructor
  · intro ⟨next, hnext, hrest⟩
    obtain ⟨rest, hposts, hcons⟩ := Option.map_eq_some_iff.1 hrest
    cases hcons
    exact ⟨hnext, hposts⟩
  · intro ⟨hnext, hposts⟩
    exact ⟨post, hnext, Option.map_eq_some_iff.2 ⟨posts, hposts, rfl⟩⟩

variable {p last : PairStorage} {tape : List (PoolEvent × (ℕ × ℕ))}

theorem parsed_of_small (hsmall : ∀ entry ∈ tape, entry.1.Small) :
    (tape.map Prod.fst).filterMap PoolEvent.parse = tape.map fun entry => entry.1.read := by
  rw [List.filterMap_map, List.filterMap_eq_map_iff_forall_eq_some]
  exact fun entry hentry => parse_of_small (hsmall entry hentry)

/-- The fold meets the stored reserves after every event of a run when every event is faithful,
and not otherwise. -/
theorem PoolRun.fold_iff (h : PoolRun p tape last) :
    foldDeltas (amounts p.reserves)
        (tape.map fun entry => entry.1.read.delta p.pairInfo.token0) =
        some (tape.map fun entry => amounts entry.2) ↔
      ∀ entry ∈ tape, entry.1.Faithful p.pairInfo.token0 := by
  induction h with
  | done p => simp [foldDeltas]
  | call hrun hevent hrest ih =>
    obtain ⟨hinfo, event, hemitted, hstep⟩ := run_event hrun
    cases hevent.symm.trans hemitted
    rw [hinfo] at ih
    rw [List.map_cons, List.map_cons, foldDeltas_cons, hstep, ih, List.forall_mem_cons]
  | other hinfo hreserves hrest ih =>
    rw [hinfo, hreserves] at ih
    exact ih

end Forwards

section Backwards

variable {rows : PairRows} {parsed : ParsedEvent} {post : ℤ × ℤ}

theorem row_delta (hassets : Function.Injective rows.assetId) (place : Place) :
    (rows.row place parsed).delta = parsed.delta rows.token0 := by
  cases parsed with
  | swap parsed =>
    unfold PairRows.row TapeEvent.delta ParsedEvent.delta
    dsimp only
    rw [decide_eq_decide.2 hassets.eq_iff]
  | liquidity event => rfl

theorem withReserves_delta (event : TapeEvent) (post : ℤ × ℤ) :
    (event.withReserves post).delta = event.delta := by
  cases event <;> rfl

theorem withReserves_twice (event : TapeEvent) (post : ℤ × ℤ) :
    (event.withReserves post).withReserves post = event.withReserves post := by
  cases event <;> rfl

theorem row_held (place : Place) : (rows.row place parsed).Held post := by
  left
  cases parsed <;> rfl

theorem withReserves_held (event : TapeEvent) (post : ℤ × ℤ) :
    (event.withReserves post).Held post := by
  right
  cases event <;> rfl

theorem Leads.cons {start post last : ℤ × ℤ} {event : TapeEvent}
    {tape : List (TapeEvent × (ℤ × ℤ))} (hstart : 0 ≤ start.1 ∧ 0 ≤ start.2)
    (hdelta : applyDelta start event.delta = some post) (hheld : event.Held post)
    (h : Leads post tape last) : Leads start ((event, post) :: tape) last := by
  induction h with
  | nil hpost =>
    have hnil : Leads start [] start := .nil hstart
    exact hnil.snoc hdelta hheld
  | snoc htape hnext hstored ih => exact Leads.snoc ih hnext hstored

/-- The row of an event with small amounts, as it is stored before a backfill. -/
def PairRows.kept (rows : PairRows) (entry : (PoolEvent × (ℕ × ℕ)) × Place) : TapeEvent :=
  let row := rows.row entry.2 entry.1.1.read
  if entry.2.filled then row.withReserves (amounts entry.1.2) else row

variable {entry : (PoolEvent × (ℕ × ℕ)) × Place}

theorem stored_of_small (h : entry.1.1.Small) : rows.stored entry = some (rows.kept entry) := by
  unfold PairRows.stored PairRows.complete PairRows.kept
  rw [parse_of_small h]
  split <;> rfl

theorem complete_of_small (h : entry.1.1.Small) :
    rows.complete entry = some ((rows.kept entry).withReserves (amounts entry.1.2)) := by
  unfold PairRows.complete PairRows.kept
  rw [parse_of_small h]
  dsimp only
  split
  · rw [withReserves_twice]
    rfl
  · rfl

theorem kept_delta (hassets : Function.Injective rows.assetId) :
    (rows.kept entry).delta = entry.1.1.read.delta rows.token0 := by
  unfold PairRows.kept
  dsimp only
  split
  · rw [withReserves_delta, row_delta hassets]
  · rw [row_delta hassets]

theorem kept_held : (rows.kept entry).Held (amounts entry.1.2) := by
  unfold PairRows.kept
  dsimp only
  split
  · exact withReserves_held ..
  · exact row_held ..

theorem amounts_nonneg (reserves : ℕ × ℕ) : 0 ≤ (amounts reserves).1 ∧ 0 ≤ (amounts reserves).2 :=
  ⟨Int.natCast_nonneg _, Int.natCast_nonneg _⟩

/-- The rows of a run with faithful events lead to the last reserves. -/
theorem PoolRun.leads {p last : PairStorage} {tape : List (PoolEvent × (ℕ × ℕ))}
    (h : PoolRun p tape last) (hassets : Function.Injective rows.assetId)
    (htoken : rows.token0 = p.pairInfo.token0)
    (hfaithful : ∀ entry ∈ tape, entry.1.Faithful p.pairInfo.token0)
    {placed : List ((PoolEvent × (ℕ × ℕ)) × Place)} (hplaced : placed.map Prod.fst = tape) :
    Leads (amounts p.reserves) (placed.map fun entry => (rows.kept entry, amounts entry.1.2))
      (amounts last.reserves) := by
  induction h generalizing placed with
  | done p =>
    rw [List.map_eq_nil_iff.1 hplaced]
    exact .nil (amounts_nonneg p.reserves)
  | call hrun hevent hrest ih =>
    rename_i p last out call event tape
    obtain ⟨hinfo, event, hemitted, hstep⟩ := run_event hrun
    cases hevent.symm.trans hemitted
    obtain ⟨⟨entry, place⟩, placed, rfl, hentry, hothers⟩ := List.map_eq_cons_iff.1 hplaced
    cases hentry
    obtain ⟨hfirst, hlater⟩ := List.forall_mem_cons.1 hfaithful
    rw [hinfo] at ih
    rw [List.map_cons]
    apply Leads.cons (amounts_nonneg p.reserves)
    · rw [kept_delta hassets, htoken]
      exact hstep.2 hfirst
    · exact kept_held
    · exact ih htoken hlater hothers
  | other hinfo hreserves hrest ih =>
    rw [hinfo, hreserves] at ih
    exact ih htoken hfaithful hplaced

end Backwards

/-- The events of a run lead to the stored reserves exactly when each tells what its call did. If
each does and the sort keys of the rows follow the run, a backfill from the last reserves gives
every row of the pair the reserves after its event. -/
theorem reserves_rebuilt_iff {p last : PairStorage} {tape : List (PoolEvent × (ℕ × ℕ))}
    (h : PoolRun p tape last) (hsmall : ∀ entry ∈ tape, entry.1.Small) :
    (reconstructed p.pairInfo.token0 (amounts p.reserves) (tape.map Prod.fst) =
        some (tape.map fun entry => amounts entry.2) ↔
      ∀ entry ∈ tape, entry.1.Faithful p.pairInfo.token0) ∧
    ∀ (rows : PairRows) (placed : List ((PoolEvent × (ℕ × ℕ)) × Place))
      (seeds : ℤ → Option (ℤ × ℤ)) (table : List TapeEvent),
      (∀ entry ∈ tape, entry.1.Faithful p.pairInfo.token0) →
      rows.token0 = p.pairInfo.token0 → Function.Injective rows.assetId →
      placed.map Prod.fst = tape →
      ((placed.filterMap rows.stored).Pairwise fun event next => event.sortKey < next.sortKey) →
      (table.filter fun event => event.pairId = rows.pairId).Perm
        (placed.filterMap rows.stored) →
      seeds rows.pairId = some (amounts last.reserves) →
      backfillAll seeds table rows.pairId = (placed.filterMap rows.complete).reverse := by
  constructor
  · unfold reconstructed
    rw [parsed_of_small hsmall, List.map_map]
    exact h.fold_iff
  · intro rows placed seeds table hfaithful htoken hassets hplaced hordered hperm hseed
    have hentries : ∀ entry ∈ placed, entry.1.1.Small := fun entry hentry =>
      hsmall entry.1 (hplaced ▸ List.mem_map_of_mem hentry)
    have hstored : placed.filterMap rows.stored = placed.map rows.kept :=
      List.filterMap_eq_map_iff_forall_eq_some.2 fun entry hentry =>
        stored_of_small (hentries entry hentry)
    have hcomplete : placed.filterMap rows.complete = placed.map fun entry =>
        (rows.kept entry).withReserves (amounts entry.1.2) :=
      List.filterMap_eq_map_iff_forall_eq_some.2 fun entry hentry =>
        complete_of_small (hentries entry hentry)
    have hleads := h.leads hassets htoken hfaithful hplaced
    have hfirst : (placed.map fun entry => (rows.kept entry, amounts entry.1.2)).map Prod.fst =
        placed.map rows.kept := by
      rw [List.map_map]
      rfl
    unfold backfillAll
    rw [hseed, hcomplete]
    dsimp only
    rw [backfillPair_eq hleads (hfirst ▸ hstored ▸ hperm) (hfirst ▸ hstored ▸ hordered),
      List.map_map]
    rfl

section Sample

/-- A deposit of user 8 into the sample pool. -/
def sampleProvide (assets : Asset × Asset) : PoolCall :=
  .provide .permissive (sampleEnv 1006) 8 assets none none

theorem run_of_provide (assets : Asset × Asset) (reserves : ℕ × ℕ) (share : ℕ)
    (h : Meets ((sampleProvide assets).run samplePool) (fun out => out.1.reserves = reserves ∧
      emitted samplePool (sampleProvide assets) out.2.attributes =
        some (.provide 8 assets share)) (fun _ => False)) :
    ∃ last, PoolRun samplePool [(.provide 8 assets share, reserves)] last ∧
      last.reserves = reserves := by
  obtain ⟨out, hrun, hreserves, hevent⟩ := h.accepted
  have hpool := PoolRun.call hrun hevent (.done out.1)
  rw [hreserves] at hpool
  exact ⟨out.1, hpool, hreserves⟩

def sampleRows : PairRows := ⟨1, 1, fun token => token⟩

def samplePlace (txHash : String) : Place := ⟨1, 1006, txHash, 0, false⟩

/-- With the second token first, its amount is read as the first token's. Of two deposits in one
block, the later with the lesser hash, the first gets the last reserves. -/
theorem reserves_misread :
    let crossed := PoolEvent.provide 8 (⟨.token 2, 300⟩, ⟨.token 1, 100⟩) 173
    let plain := PoolEvent.provide 8 (⟨.token 1, 100⟩, ⟨.token 2, 300⟩) 173
    let first := ((plain, (1000100, 3000300)), samplePlace "B")
    let second := ((plain, (1000200, 3000600)), samplePlace "A")
    ((∃ last, PoolRun samplePool [(crossed, (1000100, 3000300))] last) ∧ crossed.Small ∧
      reconstructed samplePool.pairInfo.token0 (amounts samplePool.reserves) [crossed] =
        some [(1000300, 3000100)]) ∧
    (∃ last, PoolRun samplePool [first.1, second.1] last ∧ last.reserves = (1000200, 3000600)) ∧
      plain.Small ∧
      backfillAll (fun _ => some (1000200, 3000600))
        ([first, second].filterMap sampleRows.stored) 1 =
        [(sampleRows.kept first).withReserves (1000200, 3000600),
          (sampleRows.kept second).withReserves (1000100, 3000300)] := by
  refine ⟨⟨?_, ⟨by decide, by decide, by decide⟩, by decide +kernel⟩, ?_,
    ⟨by decide, by decide, by decide⟩, rfl⟩
  · obtain ⟨last, hrun, -⟩ := run_of_provide (⟨.token 2, 300⟩, ⟨.token 1, 100⟩)
      (1000100, 3000300) 173 (by decide +kernel)
    exact ⟨last, hrun⟩
  · have hok : Meets ((sampleProvide (⟨.token 1, 100⟩, ⟨.token 2, 300⟩)).run samplePool)
        (fun out => (out.1.reserves = (1000100, 3000300) ∧
          emitted samplePool (sampleProvide (⟨.token 1, 100⟩, ⟨.token 2, 300⟩)) out.2.attributes =
            some (.provide 8 (⟨.token 1, 100⟩, ⟨.token 2, 300⟩) 173)) ∧
          Meets ((sampleProvide (⟨.token 1, 100⟩, ⟨.token 2, 300⟩)).run out.1)
            (fun next => next.1.reserves = (1000200, 3000600) ∧
              emitted out.1 (sampleProvide (⟨.token 1, 100⟩, ⟨.token 2, 300⟩)) next.2.attributes =
                some (.provide 8 (⟨.token 1, 100⟩, ⟨.token 2, 300⟩) 173)) (fun _ => False))
        (fun _ => False) := by
      decide +kernel
    obtain ⟨out, hrun, ⟨hreserves, hevent⟩, hnext⟩ := hok.accepted
    obtain ⟨next, hrun', hreserves', hevent'⟩ := hnext.accepted
    have hpool := PoolRun.call hrun hevent (.call hrun' hevent' (.done next.1))
    rw [hreserves, hreserves'] at hpool
    exact ⟨next.1, hpool, hreserves'⟩

/-- A sale into the pool and to the first bid of the sample book. -/
def sampleSwap : PoolCall :=
  .swap .permissive (sampleEnv 1012) 1 8 100000
    ⟨none, some ⟨9 * 10 ^ 17⟩, some 1, none, none, some ⟨40000, 60000, 5, none⟩, none⟩

def sampleDeposit : PoolCall :=
  .provide .permissive (sampleEnv 1018) 8 (⟨.token 1, 100000⟩, ⟨.token 2, 300000⟩) none none

def sampleWithdrawal : PoolCall := .withdraw (sampleEnv 1024) 3 7 500000 none

def swapReport : SwapReport where
  sender := 8
  receiver := 8
  offerToken := 1
  askToken := 2
  offerAmount := 100000
  returnAmount := 234858
  netReturnAmount := 234858
  hookFeeAmount := 0
  poolReturnAmount := 115038
  bookReturnAmount := 119820
  spreadAmount := 4616
  commissionAmount := 346
  effectiveFeeBps := 30
  limitBookOfferConsumed := 60000
  bookCommissionAmount := 180
  expiredParks := 0
  expiredParksSkipped := 0
  scanStepsCapped := false
  greedyStop := none

/-- A swap, a deposit and a withdrawal, with the reserves after each. -/
def sampleTape : List (PoolEvent × (ℕ × ℕ)) :=
  [(.swap swapReport (some 60000), (1040000, 2884616)),
    (.provide 8 (⟨.token 1, 100000⟩, ⟨.token 2, 300000⟩) 166543, (1140000, 3184616)),
    (.withdraw 7 500000 (⟨.token 1, 300222⟩, ⟨.token 2, 838677⟩), (839778, 2345939))]

theorem sampleTape_run :
    ∃ last, PoolRun sampleBook sampleTape last ∧ last.reserves = (839778, 2345939) := by
  have hok : Meets (sampleSwap.run sampleBook) (fun out =>
      (out.1.reserves = (1040000, 2884616) ∧ emitted sampleBook sampleSwap out.2.attributes =
        some (.swap swapReport (some 60000))) ∧
      Meets (sampleDeposit.run out.1) (fun next =>
        (next.1.reserves = (1140000, 3184616) ∧ emitted out.1 sampleDeposit next.2.attributes =
          some (.provide 8 (⟨.token 1, 100000⟩, ⟨.token 2, 300000⟩) 166543)) ∧
        Meets (sampleWithdrawal.run next.1) (fun last =>
          last.1.reserves = (839778, 2345939) ∧ emitted next.1 sampleWithdrawal last.2.attributes =
            some (.withdraw 7 500000 (⟨.token 1, 300222⟩, ⟨.token 2, 838677⟩)))
          (fun _ => False)) (fun _ => False)) (fun _ => False) := by
    decide +kernel
  obtain ⟨out, hswap, ⟨hreserves, hevent⟩, hnext⟩ := hok.accepted
  obtain ⟨next, hdeposit, ⟨hreserves', hevent'⟩, hlast⟩ := hnext.accepted
  obtain ⟨last, hwithdrawal, hreserves'', hevent''⟩ := hlast.accepted
  have hpool := PoolRun.call hswap hevent (.call hdeposit hevent' (.call hwithdrawal hevent''
    (.done last.1)))
  rw [hreserves, hreserves', hreserves''] at hpool
  exact ⟨last.1, hpool, hreserves''⟩

/-- The reserves of the deposit are stored already. -/
def samplePlaced : List ((PoolEvent × (ℕ × ℕ)) × Place) :=
  sampleTape.zip [⟨1, 1012, "C", 0, false⟩, ⟨2, 1018, "B", 0, true⟩, ⟨3, 1024, "A", 0, false⟩]

/-- From a table of two pairs in which the rows stand in the opposite order. -/
theorem reserves_rebuilt_sample :
    reconstructed sampleBook.pairInfo.token0 (amounts sampleBook.reserves)
        (sampleTape.map Prod.fst) =
      some [(1040000, 2884616), (1140000, 3184616), (839778, 2345939)] ∧
    backfillAll (fun _ => some (839778, 2345939))
        ((samplePlaced.map sampleRows.kept).reverse ++
          [.liq ⟨4, 2, 1018, "B", "add", none, none, none, none⟩]) 1 =
      (samplePlaced.map fun entry =>
        (sampleRows.kept entry).withReserves (amounts entry.1.2)).reverse := by
  obtain ⟨last, hrun, hlast⟩ := sampleTape_run
  have htoken : sampleBook.pairInfo.token0 = 1 := by decide +kernel
  have hsmall : ∀ entry ∈ sampleTape, entry.1.Small := by
    simp [sampleTape, PoolEvent.Small, swapReport]
  have hfaithful : ∀ entry ∈ sampleTape, entry.1.Faithful sampleBook.pairInfo.token0 := by
    rw [htoken]
    simp [sampleTape, PoolEvent.Faithful, swapReport]
  have hplaced : ∀ entry ∈ samplePlaced, entry.1.1.Small := fun entry hentry =>
    hsmall entry.1 (List.of_mem_zip hentry).1
  have hstored : samplePlaced.filterMap sampleRows.stored = samplePlaced.map sampleRows.kept :=
    List.filterMap_eq_map_iff_forall_eq_some.2 fun entry hentry =>
      stored_of_small (hplaced entry hentry)
  have hcomplete : samplePlaced.filterMap sampleRows.complete = samplePlaced.map fun entry =>
      (sampleRows.kept entry).withReserves (amounts entry.1.2) :=
    List.filterMap_eq_map_iff_forall_eq_some.2 fun entry hentry =>
      complete_of_small (hplaced entry hentry)
  obtain ⟨hforwards, hbackwards⟩ := reserves_rebuilt_iff hrun hsmall
  refine ⟨hforwards.2 hfaithful, ?_⟩
  rw [← hcomplete]
  refine hbackwards sampleRows samplePlaced _ _ hfaithful htoken.symm
    (fun _ _ h => Int.ofNat.inj h) rfl ?_ ?_ ?_
  · rw [hstored]
    decide +kernel
  · rw [hstored]
    change (samplePlaced.map sampleRows.kept).reverse.Perm _
    exact List.reverse_perm _
  · rw [hlast]
    rfl

end Sample

end Cl8yDex.PoolEvents
