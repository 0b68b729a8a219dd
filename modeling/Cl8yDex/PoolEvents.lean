import Cl8yDex.OrderedTables
import Cl8yDex.Swap
import Cl8yDex.Liquidity
import Mathlib.Data.Prod.Lex
import Mathlib.Data.String.Basic

/-!
# Reserves after an event

The indexer derives what a swap or a deposit did to the reserves from the amounts of its event.
A backfill replays the stored events of a pair from its last reserves backwards, newest first.
Amounts are whole numbers, and differences of amounts may be negative.
-/

namespace Cl8yDex.EventReserves

def hybridLegsPresent (poolReturn bookReturn bookConsumed : Option ℤ) : Bool :=
  poolReturn.isSome || bookReturn.isSome || bookConsumed.isSome

/-- Something came from the book and nothing from the pool. -/
def isBookOnly (poolReturn bookReturn : Option ℤ) : Bool :=
  poolReturn.all (· = 0) && bookReturn.any (0 < ·)

/-- The part of the offer that goes into the pool. -/
def poolInput (offerAmount : ℤ) (poolReturn bookReturn bookConsumed : Option ℤ) : ℤ :=
  if isBookOnly poolReturn bookReturn then 0
  else if ¬ hybridLegsPresent poolReturn bookReturn bookConsumed then offerAmount
  else
    let rest := offerAmount - bookConsumed.getD 0
    if rest < 0 then 0 else rest

/-- What leaves the pool, the commission included. -/
def grossOutput (returnAmount : ℤ) (poolReturn bookReturn bookConsumed commission : Option ℤ) :
    ℤ :=
  if isBookOnly poolReturn bookReturn then 0
  else if ¬ hybridLegsPresent poolReturn bookReturn bookConsumed then
    returnAmount + commission.getD 0
  else poolReturn.getD 0 + commission.getD 0

structure ReserveDelta where
  d0 : ℤ
  d1 : ℤ
  deriving DecidableEq

def swapPoolDelta (offerIsAsset0 : Bool) (offerAmount returnAmount : ℤ)
    (poolReturn bookReturn bookConsumed commission : Option ℤ) : ReserveDelta :=
  let poolIn := poolInput offerAmount poolReturn bookReturn bookConsumed
  let gross := grossOutput returnAmount poolReturn bookReturn bookConsumed commission
  if offerIsAsset0 then ⟨poolIn, -gross⟩ else ⟨-gross, poolIn⟩

def liquidityDelta (isAdd : Bool) (amount0 amount1 : ℤ) : ReserveDelta :=
  if isAdd then ⟨amount0, amount1⟩ else ⟨-amount0, -amount1⟩

def applyDelta (reserves : ℤ × ℤ) (delta : ReserveDelta) : Option (ℤ × ℤ) :=
  let n0 := reserves.1 + delta.d0
  let n1 := reserves.2 + delta.d1
  if n0 < 0 ∨ n1 < 0 then none else some (n0, n1)

def invertDelta (post : ℤ × ℤ) (delta : ReserveDelta) : Option (ℤ × ℤ) :=
  applyDelta post ⟨-delta.d0, -delta.d1⟩

/-- A delta that led from non-negative reserves is taken back. -/
theorem invertDelta_apply {pre post : ℤ × ℤ} {delta : ReserveDelta} (hpre : 0 ≤ pre.1 ∧ 0 ≤ pre.2)
    (h : applyDelta pre delta = some post) : invertDelta post delta = some pre := by
  obtain ⟨p0, p1⟩ := pre
  unfold applyDelta at h
  dsimp only at h hpre
  split at h
  · cases h
  · cases h
    unfold invertDelta applyDelta
    dsimp only
    rw [if_neg (by omega), Int.add_neg_cancel_right, Int.add_neg_cancel_right]

theorem applyDelta_nonneg {pre post : ℤ × ℤ} {delta : ReserveDelta}
    (h : applyDelta pre delta = some post) : 0 ≤ post.1 ∧ 0 ≤ post.2 := by
  unfold applyDelta at h
  dsimp only at h
  split at h
  · cases h
  · cases h
    dsimp only
    omega

structure SwapBackfillRow where
  id : ℤ
  pairId : ℤ
  asset0Id : ℤ
  blockHeight : ℤ
  txHash : String
  swapIndex : ℤ
  offerAssetId : ℤ
  offerAmount : ℤ
  returnAmount : ℤ
  poolReturnAmount : Option ℤ
  bookReturnAmount : Option ℤ
  limitBookOfferConsumed : Option ℤ
  commissionAmount : Option ℤ
  reserve0 : Option ℤ
  reserve1 : Option ℤ

structure LiqBackfillRow where
  id : ℤ
  pairId : ℤ
  blockHeight : ℤ
  txHash : String
  eventType : String
  asset0Amount : Option ℤ
  asset1Amount : Option ℤ
  reserve0 : Option ℤ
  reserve1 : Option ℤ

inductive TapeEvent
  | swap (row : SwapBackfillRow)
  | liq (row : LiqBackfillRow)

namespace TapeEvent

def pairId : TapeEvent → ℤ
  | swap row => row.pairId
  | liq row => row.pairId

/-- Height, transaction hash, swaps before deposits and withdrawals, ordinal, row id. -/
abbrev SortKey := ℤ ×ₗ String ×ₗ ℕ ×ₗ ℤ ×ₗ ℤ

def sortKey : TapeEvent → SortKey
  | swap row => toLex (row.blockHeight, toLex (row.txHash,
      toLex (0, toLex (row.swapIndex, row.id))))
  | liq row => toLex (row.blockHeight, toLex (row.txHash, toLex (1, toLex (0, row.id))))

def reserves : TapeEvent → Option ℤ × Option ℤ
  | swap row => (row.reserve0, row.reserve1)
  | liq row => (row.reserve0, row.reserve1)

def alreadyFilled (event : TapeEvent) : Bool :=
  event.reserves.1.isSome && event.reserves.2.isSome

def storedPost (event : TapeEvent) : Option (ℤ × ℤ) :=
  event.reserves.1.bind fun reserve0 => event.reserves.2.map fun reserve1 => (reserve0, reserve1)

def delta : TapeEvent → ReserveDelta
  | swap row => swapPoolDelta (row.offerAssetId = row.asset0Id) row.offerAmount row.returnAmount
      row.poolReturnAmount row.bookReturnAmount row.limitBookOfferConsumed row.commissionAmount
  | liq row => liquidityDelta (row.eventType = "add") (row.asset0Amount.getD 0)
      (row.asset1Amount.getD 0)

/-- The update of a row whose two columns are null. -/
def write (event : TapeEvent) (post : ℤ × ℤ) : TapeEvent :=
  match event with
  | swap row => if row.reserve0.isNone && row.reserve1.isNone then
      swap { row with reserve0 := some post.1, reserve1 := some post.2 } else event
  | liq row => if row.reserve0.isNone && row.reserve1.isNone then
      liq { row with reserve0 := some post.1, reserve1 := some post.2 } else event

end TapeEvent

/-- The loop over a pair's events, newest first: the rows as it leaves them. A delta that cannot
be taken back ends it. -/
def replayBack : ℤ × ℤ → List TapeEvent → List TapeEvent
  | _, [] => []
  | running, event :: events =>
    if event.alreadyFilled then
      match invertDelta (event.storedPost.getD running) event.delta with
      | some pre => event :: replayBack pre events
      | none => event :: events
    else
      match invertDelta running event.delta with
      | some pre => event.write running :: replayBack pre events
      | none => event.write running :: events

/-- The rows of one pair after the backfill. -/
def backfillPair (seed : ℤ × ℤ) (events : List TapeEvent) : List TapeEvent :=
  replayBack seed (events.insertionSort fun event next => next.sortKey ≤ event.sortKey)

/-- The rows of every pair that has reserves; the others are left. -/
def backfillAll (seeds : ℤ → Option (ℤ × ℤ)) (table : List TapeEvent) (pairId : ℤ) :
    List TapeEvent :=
  let events := table.filter fun event => event.pairId = pairId
  match seeds pairId with
  | some seed => backfillPair seed events
  | none => events

section Replay

/-- The row with these reserves in its columns. -/
def TapeEvent.withReserves (event : TapeEvent) (post : ℤ × ℤ) : TapeEvent :=
  match event with
  | swap row => swap { row with reserve0 := some post.1, reserve1 := some post.2 }
  | liq row => liq { row with reserve0 := some post.1, reserve1 := some post.2 }

/-- The columns of a row are null or hold these reserves. -/
def TapeEvent.Held (event : TapeEvent) (post : ℤ × ℤ) : Prop :=
  event.reserves = (none, none) ∨ event.reserves = (some post.1, some post.2)

theorem write_of_null {event : TapeEvent} {post : ℤ × ℤ} (h : event.reserves = (none, none)) :
    event.write post = event.withReserves post := by
  cases event <;> simp_all [TapeEvent.reserves, TapeEvent.write, TapeEvent.withReserves]

theorem withReserves_of_held {event : TapeEvent} {post : ℤ × ℤ}
    (h : event.reserves = (some post.1, some post.2)) : event.withReserves post = event := by
  cases event with
  | swap row =>
    obtain ⟨h0, h1⟩ := Prod.mk.inj h
    unfold TapeEvent.withReserves
    dsimp only
    rw [← h0, ← h1]
  | liq row =>
    obtain ⟨h0, h1⟩ := Prod.mk.inj h
    unfold TapeEvent.withReserves
    dsimp only
    rw [← h0, ← h1]

/-- Deltas that lead from one pair of reserves to another, through those after each event. -/
inductive Leads (start : ℤ × ℤ) : List (TapeEvent × (ℤ × ℤ)) → ℤ × ℤ → Prop
  | nil (h : 0 ≤ start.1 ∧ 0 ≤ start.2) : Leads start [] start
  | snoc {tape : List (TapeEvent × (ℤ × ℤ))} {before post : ℤ × ℤ} {event : TapeEvent}
    (htape : Leads start tape before) (hdelta : applyDelta before event.delta = some post)
    (hheld : event.Held post) : Leads start (tape ++ [(event, post)]) post

theorem Leads.nonneg {start last : ℤ × ℤ} {tape : List (TapeEvent × (ℤ × ℤ))}
    (h : Leads start tape last) : 0 ≤ last.1 ∧ 0 ≤ last.2 := by
  cases h with
  | nil hstart => exact hstart
  | snoc htape hdelta hheld => exact applyDelta_nonneg hdelta

/-- Replayed backwards from the last reserves, every row gets the reserves after its event. -/
theorem replayBack_eq {start last : ℤ × ℤ} {tape : List (TapeEvent × (ℤ × ℤ))}
    (h : Leads start tape last) :
    replayBack last (tape.map Prod.fst).reverse =
      (tape.map fun entry => entry.1.withReserves entry.2).reverse := by
  induction h with
  | nil hstart => rfl
  | snoc htape hdelta hheld ih =>
    rename_i tape before post event
    rw [List.map_append, List.map_append, List.reverse_append, List.reverse_append]
    have hinvert := invertDelta_apply htape.nonneg hdelta
    simp only [List.map_cons, List.map_nil, List.reverse_singleton, List.singleton_append]
    unfold replayBack
    rcases hheld with hnull | hfilled
    · have hopen : event.alreadyFilled = false := by
        unfold TapeEvent.alreadyFilled
        rw [hnull]
        rfl
      rw [hopen, hinvert, write_of_null hnull]
      simp [ih]
    · have hclosed : event.alreadyFilled = true := by
        unfold TapeEvent.alreadyFilled
        rw [hfilled]
        rfl
      have hstored : event.storedPost = some post := by
        unfold TapeEvent.storedPost
        rw [hfilled]
        rfl
      rw [hclosed, hstored, Option.getD_some, hinvert, withReserves_of_held hfilled]
      simp [ih]

/-- The backfill of a table whose sort keys follow the order of execution. -/
theorem backfillPair_eq {start last : ℤ × ℤ} {tape : List (TapeEvent × (ℤ × ℤ))}
    {table : List TapeEvent} (h : Leads start tape last)
    (hperm : table.Perm (tape.map Prod.fst))
    (hordered : (tape.map Prod.fst).Pairwise fun event next => event.sortKey < next.sortKey) :
    backfillPair last table =
      (tape.map fun entry => entry.1.withReserves entry.2).reverse := by
  unfold backfillPair
  rw [OrderedTables.descending_eq hperm hordered]
  exact replayBack_eq h

end Replay

end Cl8yDex.EventReserves

/-!
## Events of a pair as the indexer reads them

The events of swaps, deposits and withdrawals with the attributes that the pair writes, and the
amounts that the indexer takes from them.
-/

namespace Cl8yDex.PoolEvents

open Outcome EventReserves

/-- The calls that move reserves. -/
inductive PoolCall
  | swap (q : Querier) (env : Env) (offerToken sender : Addr) (inputAmount : ℕ) (args : SwapArgs)
  | provide (q : Querier) (env : Env) (sender : Addr) (assets : Asset × Asset)
    (slippageTolerance : Option Decimal) (receiver : Option Addr)
  | withdraw (env : Env) (offerToken sender : Addr) (lpAmount : ℕ)
    (minAssets : Option (ℕ × ℕ))

def PoolCall.run (p : PairStorage) : PoolCall → Except ContractError (PairStorage × Response)
  | swap q env offerToken sender inputAmount args =>
    executeSwap p q env offerToken sender inputAmount args
  | provide q env sender assets slippageTolerance receiver =>
    executeProvideLiquidity p q env sender assets slippageTolerance receiver
  | withdraw env offerToken sender lpAmount minAssets =>
    executeWithdrawLiquidity p env offerToken sender lpAmount minAssets

/-- The attributes of an event. `limit_book_offer_consumed` is written only with a book leg, and
`assets` lists a deposit as its sender did. -/
inductive PoolEvent
  | swap (report : SwapReport) (limitBookOfferConsumed : Option ℕ)
  | provide (sender : Addr) (assets : Asset × Asset) (share : ℕ)
  | withdraw (sender : Addr) (withdrawnShare : ℕ) (refundAssets : Asset × Asset)
  deriving DecidableEq

/-- The book leg of a swap's plan. -/
def bookLeg (p : PairStorage) (inputAmount : ℕ) (args : SwapArgs) : ℕ :=
  match validateSwap p inputAmount args with
  | .ok plan => plan.bookLeg
  | .error _ => 0

def emitted (p : PairStorage) (call : PoolCall) (attributes : Attributes) : Option PoolEvent :=
  match call, attributes with
  | .swap _ _ _ _ inputAmount args, .swap report =>
    some (.swap report
      (if 0 < bookLeg p inputAmount args then some report.limitBookOfferConsumed else none))
  | .provide _ _ _ assets _ _, .provideLiquidity sender _ _ _ share _ =>
    some (.provide sender assets share)
  | .withdraw _ _ _ _ _, .withdrawLiquidity sender withdrawnShare refundA refundB =>
    some (.withdraw sender withdrawnShare
      (⟨.token p.pairInfo.token0, refundA⟩, ⟨.token p.pairInfo.token1, refundB⟩))
  | _, _ => none

section Parse

/-- Amounts have at most 38 digits. -/
def requiredAmount (value : ℕ) : Option ℤ := if value < 10 ^ 38 then some value else none

def optionalAmount (value : Option ℕ) : Option (Option ℤ) :=
  match value with
  | some value => (requiredAmount value).map some
  | none => some none

structure ParsedSwap where
  offerAsset : Addr
  offerAmount : ℤ
  returnAmount : ℤ
  spreadAmount : Option ℤ
  commissionAmount : Option ℤ
  poolReturnAmount : Option ℤ
  bookReturnAmount : Option ℤ
  limitBookOfferConsumed : Option ℤ

structure ParsedLiquidityEvent where
  eventType : String
  asset0Amount : ℤ
  asset1Amount : ℤ
  lpAmount : ℤ

inductive ParsedEvent
  | swap (parsed : ParsedSwap)
  | liquidity (event : ParsedLiquidityEvent)

def parseSwapAmounts (report : SwapReport) (limitBookOfferConsumed : Option ℕ) :
    Option ParsedSwap := do
  let offerAmount ← requiredAmount report.offerAmount
  let returnAmount ← requiredAmount report.returnAmount
  let spreadAmount ← optionalAmount (some report.spreadAmount)
  let commissionAmount ← optionalAmount (some report.commissionAmount)
  let poolReturnAmount ← optionalAmount (some report.poolReturnAmount)
  let bookReturnAmount ← optionalAmount (some report.bookReturnAmount)
  let limitBookOfferConsumed ← optionalAmount limitBookOfferConsumed
  return ⟨report.offerToken, offerAmount, returnAmount, spreadAmount, commissionAmount,
    poolReturnAmount, bookReturnAmount, limitBookOfferConsumed⟩

/-- The two amounts in the order of the text; the names before them are not looked at. -/
def parseAssetAmounts (assets : Asset × Asset) : Option (ℤ × ℤ) := do
  let raw0 ← requiredAmount assets.1.amount
  let raw1 ← requiredAmount assets.2.amount
  return (raw0, raw1)

def parseLiquidity (eventType : String) (assets : Asset × Asset) (share : ℕ) :
    Option ParsedLiquidityEvent := do
  let (a0, a1) ← parseAssetAmounts assets
  let lp ← requiredAmount share
  return ⟨eventType, a0, a1, lp⟩

def PoolEvent.parse : PoolEvent → Option ParsedEvent
  | swap report consumed => (parseSwapAmounts report consumed).map .swap
  | provide _ assets share => (parseLiquidity "add" assets share).map .liquidity
  | withdraw _ share assets => (parseLiquidity "remove" assets share).map .liquidity

/-- The change of the reserves, with the pair's first token for `asset_0`. -/
def ParsedEvent.delta (token0 : Addr) : ParsedEvent → ReserveDelta
  | swap parsed => swapPoolDelta (parsed.offerAsset = token0) parsed.offerAmount
      parsed.returnAmount parsed.poolReturnAmount parsed.bookReturnAmount
      parsed.limitBookOfferConsumed parsed.commissionAmount
  | liquidity event =>
      liquidityDelta (event.eventType = "add") event.asset0Amount event.asset1Amount

end Parse

/-- The amounts of an event have at most 38 digits. -/
def PoolEvent.Small : PoolEvent → Prop
  | swap report consumed => report.offerAmount < 10 ^ 38 ∧ report.returnAmount < 10 ^ 38 ∧
      report.spreadAmount < 10 ^ 38 ∧ report.commissionAmount < 10 ^ 38 ∧
      report.poolReturnAmount < 10 ^ 38 ∧ report.bookReturnAmount < 10 ^ 38 ∧
      ∀ value ∈ consumed, value < 10 ^ 38
  | provide _ assets share => assets.1.amount < 10 ^ 38 ∧ assets.2.amount < 10 ^ 38 ∧
      share < 10 ^ 38
  | withdraw _ share assets => assets.1.amount < 10 ^ 38 ∧ assets.2.amount < 10 ^ 38 ∧
      share < 10 ^ 38

/-- Events whose amounts say what they did to the pool: a swap that returned something from the
book and nothing from the pool put nothing into the pool, and a deposit lists its assets in the
pair's order or in equal amounts. -/
def PoolEvent.Faithful (token0 : Addr) : PoolEvent → Prop
  | swap report consumed => ¬(0 < report.bookReturnAmount ∧ report.poolReturnAmount = 0 ∧
      consumed.getD 0 < report.offerAmount)
  | provide _ assets _ => assets.1.info = .token token0 ∨ assets.1.amount = assets.2.amount
  | withdraw _ _ _ => True

section Read

/-- What the parser makes of an event with small amounts. -/
def PoolEvent.read : PoolEvent → ParsedEvent
  | swap report consumed => .swap ⟨report.offerToken, report.offerAmount, report.returnAmount,
      some report.spreadAmount, some report.commissionAmount, some report.poolReturnAmount,
      some report.bookReturnAmount, consumed.map fun value : ℕ => (value : ℤ)⟩
  | provide _ assets share => .liquidity ⟨"add", assets.1.amount, assets.2.amount, share⟩
  | withdraw _ share assets => .liquidity ⟨"remove", assets.1.amount, assets.2.amount, share⟩

theorem requiredAmount_of_lt {value : ℕ} (h : value < 10 ^ 38) :
    requiredAmount value = some (value : ℤ) := if_pos h

theorem optionalAmount_of_lt {value : Option ℕ} (h : ∀ n ∈ value, n < 10 ^ 38) :
    optionalAmount value = some (value.map fun n : ℕ => (n : ℤ)) := by
  cases value with
  | none => rfl
  | some n =>
    unfold optionalAmount
    dsimp only
    rw [requiredAmount_of_lt (h n rfl)]
    rfl

theorem parseLiquidity_of_lt {eventType : String} {assets : Asset × Asset} {share : ℕ}
    (h : assets.1.amount < 10 ^ 38 ∧ assets.2.amount < 10 ^ 38 ∧ share < 10 ^ 38) :
    parseLiquidity eventType assets share =
      some ⟨eventType, assets.1.amount, assets.2.amount, share⟩ := by
  obtain ⟨h0, h1, hshare⟩ := h
  unfold parseLiquidity parseAssetAmounts
  rw [requiredAmount_of_lt h0, requiredAmount_of_lt h1, requiredAmount_of_lt hshare]
  rfl

theorem parse_of_small {event : PoolEvent} (h : event.Small) :
    event.parse = some event.read := by
  cases event with
  | swap report consumed =>
    obtain ⟨hoffer, hreturn, hspread, hcommission, hpool, hbook, hconsumed⟩ := h
    unfold PoolEvent.parse parseSwapAmounts
    dsimp only
    rw [requiredAmount_of_lt hoffer, requiredAmount_of_lt hreturn,
      optionalAmount_of_lt (by simpa using hspread),
      optionalAmount_of_lt (by simpa using hcommission),
      optionalAmount_of_lt (by simpa using hpool), optionalAmount_of_lt (by simpa using hbook),
      optionalAmount_of_lt hconsumed]
    rfl
  | provide sender assets share =>
    unfold PoolEvent.parse
    dsimp only
    rw [parseLiquidity_of_lt h]
    rfl
  | withdraw sender share assets =>
    unfold PoolEvent.parse
    dsimp only
    rw [parseLiquidity_of_lt h]
    rfl

end Read

end Cl8yDex.PoolEvents
