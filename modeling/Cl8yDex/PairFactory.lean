import Std.Data.TreeMap.Lemmas
import Mathlib.Data.String.Basic
import Cl8yDex.Arithmetic
import Cl8yDex.Outcome
import Cl8yDex.PlacementRules

/-!
# The pair factory

The factory instantiates pair contracts and keeps them in five stores: by the key of their
assets, by position, the position by key, by address, and their number. Addresses are texts
here since keys are made of them.
-/

namespace Cl8yDex.Factory

open Outcome

inductive AssetInfo
  | token (contractAddr : String)
  | nativeToken (denom : String)
  deriving DecidableEq

def AssetInfo.canonicalKey : AssetInfo → String
  | .token contractAddr => "token:" ++ contractAddr
  | .nativeToken denom => "native:" ++ denom

/-- The two keys in their order, separated by a bar. -/
def pairKey (assetInfos : AssetInfo × AssetInfo) : String :=
  let key0 := assetInfos.1.canonicalKey
  let key1 := assetInfos.2.canonicalKey
  if key0 ≤ key1 then key0 ++ "|" ++ key1 else key1 ++ "|" ++ key0

structure PairInfo where
  assetInfos : AssetInfo × AssetInfo
  contractAddr : String
  liquidityToken : String
  deriving DecidableEq

structure Config where
  governance : String
  treasury : String
  defaultFeeBps : ℕ
  pairCodeId : ℕ
  lpTokenCodeId : ℕ
  defaultLimitBatchMaxRungs : ℕ
  pairCreationFeeUluna : ℕ
  discountRegistry : Option String

structure Storage where
  config : Config
  whitelistedCodeIds : ℕ → Bool
  pairs : Std.TreeMap String PairInfo
  pairCount : ℕ
  pairIndex : Std.TreeMap ℕ PairInfo
  pairKeyIndex : Std.TreeMap String ℕ
  pairAddrRegistered : Std.TreeMap String Bool
  pendingPair : Option (AssetInfo × AssetInfo)
  pairCreationBlock : Option ℕ
  blacklistedWallets : String → Bool
  blacklistedTokens : String → Bool
  blacklistedPairs : String → Bool

/-- The answers of the chain and of the tokens; `none` is a failed query. -/
structure Host where
  contractAddress : String
  validAddr : String → Bool
  codeId : String → Option ℕ
  decimals : String → Option ℕ
  isCommunityTax : String → Bool

inductive ContractError
  | std (msg : String)
  | unauthorized
  | pairAlreadyExists
  | codeIdNotWhitelisted
  | pairNotInRegistry (pair : String)
  | invalidFee
  | insufficientPairCreationFee (required : ℕ)
  | unexpectedPairCreationFunds
  | invalidTokens
  | invalidCodeId
  | nativeTokenNotSupported
  | onePairCreationPerBlock
  | pairAssetDecimalsTooHigh (decimalsA decimalsB max : ℕ)
  | discountRegistryAllTooManyPairs (pairCount max : ℕ)
  | lpAdminAllTooManyPairs (pairCount max : ℕ)
  | pairTreasuryAllTooManyPairs (pairCount max : ℕ)
  | walletAlreadyBlacklisted (address : String)
  | walletNotBlacklisted (address : String)
  | tokenAlreadyBlacklisted (token : String)
  | tokenNotBlacklisted (token : String)
  | pairAlreadyBlacklisted (pair : String)
  | pairNotBlacklisted (pair : String)
  | panic
  /-- A submessage or a message of the response failed. -/
  | reverted

/-- The messages of the pairs that the factory sends. -/
inductive PairMsg
  | updateFee (feeBps : ℕ)
  | updateTreasury (treasury : String)
  | updateHooks (hooks : List String)
  | setDiscountRegistry (registry : Option String)
  | setLpAdmin (admin : String)
  | setPaused (paused : Bool)
  | sweep (token recipient : String)
  | refreshAssetCodeIds
  | updateLimitOrderConfig (maxBatchRungs : ℕ)
  | updateLimitCleanConfig (minRemainingToken0 minRemainingToken1 : ℕ)

inductive Message
  | bankSend (toAddress : String) (uluna : ℕ)
  | executePair (contractAddr : String) (msg : PairMsg)
  | registerListedPair (token pair : String)

structure PairInstantiateMsg where
  assetInfos : AssetInfo × AssetInfo
  feeBps : ℕ
  treasury : String
  factory : String
  lpTokenCodeId : ℕ
  governance : String
  maxBatchRungs : ℕ
  discountRegistry : Option String

/-- What a batch reports of its scan. -/
structure BatchReport where
  pairsUpdated : ℕ
  hasMore : Bool
  scannedThroughIndex : Option ℕ
  nextStartAfter : Option ℕ
  deriving DecidableEq

structure Response where
  messages : List Message
  batch : Option BatchReport

def maxPairAssetDecimalsBootstrap : ℕ := 18

def calcLimit (limit : Option ℕ) : ℕ := max 1 (min (limit.getD 10) 30)

variable (s : Storage) (host : Host) (sender : String)

def addrValidate (addr : String) : Except ContractError String :=
  if host.validAddr addr then .ok addr else .error (.std "invalid address")

def ensureGovernance : Except ContractError Unit :=
  ensure (sender = s.config.governance) .unauthorized

def assertIsToken (assetInfo : AssetInfo) : Except ContractError String :=
  match assetInfo with
  | .token contractAddr => return contractAddr
  | .nativeToken _ => throw .nativeTokenNotSupported

structure InstantiateMsg where
  governance : String
  treasury : String
  defaultFeeBps : ℕ
  pairCodeId : ℕ
  lpTokenCodeId : ℕ
  whitelistedCodeIds : List ℕ
  defaultLimitBatchMaxRungs : ℕ
  pairCreationFeeUluna : ℕ

def instantiate (msg : InstantiateMsg) : Except ContractError Storage := do
  let governance ← addrValidate host msg.governance
  let treasury ← addrValidate host msg.treasury
  ensure (msg.defaultFeeBps ≤ 10000) .invalidFee
  return {
    config := {
      governance, treasury
      defaultFeeBps := msg.defaultFeeBps
      pairCodeId := msg.pairCodeId
      lpTokenCodeId := msg.lpTokenCodeId
      defaultLimitBatchMaxRungs := clampMaxBatchRungs msg.defaultLimitBatchMaxRungs
      pairCreationFeeUluna := msg.pairCreationFeeUluna
      discountRegistry := none }
    whitelistedCodeIds := fun codeId => msg.whitelistedCodeIds.contains codeId
    pairs := ∅
    pairCount := 0
    pairIndex := ∅
    pairKeyIndex := ∅
    pairAddrRegistered := ∅
    pendingPair := none
    pairCreationBlock := none
    blacklistedWallets := fun _ => false
    blacklistedTokens := fun _ => false
    blacklistedPairs := fun _ => false }

section CreatePair

def ensureCodeIdWhitelisted (token : String) : Except ContractError Unit := do
  let codeId ← orThrow (host.codeId token) (.std "Querier error")
  ensure (s.whitelistedCodeIds codeId = true) .codeIdNotWhitelisted

/-- The fee goes to the treasury and what was paid above it back to the sender. -/
def creationFeeMessages (funds : List (String × ℕ)) : Except ContractError (List Message) := do
  let fee := s.config.pairCreationFeeUluna
  ensure (¬ ∃ coin ∈ funds, coin.1 ≠ "uluna") .unexpectedPairCreationFunds
  let paid := ((funds.find? fun coin => coin.1 = "uluna").map Prod.snd).getD 0
  ensure (fee ≤ paid) (.insufficientPairCreationFee fee)
  return (if fee = 0 then [] else [.bankSend s.config.treasury fee]) ++
    (if paid - fee = 0 then [] else [.bankSend sender (paid - fee)])

structure CreateResponse where
  messages : List Message
  codeId : ℕ
  instantiateMsg : PairInstantiateMsg

def executeCreatePair (height : ℕ) (funds : List (String × ℕ))
    (assetInfos : AssetInfo × AssetInfo) : Except ContractError (Storage × CreateResponse) := do
  let addrA ← assertIsToken assetInfos.1
  let addrB ← assertIsToken assetInfos.2
  let tokenA ← addrValidate host addrA
  let tokenB ← addrValidate host addrB
  ensure (tokenA ≠ tokenB) .invalidTokens
  ensure (pairKey assetInfos ∉ s.pairs) .pairAlreadyExists
  ensureCodeIdWhitelisted s host tokenA
  ensureCodeIdWhitelisted s host tokenB
  let decimalsA ← orThrow (host.decimals tokenA) (.std "Querier error")
  let decimalsB ← orThrow (host.decimals tokenB) (.std "Querier error")
  ensure (¬(maxPairAssetDecimalsBootstrap < decimalsA ∨ maxPairAssetDecimalsBootstrap < decimalsB))
    (.pairAssetDecimalsTooHigh decimalsA decimalsB maxPairAssetDecimalsBootstrap)
  let messages ← creationFeeMessages s sender funds
  ensure (s.pairCreationBlock ≠ some height) .onePairCreationPerBlock
  return ({ s with pairCreationBlock := some height, pendingPair := some assetInfos },
    { messages
      codeId := s.config.pairCodeId
      instantiateMsg := {
        assetInfos
        feeBps := s.config.defaultFeeBps
        treasury := s.config.treasury
        factory := host.contractAddress
        lpTokenCodeId := s.config.lpTokenCodeId
        governance := s.config.governance
        maxBatchRungs := s.config.defaultLimitBatchMaxRungs
        discountRegistry := s.config.discountRegistry } })

/-- The addresses that the chain gives to an instantiated pair and to its LP token. -/
structure Created where
  contractAddr : String
  lpToken : String

/-- The pair's answer to `Pair`: the assets as its `instantiate` stored them, its own address
and the LP token that its `reply` stored. -/
def queryPairInfo (msg : PairInstantiateMsg) (created : Created) : PairInfo :=
  ⟨msg.assetInfos, created.contractAddr, created.lpToken⟩

def registerListedPairMsg (pair : String) (assetInfo : AssetInfo) :
    Except ContractError (List Message) :=
  match assetInfo with
  | .nativeToken _ => return []
  | .token contractAddr => do
    let token ← addrValidate host contractAddr
    return if host.isCommunityTax token then [.registerListedPair token pair] else []

def registerListedPairMsgs (pair : String) (assetInfos : AssetInfo × AssetInfo) :
    Except ContractError (List Message) := do
  let first ← registerListedPairMsg host pair assetInfos.1
  let second ← registerListedPairMsg host pair assetInfos.2
  return first ++ second

/-- The five stores with one more pair. -/
def saved (assetInfos : AssetInfo × AssetInfo) (info : PairInfo) : Storage :=
  { s with
    pendingPair := none
    pairs := s.pairs.insert (pairKey assetInfos) info
    pairIndex := s.pairIndex.insert s.pairCount info
    pairKeyIndex := s.pairKeyIndex.insert (pairKey assetInfos) s.pairCount
    pairAddrRegistered := s.pairAddrRegistered.insert info.contractAddr true
    pairCount := s.pairCount + 1 }

def replyInstantiatePair (contractAddr : String) (queried : PairInfo) :
    Except ContractError (Storage × List Message) := do
  let pairAddr ← addrValidate host contractAddr
  let assetInfos ← orThrow s.pendingPair (.std "not found")
  ensure (queried.contractAddr = pairAddr)
    (.std "pair query contract_addr does not match instantiate reply address")
  ensure (s.pairCount + 1 ≤ u64Max) .panic
  let messages ← registerListedPairMsgs host pairAddr assetInfos
  return (saved s assetInfos queried, messages)

/-- The whole message: the factory's part, the instantiation of the pair, and the reply. -/
def createPair (height : ℕ) (funds : List (String × ℕ)) (assetInfos : AssetInfo × AssetInfo)
    (created : Option Created) : Except ContractError (Storage × List Message) := do
  let (pending, response) ← executeCreatePair s host sender height funds assetInfos
  let created ← orThrow created .reverted
  let (s', messages) ← replyInstantiatePair pending host created.contractAddr
    (queryPairInfo response.instantiateMsg created)
  return (s', response.messages ++ messages)

end CreatePair

end Cl8yDex.Factory
