import Cl8yDex.PairFactory

/-!
# The messages of the factory

Governance messages change settings or are passed on to registered pairs, one at a time or in
batches of consecutive positions. Anybody may list the pairs page by page. A migration fills
the two stores that older versions did not have.
-/

namespace Cl8yDex.Factory

open Outcome

variable (s : Storage) (host : Host) (sender : String)

section Settings

def executeAddWhitelistedCodeId (codeId : ℕ) : Except ContractError Storage := do
  ensureGovernance s sender
  return { s with whitelistedCodeIds := Function.update s.whitelistedCodeIds codeId true }

def executeRemoveWhitelistedCodeId (codeId : ℕ) : Except ContractError Storage := do
  ensureGovernance s sender
  return { s with whitelistedCodeIds := Function.update s.whitelistedCodeIds codeId false }

def executeSetPairCreationFee (feeUluna : ℕ) : Except ContractError Storage := do
  ensureGovernance s sender
  return { s with config := { s.config with pairCreationFeeUluna := feeUluna } }

def validateOptional (addr : Option String) : Except ContractError (Option String) :=
  match addr with
  | some addr => some <$> addrValidate host addr
  | none => return none

def persistFactoryDiscountRegistry (registry : Option String) : Except ContractError Storage := do
  let validated ← validateOptional host registry
  return { s with config := { s.config with discountRegistry := validated } }

structure UpdateConfigParams where
  governance : Option String
  treasury : Option String
  defaultFeeBps : Option ℕ
  defaultLimitBatchMaxRungs : Option ℕ
  pairCodeId : Option ℕ
  lpTokenCodeId : Option ℕ
  discountRegistry : Option String

def executeUpdateConfig (params : UpdateConfigParams) : Except ContractError Storage := do
  ensureGovernance s sender
  let governance ← validateOptional host params.governance
  let treasury ← validateOptional host params.treasury
  ensure (∀ fee ∈ params.defaultFeeBps, fee ≤ 10000) .invalidFee
  ensure (params.pairCodeId ≠ some 0) .invalidCodeId
  ensure (params.lpTokenCodeId ≠ some 0) .invalidCodeId
  let discountRegistry ← validateOptional host params.discountRegistry
  return { s with config := { s.config with
    governance := governance.getD s.config.governance
    treasury := treasury.getD s.config.treasury
    defaultFeeBps := params.defaultFeeBps.getD s.config.defaultFeeBps
    defaultLimitBatchMaxRungs := (params.defaultLimitBatchMaxRungs.map clampMaxBatchRungs).getD
      s.config.defaultLimitBatchMaxRungs
    pairCodeId := params.pairCodeId.getD s.config.pairCodeId
    lpTokenCodeId := params.lpTokenCodeId.getD s.config.lpTokenCodeId
    discountRegistry := discountRegistry.or s.config.discountRegistry } }

def executeBlacklistWallet (address : String) : Except ContractError Storage := do
  ensureGovernance s sender
  let wallet ← addrValidate host address
  ensure (s.blacklistedWallets wallet = false) (.walletAlreadyBlacklisted wallet)
  return { s with blacklistedWallets := Function.update s.blacklistedWallets wallet true }

def executeUnblacklistWallet (address : String) : Except ContractError Storage := do
  ensureGovernance s sender
  let wallet ← addrValidate host address
  ensure (s.blacklistedWallets wallet = true) (.walletNotBlacklisted wallet)
  return { s with blacklistedWallets := Function.update s.blacklistedWallets wallet false }

def executeBlacklistToken (token : String) : Except ContractError Storage := do
  ensureGovernance s sender
  let token ← addrValidate host token
  ensure (s.blacklistedTokens token = false) (.tokenAlreadyBlacklisted token)
  return { s with blacklistedTokens := Function.update s.blacklistedTokens token true }

def executeUnblacklistToken (token : String) : Except ContractError Storage := do
  ensureGovernance s sender
  let token ← addrValidate host token
  ensure (s.blacklistedTokens token = true) (.tokenNotBlacklisted token)
  return { s with blacklistedTokens := Function.update s.blacklistedTokens token false }

def assertPairInRegistry (pairAddr : String) : Except ContractError Unit :=
  ensure (pairAddr ∈ s.pairAddrRegistered) (.pairNotInRegistry pairAddr)

def executeBlacklistPair (pair : String) : Except ContractError Storage := do
  ensureGovernance s sender
  let pairAddr ← addrValidate host pair
  assertPairInRegistry s pairAddr
  ensure (s.blacklistedPairs pairAddr = false) (.pairAlreadyBlacklisted pairAddr)
  return { s with blacklistedPairs := Function.update s.blacklistedPairs pairAddr true }

def executeUnblacklistPair (pair : String) : Except ContractError Storage := do
  ensureGovernance s sender
  let pairAddr ← addrValidate host pair
  ensure (s.blacklistedPairs pairAddr = true) (.pairNotBlacklisted pairAddr)
  return { s with blacklistedPairs := Function.update s.blacklistedPairs pairAddr false }

end Settings

section OnePair

/-- A message passed on to one registered pair. -/
def executeOnPair (pair : String) (msg : PairMsg) : Except ContractError Response := do
  let pairAddr ← addrValidate host pair
  assertPairInRegistry s pairAddr
  return ⟨[.executePair pairAddr msg], none⟩

def executeSetPairFee (pair : String) (feeBps : ℕ) : Except ContractError Response := do
  ensureGovernance s sender
  ensure (feeBps ≤ 10000) .invalidFee
  executeOnPair s host pair (.updateFee feeBps)

def executeSetPairTreasury (pair treasury : String) : Except ContractError Response := do
  ensureGovernance s sender
  let _ ← addrValidate host treasury
  executeOnPair s host pair (.updateTreasury treasury)

def validateHookCount (count : ℕ) : Except ContractError Unit :=
  ensure (count ≤ maxPairHooks)
    (.std ("Too many pair hooks: " ++ toString count ++ "; maximum " ++ toString maxPairHooks))

/-- The first repeated hook of the list, if any. -/
def firstDuplicate : List String → List String → Option String
  | _, [] => none
  | seen, hook :: hooks =>
      if hook ∈ seen then some hook else firstDuplicate (seen ++ [hook]) hooks

def validatePairHooks (hooks : List String) : Except ContractError (List String) := do
  validateHookCount hooks.length
  let validated ← hooks.mapM (addrValidate host)
  validateHookCount validated.length
  match firstDuplicate [] validated with
  | some hook => throw (.std ("Duplicate pair hook: " ++ hook))
  | none => return validated

def executeSetPairHooks (pair : String) (hooks : List String) : Except ContractError Response := do
  ensureGovernance s sender
  let pairAddr ← addrValidate host pair
  assertPairInRegistry s pairAddr
  let validated ← validatePairHooks host hooks
  return ⟨[.executePair pairAddr (.updateHooks validated)], none⟩

/-- The remaining messages to one pair differ in nothing but the message. -/
def executeForPair (pair : String) (msg : PairMsg) : Except ContractError Response := do
  ensureGovernance s sender
  executeOnPair s host pair msg

def executeSetDiscountRegistry (pair : String) (registry : Option String) :
    Except ContractError Response :=
  executeForPair s host sender pair (.setDiscountRegistry registry)

def executeSetPairPaused (pair : String) (paused : Bool) : Except ContractError Response :=
  executeForPair s host sender pair (.setPaused paused)

def executeSweepPair (pair token recipient : String) : Except ContractError Response :=
  executeForPair s host sender pair (.sweep token recipient)

def executeRefreshPairAssetCodeIds (pair : String) : Except ContractError Response :=
  executeForPair s host sender pair .refreshAssetCodeIds

def executeSetPairLimitBatchMax (pair : String) (maxRungs : ℕ) : Except ContractError Response :=
  executeForPair s host sender pair (.updateLimitOrderConfig (clampMaxBatchRungs maxRungs))

def executeSetPairLimitCleanConfig (pair : String) (minRemainingToken0 minRemainingToken1 : ℕ) :
    Except ContractError Response :=
  executeForPair s host sender pair
    (.updateLimitCleanConfig minRemainingToken0 minRemainingToken1)

end OnePair

section AllPairs

/-- The message to the pair at a position, if one is stored there. -/
def messageAt (msg : PairMsg) (idx : ℕ) : List Message :=
  match s.pairIndex[idx]? with
  | some info => [.executePair info.contractAddr msg]
  | none => []

def messagesToAll (tooMany : ℕ → ℕ → ContractError) (msg : PairMsg) :
    Except ContractError Response := do
  ensure (s.pairCount ≤ calcLimit none) (tooMany s.pairCount (calcLimit none))
  return ⟨(List.range s.pairCount).flatMap (messageAt s msg), none⟩

/-- The loop of a batch over at most `remaining` positions from `idx`. -/
def scanBatch (batchLimit : ℕ) (msg : PairMsg) : ℕ → ℕ → List Message → ℕ × List Message
  | 0, idx, messages => (idx, messages)
  | remaining + 1, idx, messages =>
      if messages.length < batchLimit then
        scanBatch batchLimit msg remaining (idx + 1) (messages ++ messageAt s msg idx)
      else (idx, messages)

def messagesToBatch (msg : PairMsg) (startAfter limit : Option ℕ) : Response :=
  let batchLimit := calcLimit limit
  let startIdx := startAfter.elim 0 fun start => min (start + 1) u64Max
  if s.pairCount ≤ startIdx then ⟨[], some ⟨0, false, none, none⟩⟩
  else
    let (idx, messages) := scanBatch s batchLimit msg (s.pairCount - startIdx) startIdx []
    let hasMore := decide (idx < s.pairCount)
    ⟨messages, some ⟨messages.length, hasMore, some (idx - 1),
      if hasMore then some (idx - 1) else none⟩⟩

def executeSetPairTreasuryAll (treasury : String) : Except ContractError Response := do
  ensureGovernance s sender
  let _ ← addrValidate host treasury
  messagesToAll s .pairTreasuryAllTooManyPairs (.updateTreasury treasury)

def executeSetPairTreasuryBatch (treasury : String) (startAfter limit : Option ℕ) :
    Except ContractError Response := do
  ensureGovernance s sender
  let _ ← addrValidate host treasury
  return messagesToBatch s (.updateTreasury treasury) startAfter limit

def executeSetDiscountRegistryAll (registry : Option String) :
    Except ContractError (Storage × Response) := do
  ensureGovernance s sender
  let s' ← persistFactoryDiscountRegistry s host registry
  let response ← messagesToAll s' .discountRegistryAllTooManyPairs (.setDiscountRegistry registry)
  return (s', response)

def executeSetDiscountRegistryBatch (registry : Option String) (startAfter limit : Option ℕ) :
    Except ContractError (Storage × Response) := do
  ensureGovernance s sender
  let s' ← persistFactoryDiscountRegistry s host registry
  return (s', messagesToBatch s' (.setDiscountRegistry registry) startAfter limit)

def executeSetLpAdminAll (admin : String) : Except ContractError Response := do
  ensureGovernance s sender
  let _ ← addrValidate host admin
  messagesToAll s .lpAdminAllTooManyPairs (.setLpAdmin admin)

def executeSetLpAdminBatch (admin : String) (startAfter limit : Option ℕ) :
    Except ContractError Response := do
  ensureGovernance s sender
  let _ ← addrValidate host admin
  return messagesToBatch s (.setLpAdmin admin) startAfter limit

def executeRefreshPairAssetCodeIdsBatch (startAfter limit : Option ℕ) :
    Except ContractError Response := do
  ensureGovernance s sender
  return messagesToBatch s .refreshAssetCodeIds startAfter limit

end AllPairs

/-- All messages but `CreatePair`. -/
inductive ExecuteMsg
  | addWhitelistedCodeId (codeId : ℕ)
  | removeWhitelistedCodeId (codeId : ℕ)
  | setPairFee (pair : String) (feeBps : ℕ)
  | setPairTreasury (pair treasury : String)
  | setPairTreasuryAll (treasury : String)
  | setPairTreasuryBatch (treasury : String) (startAfter limit : Option ℕ)
  | setPairCreationFee (feeUluna : ℕ)
  | setPairHooks (pair : String) (hooks : List String)
  | updateConfig (params : UpdateConfigParams)
  | setPairLimitBatchMax (pair : String) (maxRungs : ℕ)
  | setPairLimitCleanConfig (pair : String) (minRemainingToken0 minRemainingToken1 : ℕ)
  | setDiscountRegistry (pair : String) (registry : Option String)
  | setDiscountRegistryAll (registry : Option String)
  | setDiscountRegistryBatch (registry : Option String) (startAfter limit : Option ℕ)
  | setLpAdminAll (admin : String)
  | setLpAdminBatch (admin : String) (startAfter limit : Option ℕ)
  | setPairPaused (pair : String) (paused : Bool)
  | sweepPair (pair token recipient : String)
  | blacklistWallet (address : String)
  | unblacklistWallet (address : String)
  | blacklistToken (token : String)
  | unblacklistToken (token : String)
  | blacklistPair (pair : String)
  | unblacklistPair (pair : String)
  | refreshPairAssetCodeIds (pair : String)
  | refreshPairAssetCodeIdsBatch (startAfter limit : Option ℕ)

/-- A setting sends nothing. -/
def setting (x : Except ContractError Storage) : Except ContractError (Storage × Response) :=
  (fun s' => (s', ⟨[], none⟩)) <$> x

/-- A message that is passed on stores nothing. -/
def passed (x : Except ContractError Response) : Except ContractError (Storage × Response) :=
  (fun response => (s, response)) <$> x

def execute (msg : ExecuteMsg) : Except ContractError (Storage × Response) :=
  match msg with
  | .addWhitelistedCodeId codeId => setting (executeAddWhitelistedCodeId s sender codeId)
  | .removeWhitelistedCodeId codeId => setting (executeRemoveWhitelistedCodeId s sender codeId)
  | .setPairFee pair feeBps => passed s (executeSetPairFee s host sender pair feeBps)
  | .setPairTreasury pair treasury =>
      passed s (executeSetPairTreasury s host sender pair treasury)
  | .setPairTreasuryAll treasury => passed s (executeSetPairTreasuryAll s host sender treasury)
  | .setPairTreasuryBatch treasury startAfter limit =>
      passed s (executeSetPairTreasuryBatch s host sender treasury startAfter limit)
  | .setPairCreationFee feeUluna => setting (executeSetPairCreationFee s sender feeUluna)
  | .setPairHooks pair hooks => passed s (executeSetPairHooks s host sender pair hooks)
  | .updateConfig params => setting (executeUpdateConfig s host sender params)
  | .setPairLimitBatchMax pair maxRungs =>
      passed s (executeSetPairLimitBatchMax s host sender pair maxRungs)
  | .setPairLimitCleanConfig pair min0 min1 =>
      passed s (executeSetPairLimitCleanConfig s host sender pair min0 min1)
  | .setDiscountRegistry pair registry =>
      passed s (executeSetDiscountRegistry s host sender pair registry)
  | .setDiscountRegistryAll registry => executeSetDiscountRegistryAll s host sender registry
  | .setDiscountRegistryBatch registry startAfter limit =>
      executeSetDiscountRegistryBatch s host sender registry startAfter limit
  | .setLpAdminAll admin => passed s (executeSetLpAdminAll s host sender admin)
  | .setLpAdminBatch admin startAfter limit =>
      passed s (executeSetLpAdminBatch s host sender admin startAfter limit)
  | .setPairPaused pair paused => passed s (executeSetPairPaused s host sender pair paused)
  | .sweepPair pair token recipient =>
      passed s (executeSweepPair s host sender pair token recipient)
  | .blacklistWallet address => setting (executeBlacklistWallet s host sender address)
  | .unblacklistWallet address => setting (executeUnblacklistWallet s host sender address)
  | .blacklistToken token => setting (executeBlacklistToken s host sender token)
  | .unblacklistToken token => setting (executeUnblacklistToken s host sender token)
  | .blacklistPair pair => setting (executeBlacklistPair s host sender pair)
  | .unblacklistPair pair => setting (executeUnblacklistPair s host sender pair)
  | .refreshPairAssetCodeIds pair =>
      passed s (executeRefreshPairAssetCodeIds s host sender pair)
  | .refreshPairAssetCodeIdsBatch startAfter limit =>
      passed s (executeRefreshPairAssetCodeIdsBatch s sender startAfter limit)

section Queries

/-- The position of the pair to start after, if one is given. -/
def startIndex (startAfter : Option (AssetInfo × AssetInfo)) :
    Except ContractError (Option ℕ) :=
  match startAfter with
  | some assets => some <$> orThrow (s.pairKeyIndex[pairKey assets]?)
      (.std "start_after pair not found in registry")
  | none => return none

/-- The entries of the index above a bound, in ascending order. -/
def indexRange (bound : Option ℕ) : List (ℕ × PairInfo) :=
  s.pairIndex.toList.filter fun entry => ∀ idx ∈ bound, idx < entry.1

def queryPairs (startAfter : Option (AssetInfo × AssetInfo)) (limit : Option ℕ) :
    Except ContractError (List PairInfo) := do
  let bound ← startIndex s startAfter
  return ((indexRange s bound).take (calcLimit limit)).map Prod.snd

end Queries

/-- `older` is the answer of the version check, which stores nothing that is modelled. -/
def migrate (older : Bool) : Except ContractError Storage := do
  ensure (older = true) (.std "Cannot migrate")
  (List.range s.pairCount).foldlM (fun s idx => do
    let info ← orThrow s.pairIndex[idx]? (.std "not found")
    return { s with
      pairKeyIndex := s.pairKeyIndex.insert (pairKey info.assetInfos) idx
      pairAddrRegistered := s.pairAddrRegistered.insert info.contractAddr true }) s

end Cl8yDex.Factory
