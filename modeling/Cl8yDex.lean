import Cl8yDex.Oracle
import Cl8yDex.FeeDiscount
import Cl8yDex.HookSettlement
import Cl8yDex.MaxSpread
import Cl8yDex.PoolMath
import Cl8yDex.OracleGrowth
import Cl8yDex.OracleIntegral
import Cl8yDex.Types
import Cl8yDex.Custody
import Cl8yDex.MatchWalk
import Cl8yDex.PlacementRules
import Cl8yDex.Pair
import Cl8yDex.Swap
import Cl8yDex.LimitOrders
import Cl8yDex.Liquidity
import Cl8yDex.Execute
import Cl8yDex.Effects
import Cl8yDex.MakerOps
import Cl8yDex.PlacementSpec
import Cl8yDex.PoolFacts
import Cl8yDex.SwapLegsSpec
import Cl8yDex.SettlementSpec
import Cl8yDex.DiscountSpec
import Cl8yDex.SwapPlanSpec
import Cl8yDex.SwapSpec
import Cl8yDex.QuoteParity
import Cl8yDex.LiquiditySpec
import Cl8yDex.ExecuteSpec
import Cl8yDex.Arrival
import Cl8yDex.PairRuns
import Cl8yDex.ProportionalShares
import Cl8yDex.PoolRuns
import Cl8yDex.ShareValue
import Cl8yDex.PriceCharts
import Cl8yDex.CommunityExecute
import Cl8yDex.TaxConservation
import Cl8yDex.RouterRotations
import Cl8yDex.OrderLife
import Cl8yDex.OrderCustody
import Cl8yDex.InsertHints
import Cl8yDex.BridgeEffects
import Cl8yDex.BridgeSupply
import Cl8yDex.BridgeLedger
import Cl8yDex.BridgeRuns
import Cl8yDex.BridgeAccounts
import Cl8yDex.DiscountEpochs
import Cl8yDex.FeePhase
import Cl8yDex.FeePhaseRuns
import Cl8yDex.FeeEvidence
import Cl8yDex.PollerRuns
import Cl8yDex.PollerSequence
import Cl8yDex.ReverseSearch
import Cl8yDex.SpreadAborts
import Cl8yDex.LadderExpansion
import Cl8yDex.ScanCap
import Cl8yDex.MatchAccounts
import Cl8yDex.Priority
import Cl8yDex.TradeThrough
import Cl8yDex.WalkVisits
import Cl8yDex.LiveOrders
import Cl8yDex.RestingOrders
import Cl8yDex.CleanPages
import Cl8yDex.LargerBudget
import Cl8yDex.BudgetMonotone
import Cl8yDex.PairAnswers
import Cl8yDex.Solvency
import Cl8yDex.GreedyReverse
import Cl8yDex.GreedySearch
import Cl8yDex.RouteTax
import Cl8yDex.RouteTaxInverse
import Cl8yDex.StableGroups
import Cl8yDex.ListingMerge
import Cl8yDex.HybridListing
import Cl8yDex.AmmLadder
import Cl8yDex.BreadthFirst
import Cl8yDex.RouteSearch
import Cl8yDex.RouteExact
import Cl8yDex.TaxPreview
import Cl8yDex.TokenSettings
import Cl8yDex.TokenCreation
import Cl8yDex.SinkDistribution
import Cl8yDex.SettingsKept
import Cl8yDex.SettingsRuns
import Cl8yDex.LocalLeg
import Cl8yDex.LocalHooks
import Cl8yDex.LocalPool
import Cl8yDex.LocalInverse
import Cl8yDex.RouteQuote
import Cl8yDex.BackwardChain
import Cl8yDex.RouteStages
import Cl8yDex.RouteHops
import Cl8yDex.RouteReverse
import Cl8yDex.StoredPair
import Cl8yDex.TokenPreview
import Cl8yDex.RouteLeastOffer
import Cl8yDex.DeadChecks
import Cl8yDex.MirroredRows
import Cl8yDex.LocalLegParity
import Cl8yDex.RoundedDeduction
import Cl8yDex.WrapperInverse
import Cl8yDex.TokenEvidence
import Cl8yDex.ProtocolRuns
import Cl8yDex.ActorVersions
import Cl8yDex.VersionSteps
import Cl8yDex.VersionRuns
import Cl8yDex.SupersededContexts
import Cl8yDex.TraderPositions
import Cl8yDex.SplitSales
import Cl8yDex.PositionAccounts
import Cl8yDex.CandleBuilder
import Cl8yDex.OpenHighLowClose
import Cl8yDex.CandleRows
import Cl8yDex.CandleStory
import Cl8yDex.OrderedTables
import Cl8yDex.RebuiltCandles
import Cl8yDex.PairFactory
import Cl8yDex.FactoryMessages
import Cl8yDex.PairRegistry
import Cl8yDex.RegistryPaging
import Cl8yDex.TreasuryBatches
import Cl8yDex.PoolEvents
import Cl8yDex.EventDeltas
import Cl8yDex.EventRuns
import Cl8yDex.FillCapacity
import Cl8yDex.HookFirst
import Cl8yDex.DiscountLookups
import Cl8yDex.DiscountRuns
import Cl8yDex.LpBurnHook
import Cl8yDex.LpBurnRuns
import Cl8yDex.DecimalText
import Cl8yDex.EventAmounts
import Cl8yDex.LifecycleParsers
import Cl8yDex.EventScans
import Cl8yDex.PairEmissions
import Cl8yDex.EmissionRows
import Cl8yDex.LifecycleDecoding
import Cl8yDex.WholeEventColumns
import Cl8yDex.ProviderPool
import Cl8yDex.ProviderRuns
import Cl8yDex.ProviderCircuit
import Cl8yDex.Interleaving
import Cl8yDex.BookSnapshot
import Cl8yDex.SnapshotJobs
import Cl8yDex.SnapshotRuns
import Cl8yDex.SnapshotCoherence
import Cl8yDex.SnapshotMirrors
import Cl8yDex.AutoLp
import Cl8yDex.AutoLpRuns
import Cl8yDex.AutoLpSkim
import Cl8yDex.PairGovernance
import Cl8yDex.RouteSettlement
import Cl8yDex.DeployedRouters
import Cl8yDex.SwapOrdinals
import Cl8yDex.LifecycleTables
import Cl8yDex.LifecycleMirror
