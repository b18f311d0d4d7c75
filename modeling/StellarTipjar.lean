import StellarTipjar.Lib.Store
import StellarTipjar.Lib.Int128
import StellarTipjar.Lib.Trace
import StellarTipjar.Lib.Mask
import StellarTipjar.Soroban.Host
import StellarTipjar.Soroban.Wp
import StellarTipjar.TipJar.Types
import StellarTipjar.TipJar.Contract
import StellarTipjar.TipJar.Views
import StellarTipjar.TipJar.LazyMigration
import StellarTipjar.TipJar.System
import StellarTipjar.TipJar.Governance
import StellarTipjar.TipJar.Escrow
import StellarTipjar.TipJar.Effects
import StellarTipjar.Soroban.StandardToken
import StellarTipjar.TipJar.Upgrade
import StellarTipjar.TipJar.Handover
import StellarTipjar.TipJar.Payout
import StellarTipjar.TipJar.Accounting
import StellarTipjar.TipJar.Progress
import StellarTipjar.TipJar.Solvency
import StellarTipjar.TipJar.Authority
import StellarTipjar.Soroban.Relational
import StellarTipjar.TipJar.EagerMigration
import StellarTipjar.TipJar.Unobservable
import StellarTipjar.TipJar.Operators
import StellarTipjar.TipJar.Breaker
import StellarTipjar.Soroban.Footprint
import StellarTipjar.Soroban.Reentrancy
import StellarTipjar.TipJar.Footprints
import StellarTipjar.TipJar.AdminPause
import StellarTipjar.TipJar.EventLog
import StellarTipjar.TipJar.Reentrancy
import StellarTipjar.Soroban.TimeToLive
import StellarTipjar.TipJar.TimeToLive
import StellarTipjar.TipJar.V1Interface
import StellarTipjar.LimitOrders.Contract
import StellarTipjar.LimitOrders.Effects
import StellarTipjar.LimitOrders.Solvency
import StellarTipjar.LimitOrders.Lifecycle
import StellarTipjar.Derivatives.Contract
import StellarTipjar.Derivatives.Effects
import StellarTipjar.Derivatives.Book
import StellarTipjar.Derivatives.Conservation
import StellarTipjar.Derivatives.Settlement
import StellarTipjar.RiskManagement.Contract
import StellarTipjar.RiskManagement.Effects
import StellarTipjar.RiskManagement.Exposure
import StellarTipjar.Indexer.EventParser
import StellarTipjar.Indexer.Decoding
import StellarTipjar.Indexer.EventListener
import StellarTipjar.Indexer.Delivery
import StellarTipjar.Indexer.Ingestion
import StellarTipjar.Indexer.Replay
import StellarTipjar.Indexer.Shapes
import StellarTipjar.Indexer.EventProcessor
import StellarTipjar.Indexer.EventStorage
import StellarTipjar.Migrate.Types
import StellarTipjar.Migrate.Export
import StellarTipjar.Migrate.Verify
import StellarTipjar.Migrate.Import
import StellarTipjar.Migrate.Backup
import StellarTipjar.Migrate.Rollback
import StellarTipjar.Migrate.Landing
import StellarTipjar.Migrate.Completeness
import StellarTipjar.Migrate.RoundTrip
import StellarTipjar.Migrate.FailClosed
import StellarTipjar.Lib.JsonText
import StellarTipjar.Migrate.Checksum
import StellarTipjar.StateBackup.Exporter
import StellarTipjar.StateBackup.Importer
import StellarTipjar.StateBackup.Integrity
import StellarTipjar.Lib.Remote
import StellarTipjar.Sdk.Network
import StellarTipjar.StateBackup.Scheduler
import StellarTipjar.Sdk.TipJarContract
import StellarTipjar.Sdk.OnePerCall
import StellarTipjar.Sdk.Events
import StellarTipjar.TipJar.V1Pause
import StellarTipjar.TipJar.GuardianWindow
import StellarTipjar.TipJar.Allowlist
import StellarTipjar.TipJar.LegacyToken
import StellarTipjar.LimitOrders.Payout
import StellarTipjar.Derivatives.PlacementOrder
import StellarTipjar.RiskManagement.Score
import StellarTipjar.Arbitrage.Contract
import StellarTipjar.Arbitrage.Effects
import StellarTipjar.Arbitrage.Agreement
import StellarTipjar.Migrate.Transform
import StellarTipjar.Lib.Serde
import StellarTipjar.Migrate.MirrorTypes
import StellarTipjar.TipJar.FeeSplitting
import StellarTipjar.Migrate.RuleSelection
import StellarTipjar.Lib.SlidingWindow
import StellarTipjar.Security.RateLimiter
import StellarTipjar.Security.CircuitBreaker
import StellarTipjar.Security.Monitor
import StellarTipjar.GasEstimator.StorageRent
import StellarTipjar.TipJar.V2Fixture
import StellarTipjar.TipJar.AcrossUpgrade
import StellarTipjar.TipJar.Liveness
import StellarTipjar.Indexer.Api
import StellarTipjar.Indexer.EndToEnd
import StellarTipjar.Lib.Channel
import StellarTipjar.Lib.StoreSum
import StellarTipjar.Soroban.Checked
import StellarTipjar.Soroban.Payments
import StellarTipjar.TipJarLegacy.Types
import StellarTipjar.TipJarLegacy.Contract
import StellarTipjar.TipJarLegacy.Effects
import StellarTipjar.TipJarLegacy.Specs
import StellarTipjar.TipJarLegacy.Channels
import StellarTipjar.TipJarLegacy.Tips
import StellarTipjar.TipJarLegacy.Streams
import StellarTipjar.TipJarLegacy.Escrow
import StellarTipjar.TipJarLegacy.MetaTx
import StellarTipjar.TipJarLegacy.Exit
