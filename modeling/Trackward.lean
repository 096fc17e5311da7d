import Trackward.Lib.Admission
import Trackward.Lib.BackLinks
import Trackward.Lib.CheckThenInsert
import Trackward.Lib.Collisions
import Trackward.Lib.ComparisonOrders
import Trackward.Lib.DatabaseParts
import Trackward.Lib.Growth
import Trackward.Lib.HashChain
import Trackward.Lib.Hexadecimal
import Trackward.Lib.KeyedLists
import Trackward.Lib.LockWaits
import Trackward.Lib.Logs
import Trackward.Lib.LossyUtf8
import Trackward.Lib.MerkleRecursion
import Trackward.Lib.MerkleRepeats
import Trackward.Lib.MerkleTree
import Trackward.Lib.Octets
import Trackward.Lib.Outcomes
import Trackward.Lib.Places
import Trackward.Lib.PrefixCodes
import Trackward.Lib.Programs
import Trackward.Lib.Progress
import Trackward.Lib.Readers
import Trackward.Lib.Rfc3339
import Trackward.Lib.Runs
import Trackward.Lib.SeparatedTexts
import Trackward.Lib.Sessions
import Trackward.Lib.Sha256
import Trackward.Lib.Snapshots
import Trackward.Lib.Substitution
import Trackward.Lib.Tables
import Trackward.Lib.TextOrders
import Trackward.Lib.Traces
import Trackward.Lib.Transactions
import Trackward.Lib.Windows
import Trackward.ChainCore.CanonicalJson
import Trackward.ChainCore.Chain
import Trackward.ChainCore.Chrono
import Trackward.ChainCore.Encode
import Trackward.ChainCore.Jcs
import Trackward.ChainCore.JsonGrammar
import Trackward.ChainCore.JsonNumerals
import Trackward.ChainCore.JsonParser
import Trackward.ChainCore.JsonReader
import Trackward.ChainCore.JsonSoundness
import Trackward.ChainCore.JsonTexts
import Trackward.ChainCore.JsonValue
import Trackward.ChainCore.LeafLists
import Trackward.ChainCore.Merkle
import Trackward.ChainCore.MerkleLoops
import Trackward.ChainCore.PlainTexts
import Trackward.ChainCore.SerdeJson
import Trackward.ChainCore.SerdeTexts
import Trackward.ChainCore.UuidTexts
import Trackward.Verifier.Anchor
import Trackward.Verifier.Bundle
import Trackward.Verifier.Reports
import Trackward.Ledger.Actor
import Trackward.Ledger.AnchorCover
import Trackward.Ledger.AnchorDocuments
import Trackward.Ledger.AnchorManifests
import Trackward.Ledger.AnchorRaces
import Trackward.Ledger.AnchorRetries
import Trackward.Ledger.AnchorWindows
import Trackward.Ledger.Anchoring
import Trackward.Ledger.Answers
import Trackward.Ledger.Artifacts
import Trackward.Ledger.AuditableAnchors
import Trackward.Ledger.BrokenUploads
import Trackward.Ledger.CaseDossiers
import Trackward.Ledger.Chain
import Trackward.Ledger.ChainOrder
import Trackward.Ledger.Concurrency
import Trackward.Ledger.Deadlocks
import Trackward.Ledger.DossierLeaves
import Trackward.Ledger.DossierReads
import Trackward.Ledger.Dossiers
import Trackward.Ledger.EventSequence
import Trackward.Ledger.ExportBundles
import Trackward.Ledger.ExportHistories
import Trackward.Ledger.Migrations
import Trackward.Ledger.Models
import Trackward.Ledger.Recompute
import Trackward.Ledger.Records
import Trackward.Ledger.Routes
import Trackward.Ledger.RowTables
import Trackward.Ledger.Schema
import Trackward.Ledger.SideEffects
import Trackward.Ledger.Timestamps
import Trackward.Ledger.VersionAnswers
import Trackward.Ledger.VersionRegistry
import Trackward.Ledger.WriteOutcomes
import Trackward.Ledger.Writes
import Trackward.Gateway.ApprovalAgreement
import Trackward.Gateway.ApprovalCalls
import Trackward.Gateway.ApprovalChannels
import Trackward.Gateway.ApprovalEvents
import Trackward.Gateway.ApprovalHandover
import Trackward.Gateway.Boot
import Trackward.Gateway.BoundRuns
import Trackward.Gateway.BoundVersions
import Trackward.Gateway.Calls
import Trackward.Gateway.CommitOrder
import Trackward.Gateway.Credentials
import Trackward.Gateway.DecideCalls
import Trackward.Gateway.DeployedLedger
import Trackward.Gateway.Deployment
import Trackward.Gateway.DurableRecords
import Trackward.Gateway.Exchanges
import Trackward.Gateway.Gates
import Trackward.Gateway.Gateways
import Trackward.Gateway.GenuineApprovals
import Trackward.Gateway.Handlers
import Trackward.Gateway.Histories
import Trackward.Gateway.LostDecisions
import Trackward.Gateway.OrphanedApprovals
import Trackward.Gateway.ProxyRecords
import Trackward.Gateway.ProxyStories
import Trackward.Gateway.Redirects
import Trackward.Gateway.Refinement
import Trackward.Gateway.RefusedDecisions
import Trackward.Gateway.Registry
import Trackward.Gateway.RegistryHashes
import Trackward.Gateway.Retrieval
import Trackward.Gateway.RunProvenance
import Trackward.Gateway.SideEffectRecords
import Trackward.Gateway.WireRecords
import Trackward.ModelProxy.Coercion
import Trackward.ModelProxy.PythonTexts
import Trackward.ModelProxy.PythonValue
import Trackward.ModelProxy.Recording
import Trackward.ModelProxy.RecursionLimits
import Trackward.ModelProxy.ToSafe
