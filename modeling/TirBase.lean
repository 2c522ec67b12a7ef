import TirBase.ApplyGate
import TirBase.BandwidthFloors
import TirBase.BeaconMonitor
import TirBase.BleChunks
import TirBase.BoundedGroups
import TirBase.BreadthFirst
import TirBase.BuildAgreement
import TirBase.CapabilityManager
import TirBase.CausalCompleteness
import TirBase.CausalHistories
import TirBase.CausalOrder
import TirBase.CausalSync
import TirBase.ChangeFeeds
import TirBase.CloudDelivery
import TirBase.CloudLedger
import TirBase.CloudSync
import TirBase.CompactionScope
import TirBase.CompositeMerge
import TirBase.CorruptionWindows
import TirBase.CrossBuildConvergence
import TirBase.DagAgreement
import TirBase.DagAuthenticity
import TirBase.DecisionRestart
import TirBase.Descendants
import TirBase.DeviceIdentity
import TirBase.DocumentHistories
import TirBase.DocumentLists
import TirBase.DocumentRestart
import TirBase.DurabilityRuns
import TirBase.EngineMesh
import TirBase.ExpiringTables
import TirBase.FiniteRelations
import TirBase.FragmentInterleaving
import TirBase.FragmentLimits
import TirBase.HostFeed
import TirBase.InboundDurability
import TirBase.InboundPipeline
import TirBase.IncidentEndings
import TirBase.IncidentMatching
import TirBase.IncidentResolution
import TirBase.JsonTexts
import TirBase.KahnBatches
import TirBase.KahnRuns
import TirBase.KeptLiterals
import TirBase.LamportClock
import TirBase.LateArrivals
import TirBase.LeastRecentlyUsed
import TirBase.LedgerAcks
import TirBase.LedgerAgreement
import TirBase.LedgerSchemas
import TirBase.ListOverrides
import TirBase.ListUnions
import TirBase.LittleEndian
import TirBase.LogLaws
import TirBase.LowClearing
import TirBase.MapRuns
import TirBase.MeshRuns
import TirBase.MigrationRuns
import TirBase.NativeEndings
import TirBase.NoiseSessions
import TirBase.OutboundEpochs
import TirBase.OverrideSafety
import TirBase.PeerTable
import TirBase.PegRules
import TirBase.PositionalCodes
import TirBase.PrintedFields
import TirBase.PrintedItems
import TirBase.PrintedTables
import TirBase.PrinterIdentity
import TirBase.PublishedDelivery
import TirBase.QuarantineRelease
import TirBase.QueueOrder
import TirBase.QuorumTracker
import TirBase.ReactionTags
import TirBase.ReadSchemas
import TirBase.ReceiptQuorums
import TirBase.ReceiptSoundness
import TirBase.ReceiptTampering
import TirBase.RejectionLog
import TirBase.RelayRoutes
import TirBase.RepeatedCertification
import TirBase.ReplicatedValues
import TirBase.RevocationGossip
import TirBase.RevocationOrders
import TirBase.RevocationPrediction
import TirBase.RevocationRebroadcast
import TirBase.RevocationSoundness
import TirBase.RevocationTaint
import TirBase.RevokedTransforms
import TirBase.SandboxAgreement
import TirBase.SaturateLeases
import TirBase.SaturateMode
import TirBase.SaturatePreemption
import TirBase.SaturatingTransport
import TirBase.SchedulerRuns
import TirBase.SchemaClocks
import TirBase.SchemaHashes
import TirBase.SchemaIdentity
import TirBase.SchemaOrder
import TirBase.SchemaRoundTrip
import TirBase.SchemaRules
import TirBase.SchemaText
import TirBase.SessionRuns
import TirBase.SideCarRuns
import TirBase.SignedTransforms
import TirBase.SpelledSchemas
import TirBase.StableSorts
import TirBase.StoreMaps
import TirBase.StoreQueries
import TirBase.TableConvergence
import TirBase.TaintAgreement
import TirBase.ThresholdSigners
import TirBase.Tier1Soundness
import TirBase.TierEvents
import TirBase.TierFacts
import TirBase.TokenEntitlement
import TirBase.TokenExpiry
import TirBase.ValueReplication
import TirBase.WasmEndings
import TirBase.WasmIncidents
import TirBase.WasmLocalStore
import TirBase.WasmWrites
import TirBase.WriteAgreement
import TirBase.WriteAtomicity
