import FactoryServer.JsonValue
import FactoryServer.TournamentAccess
import FactoryServer.RequestIdentity
import FactoryServer.AudienceEnforcement
import FactoryServer.ProvisionerOwnership
import FactoryServer.AssignmentControl
import FactoryServer.TournamentTree
import FactoryServer.ScopedGrants
import FactoryServer.KeyedTables
import FactoryServer.InsertionMaps
import FactoryServer.KeyedTotals
import FactoryServer.ReadModelRows
import FactoryServer.ProjectionDeltas
import FactoryServer.IntentGroups
import FactoryServer.ProjectionLogs
import FactoryServer.DeletedMatchUps
import FactoryServer.RebuiltRows
import FactoryServer.BatchDeletes
import FactoryServer.SharedIds
import FactoryServer.AsyncProgram
import FactoryServer.SqlTransaction
import FactoryServer.CommandTransaction
import FactoryServer.CommandReceipts
import FactoryServer.CommandProtocol
import FactoryServer.CommandInvariant
import FactoryServer.ExactlyOnce
import FactoryServer.CommandSession
import FactoryServer.CommandAtomicity
import FactoryServer.CommandCommit
import FactoryServer.StorageTables
import FactoryServer.TournamentStorage
import FactoryServer.ExecutionQueue
import FactoryServer.StorageFrames
import FactoryServer.StorageRegime
import FactoryServer.CallbackOutcomes
import FactoryServer.BorrowedConnection
import FactoryServer.DurableSave
import FactoryServer.PooledStatements
import FactoryServer.PooledConnection
import FactoryServer.PooledSave
import FactoryServer.SaveFailures
import FactoryServer.SeedReads
import FactoryServer.SerialChains
import FactoryServer.FailureCounters
import FactoryServer.LockedWrites
import FactoryServer.ConcurrentWrites
import FactoryServer.SaveAuthority
import FactoryServer.SaveChecks
import FactoryServer.LockDiscipline
import FactoryServer.ConditionalSaves
import FactoryServer.VersionChains
import FactoryServer.StampChains
import FactoryServer.RecordShards
import FactoryServer.IntegrityScans
import FactoryServer.MergeCursor
import FactoryServer.CalendarScopes
import FactoryServer.BroadcastOrder
import FactoryServer.MutationMirror
import FactoryServer.TextCodes
import FactoryServer.JsonText
import FactoryServer.SortedJson
import FactoryServer.ParticipationIndex
import FactoryServer.IndexFingerprints
import FactoryServer.DrawRestores
import FactoryServer.RegistrationAcceptance
import FactoryServer.AcceptedEntries
import FactoryServer.AcceptedStamps
import FactoryServer.CalendarRows
import FactoryServer.CalendarEntries
import FactoryServer.CalendarRuns
import FactoryServer.FreshKeys
import FactoryServer.AcceptancePlans
import FactoryServer.AcceptanceRaces
import FactoryServer.MutationGate
import FactoryServer.TournamentWrites
import FactoryServer.SubsidiaryScope
import FactoryServer.QueueGating
import FactoryServer.ProviderIsolation
import FactoryServer.PrivateReads
import FactoryServer.ResponseCaches
import FactoryServer.CachedReads
import FactoryServer.QueueEffects
import FactoryServer.AuditLog
import FactoryServer.AuditAgreement
import FactoryServer.MutexSafety
import FactoryServer.OwnerFence
import FactoryServer.CurrentReads
import FactoryServer.StaleFills
import FactoryServer.RowOrigins
import FactoryServer.RefreshedSlots
import FactoryServer.RowFrames
import FactoryServer.RebuildIntents
import FactoryServer.TableBlocks
import FactoryServer.OwnedBlocks
import FactoryServer.RebuildLogs
import FactoryServer.SnapshotSpans
import FactoryServer.ReconciledRows
import FactoryServer.TournamentFrames
import FactoryServer.RowSessions
import FactoryServer.FacilityFanOut
import FactoryServer.FencedLogs
import FactoryServer.ProjectionOutbox
import FactoryServer.FencedSpans
import FactoryServer.FindingsQueue
import FactoryServer.RefreshTokens
import FactoryServer.TokenFamilies
import FactoryServer.LoadProfile
import FactoryServer.LoadAccounts
import FactoryServer.MigrationRunner
import FactoryServer.MigrationOrder
import FactoryServer.MigrationLocks
import FactoryServer.DeferredRequests
import FactoryServer.RequestDrains
import FactoryServer.SsoHandoff
import FactoryServer.SsoReach
import FactoryServer.UserRows
import FactoryServer.UserCopies
import FactoryServer.UserFrames
import FactoryServer.ParticipantDocuments
import FactoryServer.FreshDocuments
import FactoryServer.PublicChannel
import FactoryServer.EngineState
import FactoryServer.LastAdministrator
import FactoryServer.GrantCoverage
import FactoryServer.CommandFingerprints
import FactoryServer.IndexedDraws
import FactoryServer.ScanChains
import FactoryServer.ScanOrder
import FactoryServer.OperatorAttribution
import FactoryServer.IdentityClaims
import FactoryServer.DeletionGate
import FactoryServer.PublicRouting
import FactoryServer.NoticeRetention
import FactoryServer.Utf8Decoding
import FactoryServer.JsonReading
import FactoryServer.ServerSentEvents
import FactoryServer.StreamReading
import FactoryServer.StreamEvents
import FactoryServer.ProjectedViews
import FactoryServer.ViewAgreement
import FactoryServer.PrivacyPins
import FactoryServer.PinnedPolicies
import FactoryServer.SenderIndependence
import FactoryServer.LinkedPeers
import FactoryServer.CoordinationViews
import FactoryServer.HeldRows
