import Santa.Library.Runs
import Santa.Library.RecentWindow
import Santa.ProcessTree.Tree
import Santa.ProcessTree.Timestamps
import Santa.ProcessTree.Tokens
import Santa.Library.AgingSet
import Santa.Sync.CommandNonces
import Santa.Sync.SyncdQueue
import Santa.Common.RingBuffer
import Santa.Notification.NotificationQueue
import Santa.Library.KeyedRows
import Santa.Library.Batches
import Santa.Library.Words
import Santa.Library.Histories
import Santa.Library.Deltas
import Santa.Library.UniqueKey
import Santa.Common.SantaCache
import Santa.Common.SantaCacheThreads
import Santa.Common.SantaSetCache
import Santa.Auth.AuthResultCache
import Santa.Rules.Rule
import Santa.Rules.RuleTable
import Santa.Rules.RuleAddition
import Santa.Rules.DecisionCacheFlush
import Santa.Rules.RulesHash
import Santa.Rules.TransitiveRules
import Santa.Library.Queries
import Santa.Policy.CelEvaluator
import Santa.Policy.PolicyProcessor
import Santa.Auth.ExecutionController
import Santa.Auth.ExecutionRuns
import Santa.Auth.CachedAnswers
import Santa.Auth.ESResultCache
import Santa.Auth.HoldAndAsk
import Santa.Auth.Placeholders
import Santa.Policy.Cacheability
import Santa.FileAccess.PathTargets
import Santa.FileAccess.FAAPolicyProcessor
import Santa.FileAccess.DataFileAccessAuthorizer
import Santa.FileAccess.ReadsCache
import Santa.FileAccess.WatchItems
import Santa.FileAccess.Muting
import Santa.FileAccess.Reloads
import Santa.FileAccess.ProcessPolicies
import Santa.Common.Configurator
import Santa.Sync.SettingsRestart
import Santa.Sync.Preflight
import Santa.Sync.SettingsDelivery
import Santa.Sync.RuleDownload
import Santa.Rules.HashMemo
import Santa.Rules.Migration
import Santa.Sync.EventUpload
import Santa.Sync.SyncManager
import Santa.Sync.CleanRequests
import Santa.TemporaryMonitorMode.Locks
import Santa.TemporaryMonitorMode.Session
import Santa.TemporaryMonitorMode.Policy
import Santa.TemporaryMonitorMode.AuditTrail
import Santa.Auth.CompilerMarks
import Santa.Commands.KillingMachine
import Santa.Sync.SyncPermits
import Santa.Sync.PushConnection
import Santa.Rules.NormalForms
import Santa.Rules.RuleExport
import Santa.Rules.StoredRules
import Santa.ProcessTree.Frames
import Santa.ProcessTree.Removal
import Santa.ProcessTree.Clients
import Santa.Logs.SpoolWriter
import Santa.Logs.TelemetryExport
import Santa.Logs.ExportPasses
import Santa.FileAccess.CombinedDecisions
import Santa.Policy.CelPolicies
import Santa.Rules.StaticRules
import Santa.FileAccess.ProcessMatching
import Santa.Common.PrefixTree
import Santa.FileAccess.PathCoverage
import Santa.Auth.Deadlines
import Santa.Auth.StandaloneRules
import Santa.FileAccess.RuleConfig
import Santa.Sync.FileAccessRules
import Santa.Library.KeyedArchive
import Santa.Library.Inserts
import Santa.Events.StoredEvents
import Santa.Events.EventTable
import Santa.FileAccess.ProcessFileAccessAuthorizer
import Santa.Policy.CelResults
import Santa.Auth.TamperResistance
import Santa.Events.RateLimiter
import Santa.Library.MachineWords
import Santa.Events.DropCounts
import Santa.Library.Simulations
import Santa.Common.SantaCacheBuckets
import Santa.Common.SystemResources
import Santa.TemporaryMonitorMode.ModeTransitions
import Santa.TemporaryMonitorMode.TimerDeadline
import Santa.Library.Doubles
import Santa.Auth.Budgets
import Santa.FileAccess.CertificateHashes
import Santa.Common.SharedSets
import Santa.Library.Frames
import Santa.Logs.StreamFrames
import Santa.Logs.SanitizableString
import Santa.Logs.LogMessages
import Santa.Logs.BasicString
import Santa.Library.Vectors
import Santa.Logs.FileWriter
import Santa.Rules.FileAccessRuleChecks
import Santa.Logs.SpoolRecovery
import Santa.Logs.SpoolSpace
import Santa.Sync.MultipartUpload
import Santa.Logs.ZstdOutputStream
import Santa.Sync.UnblockNotifications
import Santa.Rules.RuleEquality
import Santa.Library.Flags
import Santa.Devices.RemountFlags
import Santa.Common.ObjectIdentifiers
import Santa.ProcessTree.WindowAccesses
import Santa.Common.PrefixTreeNodes
import Santa.Common.PrefixTreeMap
import Santa.Devices.StartupTasks
import Santa.Common.MachHeaders
import Santa.Library.FileGlob
import Santa.Common.Glob
import Santa.Notification.NotificationManager
import Santa.Notification.PromptedWindows
import Santa.Notification.NotificationDrain
import Santa.Sync.SyncStage
import Santa.Library.Replacing
import Santa.Common.BlockMessage
import Santa.ProcessTree.Originators
import Santa.ProcessTree.Backfill
import Santa.Library.Tallies
import Santa.Events.MetricCounts
import Santa.Events.BundleService
import Santa.Library.Forests
import Santa.Library.Delimited
import Santa.Library.Records
import Santa.ProcessTree.ProcessArguments
import Santa.Library.Walks
import Santa.Sync.ClientIdentity
import Santa.Common.XPCConnection
import Santa.Commands.RuleBackup
