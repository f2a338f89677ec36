import JumpscaleX.Library.OrderedMap
import JumpscaleX.Library.UniqueMap
import JumpscaleX.Library.Stateful
import JumpscaleX.Value
import JumpscaleX.Schema
import JumpscaleX.JSXObject
import JumpscaleX.StorClient
import JumpscaleX.BCDBModelIndex
import JumpscaleX.BCDB
import JumpscaleX.BCDBModel
import JumpscaleX.Maintenance
import JumpscaleX.Effects
import JumpscaleX.Reading
import JumpscaleX.Reindex
import JumpscaleX.Frames
import JumpscaleX.Conflicts
import JumpscaleX.Agreement
import JumpscaleX.RebuildSteps
import JumpscaleX.AgreementRuns
import JumpscaleX.Rebuild
import JumpscaleX.RebuildTotal
import JumpscaleX.Evolution
import JumpscaleX.Namespace
import JumpscaleX.UniqueSave
import JumpscaleX.ReadOnly
import JumpscaleX.Types
import JumpscaleX.Library.Outcomes
import JumpscaleX.DBSQLite
import JumpscaleX.RDBClient
import JumpscaleX.StorEquivalence
import JumpscaleX.Iteration
import JumpscaleX.IdAllocation
import JumpscaleX.IdHistory
import JumpscaleX.Library.Runs
import JumpscaleX.JsonType
import JumpscaleX.MyJobs
import JumpscaleX.MyWorkerProcess
import JumpscaleX.MyJobsFactory
import JumpscaleX.Library.Custody
import JumpscaleX.JobPlaces
import JumpscaleX.JobCustody
import JumpscaleX.JobsKept
import JumpscaleX.JobProgress
import JumpscaleX.JobCopies
import JumpscaleX.JobMessages
import JumpscaleX.JobLedger
import JumpscaleX.JobEndings
import JumpscaleX.Library.Precedence
import JumpscaleX.JobScans
import JumpscaleX.JobOrder
import JumpscaleX.WaitQueues
import JumpscaleX.ReturnQueues
import JumpscaleX.SchemaUpdate
import JumpscaleX.Library.Convergence
import JumpscaleX.GunUtils
import JumpscaleX.GunConvergence
import JumpscaleX.Library.TextBytes
import JumpscaleX.Library.Resp
import JumpscaleX.RedisResponseWriter
import JumpscaleX.ReplyFraming
import JumpscaleX.RedisServer
import JumpscaleX.RequestReplies
import JumpscaleX.Library.Worklist
import JumpscaleX.ACL
import JumpscaleX.HeldRights
import JumpscaleX.RightsUpdate
import JumpscaleX.CircleClosure
import JumpscaleX.AccessChecks
import JumpscaleX.ObjectAcls
import JumpscaleX.Triggers
import JumpscaleX.TriggerRounds
import JumpscaleX.TriggerEffects
import JumpscaleX.TriggersOfSet
import JumpscaleX.TriggersOfDelete
import JumpscaleX.TriggersOfNew
import JumpscaleX.TriggerDiscipline
import JumpscaleX.Library.Separated
import JumpscaleX.VFSPaths
import JumpscaleX.VFSKeys
import JumpscaleX.VFSDirectories
import JumpscaleX.LogHandler
import JumpscaleX.LogConservation
import JumpscaleX.LoggedOnce
import JumpscaleX.LoggerClient
import JumpscaleX.Library.Selection
import JumpscaleX.LogWalk
import JumpscaleX.LogTail
import JumpscaleX.LogFollowing
import JumpscaleX.EncryptorTools
import JumpscaleX.ObjectCopies
import JumpscaleX.MessageRoundTrip
import JumpscaleX.Library.IdealNacl
import JumpscaleX.MeEncryptor
import JumpscaleX.SignedExchange
import JumpscaleX.Payloads
import JumpscaleX.StorageKeys
import JumpscaleX.FileLock
import JumpscaleX.FileLockExclusion
import JumpscaleX.RedisQueue
import JumpscaleX.RedisQueueFifo
import JumpscaleX.Library.Lines
import JumpscaleX.HostFile
import JumpscaleX.HostEntries
import JumpscaleX.IndexRebuild
import JumpscaleX.AlertHandler
import JumpscaleX.AlertLedger
import JumpscaleX.ChatFactory
import JumpscaleX.ChatIsolation
import JumpscaleX.ChatBot
import JumpscaleX.ChatSteps
import JumpscaleX.GedisHandler
import JumpscaleX.GedisSession
import JumpscaleX.GedisReplies
import JumpscaleX.GedisFormats
import JumpscaleX.GunConflict
import JumpscaleX.Resolvers
import JumpscaleX.IndexColumns
import JumpscaleX.ModelsAdd
import JumpscaleX.Library.JointTests
import JumpscaleX.Find
import JumpscaleX.SetDynamic
import JumpscaleX.MigrateModels
import JumpscaleX.Migration
import JumpscaleX.MigrationRuns
import JumpscaleX.GunSearch
import JumpscaleX.Library.Words
import JumpscaleX.HashPair
import JumpscaleX.EnumerationType
import JumpscaleX.PyNumbers
import JumpscaleX.Library.Rounding
import JumpscaleX.Durations
import JumpscaleX.DeltaTimes
import JumpscaleX.CacheCategory
import JumpscaleX.CacheMaps
import JumpscaleX.Library.Templates
import JumpscaleX.ArgsReplace
import JumpscaleX.ExactTemplates
import JumpscaleX.Library.Patterns
import JumpscaleX.Scalars
import JumpscaleX.ScalarTexts
import JumpscaleX.ScalarsKept
import JumpscaleX.Dedent
import JumpscaleX.Secrets
import JumpscaleX.DNSResolver
import JumpscaleX.DocLookups
import JumpscaleX.ProfileRuns
import JumpscaleX.Library.LazyGroups
import JumpscaleX.GitUrls
import JumpscaleX.GitUrlForms
import JumpscaleX.GitUrlParts
import JumpscaleX.RepoLinks
import JumpscaleX.RepoLinkForms
import JumpscaleX.RepoLinkParts
import JumpscaleX.ConfigFiles
import JumpscaleX.ConfigRounds
import JumpscaleX.DictMerge
import JumpscaleX.TextBlocks
import JumpscaleX.TextBlockRuns
import JumpscaleX.MacroArgs
import JumpscaleX.MacroPieces
import JumpscaleX.MacroCalls
import JumpscaleX.FSPaths
import JumpscaleX.FSPathParts
import JumpscaleX.FSPathDots
import JumpscaleX.PropertyNames
import JumpscaleX.SchemaTexts
import JumpscaleX.WireNames
import JumpscaleX.FSDisk
import JumpscaleX.FSListing
import JumpscaleX.ListingWays
import JumpscaleX.ListingRuns
import JumpscaleX.ListingExact
import JumpscaleX.MergeRuns
import JumpscaleX.FSWalker
import JumpscaleX.WalkRuns
import JumpscaleX.SchemaRegistry
import JumpscaleX.RegistryRuns
