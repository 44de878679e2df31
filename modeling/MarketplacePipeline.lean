import MarketplacePipeline.Algorithm.Schedule
import MarketplacePipeline.Algorithm.KeepFirst
import MarketplacePipeline.Algorithm.OnceOnly
import MarketplacePipeline.Python.Error
import MarketplacePipeline.Collector.OzonCatalogCollector
import MarketplacePipeline.Collector.Equiv.OzonCatalogCollector
import MarketplacePipeline.Crm.IdempotencyPolicy
import MarketplacePipeline.Crm.Equiv.IdempotencyPolicy
import MarketplacePipeline.Crm.AmoCrmGateway
import MarketplacePipeline.Crm.Equiv.AmoCrmGateway
import MarketplacePipeline.Crm.CallHistory
import MarketplacePipeline.Crm.Equiv.CreateTask
import MarketplacePipeline.Crm.Equiv.CallHistory
import MarketplacePipeline.Crm.Equiv.RemoteTask
import MarketplacePipeline.Crm.CreateTaskCalls
import MarketplacePipeline.Crm.Equiv.CreateTaskCalls
import MarketplacePipeline.Jobs.JobTable
import MarketplacePipeline.Jobs.JobIdempotencyStore
import MarketplacePipeline.Jobs.SubmitPipelineJob
import MarketplacePipeline.Jobs.Executor
import MarketplacePipeline.Jobs.Equiv.Executor
import MarketplacePipeline.Jobs.Equiv.Deliveries
import MarketplacePipeline.Jobs.Equiv.SubmitPipelineJob
import MarketplacePipeline.Jobs.Equiv.SubmitRequests
import MarketplacePipeline.Api.RateLimit
import MarketplacePipeline.Api.Equiv.RateLimit
import MarketplacePipeline.Api.Equiv.ConcurrentAllow
import MarketplacePipeline.Jobs.Equiv.JobRunner
import MarketplacePipeline.Algorithm.Latest
import MarketplacePipeline.Jobs.SubmitHistory
import MarketplacePipeline.Jobs.Equiv.SubmitHistory
import MarketplacePipeline.Io.Files
import MarketplacePipeline.Io.AtomicWrite
import MarketplacePipeline.Io.Equiv.AtomicWrite
import MarketplacePipeline.Crm.FileIdempotencyStore
import MarketplacePipeline.Crm.Equiv.FileIdempotencyStore
import MarketplacePipeline.Crm.Equiv.FileStoreMap
import MarketplacePipeline.Crm.Equiv.FileStoreEntries
import MarketplacePipeline.Http.UrlSplit
import MarketplacePipeline.Api.ApiKeyAuth
import MarketplacePipeline.Api.Equiv.ApiKeyAuth
import MarketplacePipeline.Algorithm.TopByKey
import MarketplacePipeline.Pipeline.CrmTaskFactory
import MarketplacePipeline.Crm.Equiv.Rerun
import MarketplacePipeline.Pipeline.Equiv.CrmTaskFactory
import MarketplacePipeline.Algorithm.Chunks
import MarketplacePipeline.Python.Json
import MarketplacePipeline.Pipeline.OpenAiSegmentClassifier
import MarketplacePipeline.Pipeline.Equiv.OpenAiSegmentClassifier
import MarketplacePipeline.Pipeline.RunPipeline
import MarketplacePipeline.Pipeline.Equiv.RunPipeline
import MarketplacePipeline.Pipeline.Equiv.ProductSelection
import MarketplacePipeline.Pipeline.Equiv.ClassifyBatches
import MarketplacePipeline.Algorithm.SlidingWindow
import MarketplacePipeline.Api.Equiv.AllowHistory
import MarketplacePipeline.Api.Middleware
import MarketplacePipeline.Api.Equiv.ClientIp
import MarketplacePipeline.Api.Equiv.RedisHistory
import MarketplacePipeline.Api.Equiv.MiddlewareOrder
import MarketplacePipeline.Http.OzonHttpClient
import MarketplacePipeline.Http.Equiv.ComposerCall
import MarketplacePipeline.Http.Equiv.ClientSessions
import MarketplacePipeline.Algorithm.PossibleAnswers
import MarketplacePipeline.Algorithm.OrderedPrefix
import MarketplacePipeline.Python.DateTime
import MarketplacePipeline.Jobs.JobRepositories
import MarketplacePipeline.Jobs.Equiv.JobRepositories
import MarketplacePipeline.Algorithm.Backtracking
import MarketplacePipeline.Collector.WidgetStates
import MarketplacePipeline.Collector.Equiv.WidgetTiles
import MarketplacePipeline.Collector.Equiv.ExtractFromWidget
import MarketplacePipeline.Collector.Equiv.ParseProducts
import MarketplacePipeline.Algorithm.Separator
import MarketplacePipeline.Crm.Equiv.TaskKeys
import MarketplacePipeline.Jobs.Equiv.ExecutorReleases
import MarketplacePipeline.Crm.FileStoreMethods
import MarketplacePipeline.Crm.Equiv.FileStoreSave
import MarketplacePipeline.Algorithm.Blocks
import MarketplacePipeline.Python.Equiv.DateTime
import MarketplacePipeline.Jobs.Equiv.ListRecent
import MarketplacePipeline.Python.Float
import MarketplacePipeline.Python.Number
import MarketplacePipeline.Proxy.ProxyMarketQuotaChecker
import MarketplacePipeline.Proxy.Equiv.CheckPackages
import MarketplacePipeline.Proxy.Equiv.FetchPackages
import MarketplacePipeline.Proxy.Equiv.Account
import MarketplacePipeline.Algorithm.RoundRobin
import MarketplacePipeline.Http.Equiv.ProxyRotation
import MarketplacePipeline.Http.ProxyLog
import MarketplacePipeline.Http.Equiv.ProxyLog
import MarketplacePipeline.Jobs.SqliteStatements
import MarketplacePipeline.Jobs.Equiv.SqliteStatements
import MarketplacePipeline.Algorithm.Accounting
import MarketplacePipeline.Algorithm.InTurn
import MarketplacePipeline.Algorithm.Progress
import MarketplacePipeline.Algorithm.SharedState
import MarketplacePipeline.Collector.CatalogRun
import MarketplacePipeline.Collector.Equiv.CatalogRun
import MarketplacePipeline.Collector.Equiv.RetriedPages
import MarketplacePipeline.Jobs.ApiProcess
import MarketplacePipeline.Jobs.Equiv.ApiProcess
import MarketplacePipeline.Jobs.Equiv.ProcessAccounts
import MarketplacePipeline.Jobs.Equiv.ProcessAnswers
import MarketplacePipeline.Jobs.Equiv.ProcessMetrics
import MarketplacePipeline.Jobs.Equiv.ProcessShutdown
import MarketplacePipeline.Observability.Equiv.JsonLogFormatter
import MarketplacePipeline.Pipeline.Equiv.LlmConversation
import MarketplacePipeline.Python.Equiv.Number
import MarketplacePipeline.Redis.Clients
import MarketplacePipeline.Redis.Equiv.Clients
import MarketplacePipeline.Algorithm.Checkpoint
import MarketplacePipeline.Api.Equiv.JobRoutes
import MarketplacePipeline.Jobs.Equiv.JobOutput
import MarketplacePipeline.Jobs.Equiv.MockRun
