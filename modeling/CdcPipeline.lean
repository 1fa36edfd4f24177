import CdcPipeline.Library.Outline
import CdcPipeline.Library.JsonReader
import CdcPipeline.Model.Redis
import CdcPipeline.Model.Calls
import CdcPipeline.Model.Record
import CdcPipeline.Model.KafkaConsumerBase
import CdcPipeline.Model.RedisUpdater
import CdcPipeline.Model.EsIndexer
import CdcPipeline.Model.Notifier
import CdcPipeline.Proofs.RunOutline
import CdcPipeline.Model.Broker
import CdcPipeline.Proofs.BrokerOutline
import CdcPipeline.Proofs.ZeroLoss
import CdcPipeline.Proofs.BrokerRuns
import CdcPipeline.Proofs.PoisonPill
import CdcPipeline.Library.Versioned
import CdcPipeline.Model.Debezium
import CdcPipeline.Proofs.RedisCache
import CdcPipeline.Proofs.RedisConvergence
import CdcPipeline.Proofs.EsDocuments
import CdcPipeline.Model.Fleet
import CdcPipeline.Proofs.FleetOutline
import CdcPipeline.Proofs.SinkPrograms
import CdcPipeline.Proofs.CacheAcknowledged
import CdcPipeline.Library.Replay
import CdcPipeline.Library.Lease
import CdcPipeline.Library.Latch
import CdcPipeline.Proofs.DualStore
import CdcPipeline.Model.Mail
import CdcPipeline.Proofs.MailInvariant
import CdcPipeline.Proofs.MailOnce
import CdcPipeline.Proofs.MailDelivered
import CdcPipeline.Proofs.FlattenedRecords
import CdcPipeline.Proofs.ValueGuard
import CdcPipeline.Proofs.RecordEffect
import CdcPipeline.Library.Gate
import CdcPipeline.Proofs.MonotoneVersions
import CdcPipeline.Model.Stamped
import CdcPipeline.Proofs.MixedVersions
import CdcPipeline.Proofs.RetryRuns
import CdcPipeline.Proofs.RejectedRecords
import CdcPipeline.Proofs.AttemptOutline
import CdcPipeline.Proofs.StopDiscipline
import CdcPipeline.Model.Shutdown
import CdcPipeline.Proofs.StopKept
import CdcPipeline.Proofs.RunAsks
import CdcPipeline.Proofs.HealthySinks
import CdcPipeline.Proofs.NoQuarantine
import CdcPipeline.Proofs.TransientFailures
import CdcPipeline.Model.ApiClients
import CdcPipeline.Model.ApiServer
import CdcPipeline.Proofs.CacheInvisible
import CdcPipeline.Model.OrderRow
import CdcPipeline.Proofs.CacheDrift
import CdcPipeline.Library.SqlLexer
import CdcPipeline.Library.SqlLiteral
import CdcPipeline.Library.JsonBytes
import CdcPipeline.Proofs.SqlText
import CdcPipeline.Proofs.ApiPrograms
import CdcPipeline.Proofs.DecodingRuns
import CdcPipeline.Proofs.GuardExact
import CdcPipeline.Proofs.VersionFields
import CdcPipeline.Proofs.BackoffSchedule
import CdcPipeline.Proofs.CacheRecovery
import CdcPipeline.Proofs.DecodeFailures
import CdcPipeline.Proofs.UnionSpellings
import CdcPipeline.Proofs.OrdersApart
import CdcPipeline.Model.LogLine
import CdcPipeline.Model.LogCalls
import CdcPipeline.Model.Logstash
import CdcPipeline.Model.Dashboard
import CdcPipeline.Proofs.DashboardCounts
import CdcPipeline.Library.JsonLexer
import CdcPipeline.Library.JsonTemplate
import CdcPipeline.Library.JsonParser
import CdcPipeline.Library.JsonString
import CdcPipeline.Proofs.LogTemplates
import CdcPipeline.Proofs.LogSlots
import CdcPipeline.Proofs.LogRoundTrip
import CdcPipeline.Library.History
import CdcPipeline.Model.OrderStore
import CdcPipeline.Model.Postgres
import CdcPipeline.Model.OrderRoutes
import CdcPipeline.Model.LoadGenerator
import CdcPipeline.Model.ApiProcess
import CdcPipeline.Proofs.ServedOrders
import CdcPipeline.Proofs.ApiOutline
import CdcPipeline.Proofs.ApiCalls
import CdcPipeline.Proofs.ApiHandlers
import CdcPipeline.Proofs.ApiSteps
import CdcPipeline.Proofs.ApiRoutes
import CdcPipeline.Proofs.GeneratedOrders
import CdcPipeline.Proofs.ApiWorkers
import CdcPipeline.Proofs.ServedHistory
import CdcPipeline.Proofs.ClientView
import CdcPipeline.Proofs.CalmServer
import CdcPipeline.Proofs.PipelineConverges
