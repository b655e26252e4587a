import Lakehouse.Lib.Digits
import Lakehouse.Lib.Json
import Lakehouse.Lib.KeyedLog
import Lakehouse.Lib.TableLog
import Lakehouse.Lib.Decimal
import Lakehouse.Lib.Words
import Lakehouse.Lib.Lineage
import Lakehouse.Lib.Git
import Lakehouse.Lib.Runs
import Lakehouse.Lib.Attempts
import Lakehouse.Lib.Calendar
import Lakehouse.Lib.Window
import Lakehouse.Lib.PartitionedTable
import Lakehouse.Lib.Relational
import Lakehouse.Lib.GroupWindow
import Lakehouse.Lib.Pattern
import Lakehouse.Lib.TaskChain
import Lakehouse.Lib.KeepLast
import Lakehouse.Source.Rows
import Lakehouse.Source.Debezium
import Lakehouse.Batch.Bronze
import Lakehouse.Batch.Silver
import Lakehouse.Batch.Gold
import Lakehouse.Dbt.Gold
import Lakehouse.Dbt.Build
import Lakehouse.Quality.Runner
import Lakehouse.Quality.Expectations
import Lakehouse.Quality.Suites
import Lakehouse.Streaming.OrderRevenue
import Lakehouse.Streaming.OrderTopic
import Lakehouse.Streaming.Recovery
import Lakehouse.Release.Kustomization
import Lakehouse.Release.Promote
import Lakehouse.Release.Application
import Lakehouse.Release.Pipeline
import Lakehouse.Release.SmokeCheck
import Lakehouse.Ingestion.Loader
import Lakehouse.Demo.GenerateTraffic
import Lakehouse.Demo.Capture
import Lakehouse.Demo.Dashboard
import Lakehouse.Orchestration.RegisterLineage
import Lakehouse.Orchestration.LakehouseBatch
import Lakehouse.Orchestration.RunBatch
import Lakehouse.Verify.Dedup
import Lakehouse.Verify.NewestChange
import Lakehouse.Verify.SilverMirror
import Lakehouse.Verify.ItemRuns
import Lakehouse.Verify.KnownCustomers
import Lakehouse.Verify.MalformedMessages
import Lakehouse.Verify.LastWrite
import Lakehouse.Verify.StableTables
import Lakehouse.Verify.BronzeRuns
import Lakehouse.Verify.GoldRefresh
import Lakehouse.Verify.GoldTwins
import Lakehouse.Verify.Reconcile
import Lakehouse.Verify.DailyTotals
import Lakehouse.Verify.LineTotals
import Lakehouse.Verify.CustomerRows
import Lakehouse.Verify.NewCustomers
import Lakehouse.Verify.GateSound
import Lakehouse.Verify.GateMetrics
import Lakehouse.Verify.LoaderCounts
import Lakehouse.Verify.TrafficRuns
import Lakehouse.Verify.OrderHistory
import Lakehouse.Verify.HotPath
import Lakehouse.Verify.TopicReplay
import Lakehouse.Verify.CrashRuns
import Lakehouse.Verify.Promotion
import Lakehouse.Verify.ProdGate
import Lakehouse.Verify.PipelineSteps
import Lakehouse.Verify.PromotionChain
import Lakehouse.Verify.PinnedImages
import Lakehouse.Verify.QueryPages
import Lakehouse.Verify.SmokeGate
import Lakehouse.Verify.CapturedTraffic
import Lakehouse.Verify.SourceRows
import Lakehouse.Verify.SourceMetrics
import Lakehouse.Verify.SourceRevenue
import Lakehouse.Verify.LakeRuns
import Lakehouse.Verify.LakeRounds
import Lakehouse.Verify.DbtBuild
import Lakehouse.Verify.DbtRuns
import Lakehouse.Verify.SuiteSuccess
import Lakehouse.Verify.ClockedTraffic
import Lakehouse.Verify.SilverSuites
import Lakehouse.Verify.GoldSuites
import Lakehouse.Verify.BronzeSuites
import Lakehouse.Verify.HealthyRuns
import Lakehouse.Verify.SparkGold
import Lakehouse.Verify.DagRuns
import Lakehouse.Verify.BatchScript
import Lakehouse.Verify.DashboardFrames
import Lakehouse.Verify.DashboardTotals
