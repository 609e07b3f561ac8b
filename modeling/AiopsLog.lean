import AiopsLog.Lib.GroupBy
import AiopsLog.Lib.Table
import AiopsLog.Lib.Code
import AiopsLog.Lib.Rounding
import AiopsLog.Lib.OrderBy
import AiopsLog.Lib.Classification
import AiopsLog.Records
import AiopsLog.Train
import AiopsLog.AnomalyCluster
import AiopsLog.OfflineTraining
import AiopsLog.Lib.Nullable
import AiopsLog.Alert
import AiopsLog.Sinks
import AiopsLog.Process
import AiopsLog.SinkFrames
import AiopsLog.NoLoss
import AiopsLog.SinkEffects
import AiopsLog.Evaluation
import AiopsLog.Runs
import AiopsLog.Health
import AiopsLog.HealthRate
import AiopsLog.Metrics
import AiopsLog.SinksAgree
import AiopsLog.Replay
import AiopsLog.Gateway.MetricsSummary
import AiopsLog.Lib.Run
import AiopsLog.TwoWriters
import AiopsLog.Gateway.ConnectionManager
import AiopsLog.Gateway.Registry
import AiopsLog.Gateway.LiveAlerts
import AiopsLog.Gateway.KafkaConsumer
import AiopsLog.RowIsolation
import AiopsLog.Lifetime
import AiopsLog.Gateway.Messages
import AiopsLog.Chaos.LatencyProbe
import AiopsLog.Fluentd.Ingestion
import AiopsLog.Fluentd.BglLayout
import AiopsLog.Lib.Batching
import AiopsLog.LogReplay
import AiopsLog.Chaos.DeltaSafety
import AiopsLog.Chaos.KafkaFailover
import AiopsLog.Lib.Calendar
import AiopsLog.Gateway.RecentAlerts
import AiopsLog.Gateway.ComponentHealth
import AiopsLog.Gateway.DemoPage
import AiopsLog.Gateway.DemoStream
import AiopsLog.Gateway.PersistedAlerts
import AiopsLog.Chaos.FluentdCrash
import AiopsLog.Fluentd.Lakehouse
import AiopsLog.Fluentd.Tail
import AiopsLog.Chaos.KafkaController
import AiopsLog.Chaos.ProbeInjection
import AiopsLog.Gateway.HealthCheck
import AiopsLog.Chaos.ProbeAlert
import AiopsLog.Gateway.AlertPath
import AiopsLog.InitLakehouse
import AiopsLog.EndToEnd
import AiopsLog.KilledCalls
import AiopsLog.Lib.MicroBatch
import AiopsLog.StreamingQuery
import AiopsLog.Fluentd.Output
import AiopsLog.LogPath
