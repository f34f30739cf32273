import MetricReporting.Main
import MetricReporting.Point.Json
import MetricReporting.Proofs.Actions
import MetricReporting.Proofs.Activity
import MetricReporting.Proofs.CallLog
import MetricReporting.Proofs.Clients
import MetricReporting.Proofs.ConfigTexts
import MetricReporting.Proofs.Conversions
import MetricReporting.Proofs.CycleAccount
import MetricReporting.Proofs.Deliveries
import MetricReporting.Proofs.ExactScalars
import MetricReporting.Proofs.Exchanges
import MetricReporting.Proofs.Filtering
import MetricReporting.Proofs.HighWater
import MetricReporting.Proofs.Independence
import MetricReporting.Proofs.JsonTexts
import MetricReporting.Proofs.LatestValues
import MetricReporting.Proofs.LazyTicks
import MetricReporting.Proofs.Lines
import MetricReporting.Proofs.Logs
import MetricReporting.Proofs.NameMaps
import MetricReporting.Proofs.Naming
import MetricReporting.Proofs.Numerals
import MetricReporting.Proofs.Objects
import MetricReporting.Proofs.OneName
import MetricReporting.Proofs.Outlets
import MetricReporting.Proofs.Outputs
import MetricReporting.Proofs.Partitions
import MetricReporting.Proofs.Periods
import MetricReporting.Proofs.PointTexts
import MetricReporting.Proofs.Poisoning
import MetricReporting.Proofs.Quantiles
import MetricReporting.Proofs.Rates
import MetricReporting.Proofs.Readings
import MetricReporting.Proofs.Repetition
import MetricReporting.Proofs.Reports
import MetricReporting.Proofs.Resolution
import MetricReporting.Proofs.ScheduledReports
import MetricReporting.Proofs.Schedules
import MetricReporting.Proofs.ServiceRuns
import MetricReporting.Proofs.Snapshots
import MetricReporting.Proofs.SpanTexts
import MetricReporting.Proofs.Suppression
import MetricReporting.Proofs.TagTexts
import MetricReporting.Proofs.Texts
import MetricReporting.Proofs.TickHistory
import MetricReporting.Proofs.Timings
import MetricReporting.Proofs.TomlDocuments
import MetricReporting.Proofs.TomlStrings
import MetricReporting.Proofs.TrafficCounts
import MetricReporting.Proofs.TrafficReports
import MetricReporting.Proofs.Transactions
import MetricReporting.Proofs.Visits
import MetricReporting.Registry.Samples
import MetricReporting.Report.Schedule
import MetricReporting.Sender.Memory
import MetricReporting.Sender.Recording
import MetricReporting.TimeUnit.Json
import MetricReporting.Proofs.Consultations
import MetricReporting.Proofs.Warnings
import MetricReporting.Proofs.Narrowing
import MetricReporting.Proofs.Patterns
