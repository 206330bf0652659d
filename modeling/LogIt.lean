import LogIt.Ring.Lemmas.IdealQueue
import LogIt.Deque.Lemmas.Wakeup
import LogIt.Deque.Lemmas.Backpressure
import LogIt.Mpsc.Lemmas.Wait
import LogIt.Mpsc.Lemmas.Shutdown
import LogIt.FileLogger.Lemmas.Lossless
import LogIt.FileLogger.Lemmas.Retention
import LogIt.Arguments.Lemmas.Split
import LogIt.Executors.Limit
import LogIt.Otlp.Lemmas.Payload
import LogIt.Otlp.Lemmas.Http
import LogIt.Mdbx.Lemmas.Callbacks
import LogIt.Exporters.Progress
import LogIt.UniqueFileLogger.Lemmas.Executors
import LogIt.Mdbx.Lemmas.Payloads
import LogIt.Cooperative.Lemmas.Strand
import LogIt.Configuration.Lemmas.Numbers
import LogIt.Configuration.Lemmas.Level
import LogIt.Logger.Lemmas.Lifecycle
import LogIt.FileLogger.Lemmas.Listing
import LogIt.FileLogger.Lemmas.EmptyFiles
import LogIt.FileLogger.Lemmas.Reconfiguration
import LogIt.ConsoleLogger.Lemmas.Reconfiguration
import LogIt.Formatter.Lemmas.Ansi
import LogIt.Formatter.Lemmas.Width
import LogIt.Formatter.Lemmas.Digits
import LogIt.Formatter.Lemmas.Inline
import LogIt.Compression.Lemmas.Termination
import LogIt.Compression.External
import LogIt.Compression.Lemmas.Worker
import LogIt.UniqueFileLogger.Lemmas.Files
import LogIt.Prometheus.Lemmas.Registry
import LogIt.Prometheus.Lemmas.Labels
import LogIt.Prometheus.HttpServer
import LogIt.ConsoleLogger.Windows
import LogIt.Formatter.Json
import LogIt.Otlp.Lemmas.Greedy
import LogIt.Utils.RateLimit
import LogIt.Utils.Lemmas.Format
import LogIt.Utils.Lemmas.Tags
import LogIt.Utils.Lemmas.Paths
import LogIt.MemoryLogger.Lemmas.Recent
