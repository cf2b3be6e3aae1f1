import AetherLens.BandwidthCounters
import AetherLens.PersistenceWorker
import AetherLens.RateLimiter
import AetherLens.SuspicionScoring
import AetherLens.FlowAttribution
import AetherLens.CorsPolicy
import AetherLens.PacketDelivery
import AetherLens.SnapshotSets
import AetherLens.DashboardStore
import AetherLens.LatencyArithmetic
import AetherLens.SnapshotTotals
import AetherLens.SnapshotWindows
import AetherLens.DashboardConnection
import AetherLens.ProcessRefresh
import AetherLens.CaptureLoop
import AetherLens.UpperLayerHeaders
import AetherLens.ProcessTable
import AetherLens.ReconnectDelay
import AetherLens.RetryAfter
import AetherLens.LiveConsole
import AetherLens.BlockingQueues
import AetherLens.Engine
import AetherLens.CaptureThread
import AetherLens.Subscriptions
import AetherLens.SuspiciousStream
import AetherLens.AlertDelivery
import AetherLens.Groupcasts
import AetherLens.NetworkMonitorHub
import AetherLens.DashboardReplay
import AetherLens.LiveSystem
import AetherLens.EndToEnd
import AetherLens.Warnings
import AetherLens.ReportedTraffic
import AetherLens.DemoStream
import AetherLens.SystemProgress
import AetherLens.WorkerProgress
import AetherLens.KeyedValues
import AetherLens.HubWire
import AetherLens.ProcessPackets
import AetherLens.CaptureInterface
import AetherLens.ConsoleLines
import AetherLens.DashboardWidgets
import AetherLens.MonitoredSystem
