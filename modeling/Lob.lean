import Lob.FuzzTarget
import Lob.IdleExit
import Lob.Journal.Checksum
import Lob.Journal.Chunking
import Lob.Journal.Prefix
import Lob.Journal.Recovery
import Lob.LatencyHistogram.Snapshot
import Lob.MPMCMain.Summary
import Lob.MPMCQueue.Fifo
import Lob.MPMCQueue.Wakeup
import Lob.MarketViewer.Delivery
import Lob.MarketViewer.TopOfBook
import Lob.MarketViewer.WeakMemory.Delivery
import Lob.MatchingEngine.Audit
import Lob.MatchingEngine.Cancel
import Lob.MatchingEngine.Conservation
import Lob.MatchingEngine.KillSwitch
import Lob.MatchingEngine.MarketData
import Lob.MatchingEngine.Mirror
import Lob.MatchingEngine.PostOnly
import Lob.MatchingEngine.Priority
import Lob.MatchingEngine.Progress
import Lob.MatchingEngine.Rejects
import Lob.MatchingEngine.Reports
import Lob.MatchingEngine.RiskEnvelope
import Lob.PartitionedEngine.Shutdown
import Lob.PartitionedEngine.Stats
import Lob.PartitionedEngine.Wakeup
import Lob.PartitionedMain.Progress
import Lob.Pipeline.Header
import Lob.Pipeline.Received
import Lob.Pipeline.Restart
import Lob.SPSCQueue.Monitor
import Lob.ShardedEngine.Overlaps
import Lob.SharedRegion.OneAtATime
import Lob.Telemetry
