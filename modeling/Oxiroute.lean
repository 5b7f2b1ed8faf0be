import Oxiroute.Master.StatusCodec
import Oxiroute.Supervision.Correlation
import Oxiroute.Master.Isolation
import Oxiroute.Master.EventLog
import Oxiroute.Config.Path
import Oxiroute.Cache.Eviction
import Oxiroute.Cache.Accounting
import Oxiroute.Cache.Variants
import Oxiroute.Cache.Fills
import Oxiroute.Cache.Reuse
import Oxiroute.Cache.DiskQuota
import Oxiroute.Rtmp.LiveViewers
import Oxiroute.Rtmp.RegistryRuns
import Oxiroute.Rtmp.RecorderSegments
import Oxiroute.Rtmp.RecordingFence
import Oxiroute.Rtmp.RecordingQuota
import Oxiroute.Rtmp.RecordingTime
import Oxiroute.Rtmp.TsMuxer
import Oxiroute.Rtmp.DashRecovery
import Oxiroute.Rtmp.AutoPushReceive
import Oxiroute.Server.BasicAuth
import Oxiroute.Server.ProxyResponse
import Oxiroute.Server.TcpRelay
import Oxiroute.Rtmp.RelayQueue
import Oxiroute.Config.KdlDepth
import Oxiroute.Acme.Polling
