import RkIpc.Audio.Threads
import RkIpc.Camera.Requests
import RkIpc.Camera.Validation
import RkIpc.Counter.Guarded
import RkIpc.Geometry.Rect
import RkIpc.Isp.Light
import RkIpc.Isp.SensorRate
import RkIpc.Json.Parser
import RkIpc.LinkedList.Stack
import RkIpc.Memory.Block
import RkIpc.Memory.Writes
import RkIpc.Mutex.Serial
import RkIpc.Network.Capture
import RkIpc.Network.Connect
import RkIpc.Network.Credentials
import RkIpc.Network.Encode
import RkIpc.Network.EscapeScan
import RkIpc.Network.Gateway
import RkIpc.Network.Monitor
import RkIpc.Network.NameServerFile
import RkIpc.Network.NameServers
import RkIpc.Network.Ntp
import RkIpc.Network.SavedInfo
import RkIpc.Network.ScanBounds
import RkIpc.Network.ScanLines
import RkIpc.Network.ScanList
import RkIpc.Network.ScanReport
import RkIpc.Network.Ssid
import RkIpc.Network.Transcoding
import RkIpc.Network.Utf8Shape
import RkIpc.Network.Utf8ToGbk
import RkIpc.Network.WrongKey
import RkIpc.Osd.Bitmap
import RkIpc.Osd.Clipping
import RkIpc.Osd.Entry
import RkIpc.Osd.Font
import RkIpc.Osd.Frame
import RkIpc.Osd.Images
import RkIpc.Osd.Locking
import RkIpc.Osd.Osd
import RkIpc.Osd.Regions
import RkIpc.Osd.TextBuffer
import RkIpc.Osd.TimeServer
import RkIpc.Param.Keys
import RkIpc.Param.Lifecycle
import RkIpc.Param.Survives
import RkIpc.Resource.Handles
import RkIpc.Resource.Workers
import RkIpc.Rockiva.ResultStack
import RkIpc.Server.Bounded
import RkIpc.Server.Complete
import RkIpc.Server.Framing
import RkIpc.Server.Socket
import RkIpc.Server.TextGetters
import RkIpc.Server.Transfer
import RkIpc.Server.Usable
import RkIpc.Storage.CreateFolder
import RkIpc.Storage.FolderRun
import RkIpc.Storage.HotPlug
import RkIpc.Storage.Listing
import RkIpc.Storage.Monitor
import RkIpc.Storage.MsgQueue
import RkIpc.Storage.Muxer
import RkIpc.Storage.MuxerParams
import RkIpc.Storage.Relief
import RkIpc.Storage.SegmentNames
import RkIpc.Storage.StartUp
import RkIpc.Storage.Uevent
import RkIpc.Storage.UeventFields
import RkIpc.Stream.Clients
import RkIpc.Stream.Rtsp
import RkIpc.System.Capability
import RkIpc.System.Cmdline
import RkIpc.System.Signal
import RkIpc.System.UserCount
import RkIpc.Table.Slots
import RkIpc.Text.Decimal
import RkIpc.Text.Decoder
import RkIpc.Text.Group
import RkIpc.Text.Token
import RkIpc.Text.Utf8
import RkIpc.Transition.Crew
import RkIpc.Transition.Lowering
import RkIpc.Transition.Orderly
import RkIpc.Video.Border
import RkIpc.Video.Cover
import RkIpc.Video.Delivery
import RkIpc.Video.Encoder
import RkIpc.Video.FrameRate
import RkIpc.Video.NnDraw
import RkIpc.Video.NnOsd
import RkIpc.Video.Overlay
import RkIpc.Video.Photo
import RkIpc.Video.Pipeline
import RkIpc.Video.RcTables
import RkIpc.Video.RegionClip
import RkIpc.Video.Roi
import RkIpc.Video.Settled
import RkIpc.Video.Threads
