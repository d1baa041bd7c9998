import TimeGANWebServer.Timer.Schedule
import TimeGANWebServer.Timer.WheelLists
import TimeGANWebServer.Http.Parser
import TimeGANWebServer.Http.Scan
import TimeGANWebServer.Http.Segmentation
import TimeGANWebServer.Http.Response
import TimeGANWebServer.Http.Send
import TimeGANWebServer.Http.PartialWrites
import TimeGANWebServer.Http.Diagnose
import TimeGANWebServer.Http.DoRequest
import TimeGANWebServer.Http.Process
import TimeGANWebServer.Http.OneResponse
import TimeGANWebServer.Http.Access
import TimeGANWebServer.Lock.MemoryPool
import TimeGANWebServer.Support.Run
import TimeGANWebServer.Server.EventLoop
import TimeGANWebServer.Support.Custody
import TimeGANWebServer.Server.Frames
import TimeGANWebServer.Server.Timing
import TimeGANWebServer.Server.Steps
import TimeGANWebServer.Server.Closing
import TimeGANWebServer.Server.Places
import TimeGANWebServer.Server.Crossing
import TimeGANWebServer.Server.Descriptors
import TimeGANWebServer.Http.Framing
import TimeGANWebServer.Http.DocRoot
import TimeGANWebServer.Threadpool.Pool
import TimeGANWebServer.Threadpool.Queue
import TimeGANWebServer.Threadpool.Shutdown
import TimeGANWebServer.CGImysql.ConnectionPool
import TimeGANWebServer.Threadpool.Database
import TimeGANWebServer.Server.Seconds
import TimeGANWebServer.Http.Cursors
import TimeGANWebServer.Http.ParseLine
import TimeGANWebServer.Http.Resume
import TimeGANWebServer.Http.RequestLine
import TimeGANWebServer.Http.Formatting
import TimeGANWebServer.Http.Malformed
import TimeGANWebServer.Http.Mappings
import TimeGANWebServer.Http.Overflow
import TimeGANWebServer.Http.RequestTarget
import TimeGANWebServer.Http.Form
import TimeGANWebServer.Http.Accounts
import TimeGANWebServer.Http.Routing
import TimeGANWebServer.Http.Registration
import TimeGANWebServer.Http.Content
import TimeGANWebServer.Http.Progress
import TimeGANWebServer.Http.Independence
import TimeGANWebServer.Logging.AsyncLog
import TimeGANWebServer.Logging.Delivery
import TimeGANWebServer.Redis.Manager
import TimeGANWebServer.Redis.Connection
import TimeGANWebServer.Http.Sessions
import TimeGANWebServer.Http.Origins
import TimeGANWebServer.Http.KeepAlive
import TimeGANWebServer.Support.Batches
import TimeGANWebServer.Http.SqlInsert
import TimeGANWebServer.Http.Cookie
import TimeGANWebServer.Http.Exceptions
import TimeGANWebServer.Http.CsvRows
import TimeGANWebServer.Http.Download
import TimeGANWebServer.Logging.Format
import TimeGANWebServer.Logging.Dates
import TimeGANWebServer.Logging.BlockQueue
import TimeGANWebServer.Lock.LinkedPool
import TimeGANWebServer.Http.Triggering
import TimeGANWebServer.Support.Ring
import TimeGANWebServer.Http.Building
import TimeGANWebServer.Threadpool.Wakeups
import TimeGANWebServer.Lock.Semaphore
import TimeGANWebServer.CGImysql.Waiting
import TimeGANWebServer.Logging.SharedQueue
import TimeGANWebServer.Timer.Renaming
import TimeGANWebServer.Timer.PooledWheel
import TimeGANWebServer.Server.MainLoop
import TimeGANWebServer.Server.Signals
import TimeGANWebServer.Server.Listening
import TimeGANWebServer.Server.ActorModels
import TimeGANWebServer.Threadpool.Connections
import TimeGANWebServer.Support.Movers
import TimeGANWebServer.Server.Handlers
