import WeatherQuery.Runs
import WeatherQuery.TaskBag
import WeatherQuery.Slots
import WeatherQuery.PoolModel
import WeatherQuery.PoolSteps
import WeatherQuery.PoolTasks
import WeatherQuery.PoolWake
import WeatherQuery.PoolShutdown
import WeatherQuery.CText
import WeatherQuery.KeyModel
import WeatherQuery.InPlace
import WeatherQuery.CityKey
import WeatherQuery.LookupModel
import WeatherQuery.LookupCache
import WeatherQuery.Traced
import WeatherQuery.HttpModel
import WeatherQuery.HttpCalls
import WeatherQuery.HttpArrival
import WeatherQuery.PathWalk
import WeatherQuery.HttpPath
import WeatherQuery.Keyed
import WeatherQuery.ServerModel
import WeatherQuery.ServerSteps
import WeatherQuery.ServerOwnership
import WeatherQuery.ServerLeak
import WeatherQuery.ServerBacklog
import WeatherQuery.SqlLex
import WeatherQuery.SqlText
import WeatherQuery.Newlines
import WeatherQuery.HttpHeaders
import WeatherQuery.CgiProtocol
import WeatherQuery.LookupRefresh
import WeatherQuery.FrameModel
import WeatherQuery.FrameRoundTrip
import WeatherQuery.FrameDecode
import WeatherQuery.SocketCodes
import WeatherQuery.PoolEffects
import WeatherQuery.PoolOrder
import WeatherQuery.PoolLock
import WeatherQuery.PoolInit
import WeatherQuery.Overwrite
import WeatherQuery.TagScan
import WeatherQuery.CrawlModel
import WeatherQuery.CrawlKeys
import WeatherQuery.KeyBounds
import WeatherQuery.CrawlAnchors
import WeatherQuery.CrawlStore
import WeatherQuery.Utf8Cut
import WeatherQuery.FieldFilters
import WeatherQuery.TagOrder
import WeatherQuery.WeatherPage
import WeatherQuery.InfoText
import WeatherQuery.PageBuffer
import WeatherQuery.HttpLines
import WeatherQuery.RequestLine
import WeatherQuery.MethodGate
import WeatherQuery.RequestBounds
import WeatherQuery.HttpLength
import WeatherQuery.Delivery
import WeatherQuery.HttpAnswer
import WeatherQuery.QueryValue
import WeatherQuery.ClientRequest
import WeatherQuery.FindCgi
import WeatherQuery.WholeServer
import WeatherQuery.LoadModel
import WeatherQuery.LoadHeader
import WeatherQuery.LoadRead
import WeatherQuery.LoadClient
import WeatherQuery.DLinked
import WeatherQuery.TimerModel
import WeatherQuery.TimerLists
import WeatherQuery.TimerRun
import WeatherQuery.TimerWait
import WeatherQuery.TimerCalls
import WeatherQuery.LoadTable
import WeatherQuery.LoadSlots
import WeatherQuery.LoadSteps
import WeatherQuery.LoadActs
import WeatherQuery.LoadBooks
import WeatherQuery.LoadReport
