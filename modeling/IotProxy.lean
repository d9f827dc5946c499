import IotProxy.Storage.OffsetSafety
import IotProxy.Storage.RecordColumns
import IotProxy.Iceberg.Growth
import IotProxy.Iceberg.Concurrent
import IotProxy.Proxy.WriteSafety
import IotProxy.Proxy.BroadcastSafety
import IotProxy.Proxy.RouteLoading
import IotProxy.Proxy.LinkSlots
import IotProxy.Proxy.LoopFreedom
import IotProxy.Proxy.EgressThreads
import IotProxy.Proxy.PeerIsolation
import IotProxy.Myring.HalfClose
import IotProxy.Myring.SendOrder
import IotProxy.Myring.QueueThreads
import IotProxy.Myring.Wakeups
import IotProxy.Myring.PushDeadlock
import IotProxy.Myring.RequestLife
import IotProxy.Proxy.StreamEvents
import IotProxy.Proxy.StreamGrammar
import IotProxy.Proxy.ConnectionLimit
import IotProxy.Proxy.StreamIds
import IotProxy.Sipfw.Configuration
import IotProxy.Proxy.SendSizes
import IotProxy.Storage.PayloadText
import IotProxy.Business.DeviceRegistry
import IotProxy.Tcmalloc.PageHeapRuns
import IotProxy.Tcmalloc.FreeList
import IotProxy.Proxy.TokenBucket
import IotProxy.Proxy.RouteChoice
import IotProxy.Proxy.SeenFilter
import IotProxy.Sipfw.RuleMatch
import IotProxy.Sipfw.RuleReplies
import IotProxy.Proxy.JsonRanges
import IotProxy.Proxy.HelloPayload
import IotProxy.Proxy.StateWrites
import IotProxy.Myring.RejectedPackets
