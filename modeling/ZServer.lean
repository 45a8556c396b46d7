import ZServer.Lib.Threads
import ZServer.Buffer.Basic
import ZServer.Buffer.ByteQueue
import ZServer.Ring.Basic
import ZServer.Ring.Invariant
import ZServer.Ring.Safety
import ZServer.Ring.Answers
import ZServer.Event.MsgQueue
import ZServer.Event.WakeUp
import ZServer.Actor.Context
import ZServer.Actor.CtxMgr
import ZServer.Actor.WorkerPool
import ZServer.Actor.Moves
import ZServer.Actor.Isolation
import ZServer.Actor.Stranded
import ZServer.Actor.Scheduled
import ZServer.Actor.RefCount
import ZServer.Actor.Resurrection
import ZServer.Actor.Payload
import ZServer.Actor.Exits
import ZServer.Lib.Monitor
import ZServer.Actor.Sleep
import ZServer.Actor.Awake
import ZServer.Actor.NameMgr
import ZServer.Actor.Delivery
import ZServer.Lib.Framing
import ZServer.Net.Proto
import ZServer.Net.NetPack
import ZServer.Net.RoundTrip
import ZServer.Tcp.Requests
import ZServer.Tcp.Socket
import ZServer.Tcp.Moves
import ZServer.Tcp.Table
import ZServer.Tcp.Agreement
import ZServer.Tcp.QueueFull
import ZServer.Tcp.Accounting
import ZServer.Tcp.Unrecycled
import ZServer.Tcp.Lifetime
import ZServer.Tcp.Attached
import ZServer.Tcp.Outgoing
import ZServer.Tcp.Link
import ZServer.Tcp.Reuse
import ZServer.Tcp.Incoming
import ZServer.Tcp.Handover
import ZServer.Tcp.Reserving
import ZServer.Tcp.Ending
import ZServer.Tcp.Notices
import ZServer.Lib.Binary64
import ZServer.Lib.Decoder
import ZServer.Seri.Value
import ZServer.Seri.Format
import ZServer.Seri.WriteBlock
import ZServer.Seri.Pack
import ZServer.Seri.Scalars
import ZServer.Seri.Entries
import ZServer.Seri.Tables
import ZServer.Seri.Encoding
import ZServer.Seri.Unpack
import ZServer.Seri.Cursor
import ZServer.Seri.RoundTrip
import ZServer.Seri.Slots
import ZServer.Timer.Mirror
import ZServer.Lua.Correlation
import ZServer.Lua.Chain
import ZServer.Lua.Paired
import ZServer.Actor.CtxTable
import ZServer.Actor.Sessions
import ZServer.Net.Unpack
import ZServer.Queue.BlockQueue
import ZServer.Queue.Log
import ZServer.Tcp.SlotSearch
import ZServer.Timer.Pass
import ZServer.Game.NewestWins
import ZServer.Game.Saves
import ZServer.Actor.NameCalls
import ZServer.Actor.Adding
import ZServer.Lua.Modules
import ZServer.Dict.Load
import ZServer.Dict.Names
import ZServer.Tcp.Peers
import ZServer.Game.Admission
import ZServer.Timer.Clock
import ZServer.Event.FileEvents
import ZServer.Lua.Commands
import ZServer.Seri.Truncation
import ZServer.Actor.Network
import ZServer.Lua.Calls
import ZServer.Actor.ModuleTable
import ZServer.Queue.Rotation
