import Sponge.Lib.Run
import Sponge.Lib.Word
import Sponge.Lib.SortedMap
import Sponge.Laws.Stream.Reassembler
import Sponge.Laws.Stream.Merge
import Sponge.Laws.Stream.Capacity
import Sponge.Laws.Stream.Reassembly
import Sponge.Util.Buffer
import Sponge.Util.Parser
import Sponge.Tcp.Receiver
import Sponge.Laws.Tcp.Receiver
import Sponge.Laws.Tcp.Reception
import Sponge.Laws.Tcp.Sender
import Sponge.Laws.Tcp.Sending
import Sponge.Laws.Tcp.Window
import Sponge.Laws.Tcp.EndToEnd
import Sponge.Laws.Net.Parsers
import Sponge.Laws.Net.Codec
import Sponge.Laws.Net.Adapter
import Sponge.Net.Interface
import Sponge.Net.Router
import Sponge.Laws.Net.Interface
import Sponge.Laws.Net.ArpCache
import Sponge.Laws.Net.Routing
import Sponge.Laws.Net.Router
import Sponge.Tcp.Connection
import Sponge.Laws.Tcp.Connection
import Sponge.Laws.Tcp.Finished
import Sponge.Laws.Tcp.Advertising
import Sponge.Laws.Tcp.Ledger
import Sponge.Laws.Tcp.Closing
import Sponge.Laws.Tcp.Linger
import Sponge.Laws.Tcp.Timer
import Sponge.Laws.Tcp.Acks
import Sponge.Laws.Tcp.GivingUp
import Sponge.Laws.Stream.Rest
import Sponge.Laws.Stream.Pushes
import Sponge.Laws.Stream.Empty
import Sponge.Laws.Tcp.Strays
import Sponge.Laws.Tcp.RightEdge
import Sponge.Lib.Fifo
import Sponge.Laws.Stream.Fifo
import Sponge.Laws.Net.RoundTrip
import Sponge.Lib.Shared
import Sponge.Util.Storage
import Sponge.Laws.Util.Buffer
import Sponge.Lib.Limiter
import Sponge.Laws.Net.Asking
import Sponge.Laws.Tcp.Replies
import Sponge.Tcp.State
import Sponge.Laws.Tcp.State
import Sponge.Laws.Tcp.Duplex
import Sponge.Laws.Tcp.Eof
import Sponge.Lib.Backoff
import Sponge.Laws.Tcp.Silence
import Sponge.Util.FileDescriptor
import Sponge.Util.EventLoop
import Sponge.Laws.Util.EventLoop
import Sponge.Apps.StreamCopy
import Sponge.Laws.Apps.StreamCopy
import Sponge.Net.FdAdapter
import Sponge.Laws.Tcp.Outgoing
import Sponge.Laws.Net.FdAdapter
import Sponge.Tcp.Socket
import Sponge.Laws.Tcp.Socket
import Sponge.Laws.Tcp.SocketPair
import Sponge.Laws.Net.Transit
import Sponge.Apps.Lab7
import Sponge.Laws.Apps.NetworkThread
import Sponge.Laws.Apps.Lab7
import Sponge.Laws.Apps.Stack
