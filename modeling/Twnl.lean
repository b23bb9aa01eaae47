import Twnl.Buffer.Fifo
import Twnl.Channel.Interest
import Twnl.TcpConnection.Stream
import Twnl.TcpConnection.Silence
import Twnl.TcpConnection.Input
import Twnl.EventLoop.Watching
import Twnl.TimerQueue.Ownership
import Twnl.TimerQueue.Descriptor
import Twnl.TimerQueue.Law
import Twnl.EventLoop.Wakeup
import Twnl.TcpClient.Attempts
import Twnl.TcpClient.Destruction
import Twnl.Connector.Sockets
import Twnl.Connector.Timers
import Twnl.TcpServer.Destruction
import Twnl.TcpServer.Lifespan
import Twnl.TcpServer.Registry
import Twnl.EventLoopThread.Handshake
import Twnl.Poller.Twin
import Twnl.EventLoop.Statics
import Twnl.TcpConnection.Writing
import Twnl.TcpClient.Stop
import Twnl.Acceptor.Backlog
import Twnl.TcpConnection.Capture
import Twnl.Buffer.Spill
import Twnl.Buffer.Growth
import Twnl.Buffer.Swap
import Twnl.TcpConnection.HighWater
import Twnl.TcpConnection.Overloads
import Twnl.Poller.Cycles
import Twnl.Log.Convert
import Twnl.Log.Trailer
import Twnl.Poller.Seats
import Twnl.Poller.Events
import Twnl.Example.Echo
import Twnl.TcpServer.Loads
import Twnl.Buffer.Lines
import Twnl.Acceptor.Descriptors
import Twnl.TcpConnection.Link
import Twnl.Connector.Backoff
import Twnl.TcpClient.Refinement
import Twnl.EventLoop.Quit
import Twnl.TcpServer.Endpoints
import Twnl.TcpClient.Names
