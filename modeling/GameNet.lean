import GameNet.TcpServer.PeerRate
import GameNet.LogicLoop
import GameNet.EventLoop.Progress
import GameNet.EventLoop.Wakeup
import GameNet.EventLoop.Interest
import GameNet.EventLoop.ReadinessPort
import GameNet.SessionManager.Coherence
import GameNet.PacketFramer.RoundTrip
import GameNet.TcpConnection.HalfClose
import GameNet.TcpConnection.Delivery
import GameNet.TcpConnection.BudgetLatch
import GameNet.TcpConnection.Lifecycle
import GameNet.TcpConnection.ByteStream
import GameNet.Broadcast.Endpoints
import GameNet.Broadcast.Router
import GameNet.TcpClient.Order
import GameNet.Iocp.Reports
import GameNet.Iocp.Teardown
import GameNet.IoUring.Delivery
import GameNet.EventLoopThreadPool.Selection
import GameNet.Iocp.Operation
