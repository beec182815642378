import ReactorServer.Shared.Transition
import ReactorServer.Shared.OrderedMap
import ReactorServer.Shared.ByteString
import ReactorServer.Shared.Framing
import ReactorServer.Shared.Stages
import ReactorServer.Buffer
import ReactorServer.Epoll
import ReactorServer.Connection
import ReactorServer.Fragmentation
import ReactorServer.EchoServer
import ReactorServer.OutputRun
import ReactorServer.SendRace
import ReactorServer.Pipeline
import ReactorServer.TcpServer
import ReactorServer.ServerSteps
import ReactorServer.ServerInvariants
import ReactorServer.Registries
import ReactorServer.Agreement
import ReactorServer.Handover
import ReactorServer.Lifetime
import ReactorServer.PipelineSteps
import ReactorServer.Replies
import ReactorServer.Shared.Tally
import ReactorServer.ThreadPool
import ReactorServer.PoolInvariants
import ReactorServer.Shutdown
import ReactorServer.WorkConservation
import ReactorServer.HandleTimer
import ReactorServer.HostileFrames
import ReactorServer.Descriptors
import ReactorServer.Wakeup
import ReactorServer.IoLoop
import ReactorServer.Notifications
import ReactorServer.Accepting
import ReactorServer.Codec
import ReactorServer.ReadLoop
import ReactorServer.Registration
import ReactorServer.Shared.Heap
import ReactorServer.SendBuffers
import ReactorServer.StopCalls
import ReactorServer.Shared.Progress
import ReactorServer.ClientServer
import ReactorServer.ClientSteps
import ReactorServer.Exchange
import ReactorServer.Completion
import ReactorServer.Workload
import ReactorServer.PoolProgress
import ReactorServer.LoopProgress
import ReactorServer.IoThreads
import ReactorServer.IoShutdown
import ReactorServer.Threaded
import ReactorServer.ThreadedSteps
import ReactorServer.ThreadedRefinement
import ReactorServer.ThreadedInvariants
import ReactorServer.ThreadedWorkload
import ReactorServer.ThreadedProgress
