import Zerver.Schedule
import Zerver.Assoc
import Zerver.LoadBalancer
import Zerver.LoadBalancerServers
import Zerver.LoadBalancerHash
import Zerver.TcpServer
import Zerver.TcpServerMoves
import Zerver.TcpServerShutdown
import Zerver.TcpServerWorkers
import Zerver.TcpServerForks
import Zerver.DeadlineTimer
import Zerver.Operation
import Zerver.Module
import Zerver.TcpClientPool
import Zerver.TcpClientPoolCalls
import Zerver.TcpClientPoolRuns
import Zerver.TcpModule
import Zerver.TcpModuleControl
import Zerver.TcpModuleMoves
import Zerver.TcpModuleOwnership
import Zerver.TcpModuleWire
import Zerver.TcpModulePairing
import Zerver.TcpModuleReuse
import Zerver.TcpModuleTimeOuts
import Zerver.TcpModuleAttempts
import Zerver.TcpModuleFailedRun
import Zerver.ClientConnection
import Zerver.ClientConnectionTimeOuts
import Zerver.ClientConnectionRejects
import Zerver.ClientConnectionRuns
import Zerver.ClientConnectionGuarded
import Zerver.ContextQuiescence
import Zerver.Fsm
import Zerver.FsmWalk
import Zerver.FsmLocks
import Zerver.FsmTable
import Zerver.FsmRouting
import Zerver.FsmRecursion
import Zerver.FsmConnection
import Zerver.FsmConnectionFraming
import Zerver.FsmConnectionRejects
import Zerver.FsmConnectionLockstep
import Zerver.ForkJoin
import Zerver.ForkJoinGraph
import Zerver.ForkJoinSteps
import Zerver.ForkJoinTurns
import Zerver.JoinArrivals
import Zerver.ForkJoinTraversals
import Zerver.Interleaving
import Zerver.ForkJoinExecutions
import Zerver.ForkJoinTasks
import Zerver.ForkJoinTaskSteps
import Zerver.ServerRequests
import Zerver.ForkJoinNested
import Zerver.Format
import Zerver.ServiceGraph
import Zerver.ServiceRequests
import Zerver.ServiceAnswers
import Zerver.TcpModuleOutcomes
import Zerver.ServerTcpModules
import Zerver.ServiceTcpModules
import Zerver.Periodic
import Zerver.LoadBalancerTimer
import Zerver.TcpClientPoolTimer
