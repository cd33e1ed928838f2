import Zerver.Module
import Zerver.Operation
import Zerver.Schedule
import Zerver.TcpClientPool

/-! `module/tcp_module.{h,cc}` over one shared client pool. A state holds every
`ModuleData`, the outstanding socket operations, the pool, the clients and the
connections behind them; a handler body is one step, as it holds the data's lock.
Nothing keeps the Fsm from running a module of a context again before its last attempt
has resumed: two branches of a fork may share a TcpModule. -/
namespace Zerver.TcpModule

open Zerver.Asio Zerver.TcpClientPool

inductive SocketEvent where
  | none
  | opened
  | closed
  deriving DecidableEq, Repr

/-- The completion handler of an operation, by what it was started for. -/
inductive Stage where
  | connect (ip : String) (port : UInt16)
  | writeReq (request : List UInt8)
  | respHead (len : Nat)
  | respBody (len : Nat)
  deriving DecidableEq, Repr

structure Task where
  attempt : Attempt
  stage : Stage
  deriving DecidableEq, Repr

/-- Who cancels or closes a socket. -/
inductive Issuer where
  | slot (slot : Slot)
  | pool
  deriving DecidableEq, Repr

abbrev Op := Operation Task Issuer

inductive TimeOut where
  | connectTimeOut (attempt : Attempt) (ip : String) (port : UInt16)
  | timeOut (attempt : Attempt)
  deriving DecidableEq, Repr

def TimeOut.attempt : TimeOut → Attempt
  | .connectTimeOut attempt _ _ => attempt
  | .timeOut attempt => attempt

/-- `serial` counts the calls of `run`; it is not in the source. -/
structure ModuleData where
  client : Option Nat
  socketEvent : SocketEvent
  timer : Timer TimeOut
  serial : Nat
  deriving DecidableEq, Repr

structure Request where
  attempt : Attempt
  bytes : List UInt8
  deriving DecidableEq, Repr

/-- The far side of a connection: the complete requests not answered yet and the
bytes sent by the server and not read yet. -/
structure Wire where
  requests : List Request
  inbound : List UInt8
  deriving DecidableEq, Repr

/-- What a run of the system shows: results, virtual hooks, cancels and answers. -/
inductive Event where
  | returned (attempt : Attempt) (state : ModState)
  | resumed (attempt : Attempt) (state : ModState)
  | connected (attempt : Attempt)
  | onConnectFailed (attempt : Attempt) (ip : String) (port : UInt16)
  | onSendReqFailed (attempt : Attempt)
  | onReadHeadFailed (attempt : Attempt)
  | onReadBodyFailed (attempt : Attempt)
  | onHandleTimeOutImpl (attempt : Attempt)
  | expired (timeOut : TimeOut)
  | cancelled (timeOut : TimeOut) (tasks : List Task)
  | onReadHeadImpl (attempt : Attempt) (head : List UInt8)
  | onReadBodyImpl (attempt : Attempt) (body : List UInt8)
  | answered (request : Request) (response : List UInt8)
  | nullClient (attempt : Attempt)
  deriving DecidableEq, Repr

/-- `get_resp_head_len` and `get_resp_body_len`; the latter is asked once the head
has been given to `on_read_head_impl` of the same attempt. -/
structure Config where
  respHeadLen : Nat → Nat
  respBodyLen : Attempt → List UInt8 → Nat

structure State where
  clients : Nat → TcpClient
  fresh : Nat
  wire : Nat → Wire
  pool : Pool
  data : Slot → ModuleData
  ops : Slot → List Op
  log : List Event

def initial (maxTimes : Int32) (checkTime : Int) : State where
  clients := fun _ => ⟨0,0,true,0,0⟩
  fresh := 0
  wire := fun _ => ⟨[],[]⟩
  pool := ⟨maxTimes,checkTime,[]⟩
  data := fun _ => ⟨none,.none,.idle,0⟩
  ops := fun _ => []
  log := []

/-- The points of the try block in `run` at which an exception can be thrown. -/
inductive Fault where
  | address
  | expires
  | wait
  | socket
  | connect
  deriving DecidableEq, Repr

/-- What the virtual functions and the system answer during a call of `run`. -/
structure RunArgs where
  clientTypeId : Int
  error : Nat → Bool
  server : Option (String × UInt16)
  fault : Option Fault
  request : List UInt8
  now : Int

/-- What the virtual functions answer during a completion handler. -/
structure Replies where
  request : List UInt8
  headOk : Bool
  bodyOk : Bool
  now : Int

namespace State

def setData (s : State) (slot : Slot) (data : ModuleData) : State :=
  { s with data := Function.update s.data slot data }

def setSocketEvent (s : State) (slot : Slot) (event : SocketEvent) : State :=
  s.setData slot { s.data slot with socketEvent := event }

def setTimer (s : State) (slot : Slot) (f : Timer TimeOut → Timer TimeOut) : State :=
  s.setData slot { s.data slot with timer := f (s.data slot).timer }

def setClient (s : State) (slot : Slot) (client : Option Nat) : State :=
  s.setData slot { s.data slot with client := client }

def setOps (s : State) (slot : Slot) (ops : List Op) : State :=
  { s with ops := Function.update s.ops slot ops }

def emit (s : State) (event : Event) : State := { s with log := s.log ++ [event] }

def cancelSocket (s : State) (socket : Nat) (issuer : Issuer) : State :=
  { s with ops := fun slot => (s.ops slot).map (·.cancel socket issuer) }

/-- Writes the client objects back; every socket closed meanwhile aborts its operations. -/
def commit (s : State) (issuer : Issuer) (h : Heap) : State :=
  h.closed.foldl (fun s socket => s.cancelSocket socket issuer) { s with clients := h.clients }

end State

/-- Starts an asynchronous operation on `client_` and opens the socket event. -/
def startOperation (slot : Slot) (attempt : Attempt) (stage : Stage) (s : State) : State :=
  match (s.data slot).client with
  | none => s.emit (.nullClient attempt)
  | some c =>
    (s.setOps slot (s.ops slot ++ [.start c ⟨attempt,stage⟩])).setSocketEvent slot .opened

def sendRequest (slot : Slot) (attempt : Attempt) (request : List UInt8) (s : State) : State :=
  startOperation slot attempt (.writeReq request) s

/-- The try block of `run`; each fault leaves what was done before it. -/
def openConnection (slot : Slot) (attempt : Attempt) (ip : String) (port : UInt16)
    (args : RunArgs) (s : State) : State :=
  let failed (s : State) := s.emit (.returned attempt modFailed)
  let armed := s.setTimer slot (.arm (.connectTimeOut attempt ip port))
  let created := { armed with
    clients := Function.update s.clients s.fresh ⟨0,args.clientTypeId,false,args.now,1⟩
    wire := Function.update s.wire s.fresh ⟨[],[]⟩
    fresh := s.fresh + 1 }.setClient slot (some s.fresh)
  match args.fault with
  | some .address | some .expires => failed s
  | some .wait => failed (s.setTimer slot .expiresFromNow)
  | some .socket => failed armed
  | some .connect => failed created
  | none => (startOperation slot attempt (.connect ip port) created).emit (.returned attempt modAsync)

/-- `data->client_ = client_pool_.get_client(..)`: the old pointer is dropped last. -/
def takeClient (slot : Slot) (args : RunArgs) (s : State) : State :=
  let found := getClient args.error args.clientTypeId s.pool ⟨s.clients,[]⟩
  let heap := ((s.data slot).client.map (release · found.2.2)).getD found.2.2
  ({ s with pool := found.2.1 }.commit (.slot slot) heap).setClient slot found.1

def run (slot : Slot) (args : RunArgs) (s : State) : State :=
  let attempt : Attempt := ⟨slot,(s.data slot).serial + 1⟩
  let s := s.setData slot { s.data slot with serial := (s.data slot).serial + 1 }
  if args.clientTypeId = -1 then s.emit (.returned attempt modFailed)
  else
    let s := takeClient slot args s
    match (s.data slot).client with
    | some _ =>
      (sendRequest slot attempt args.request (s.setTimer slot (.arm (.timeOut attempt)))).emit
        (.returned attempt modAsync)
    | none =>
      match args.server with
      | none => s.emit (.returned attempt modFailed)
      | some (ip,port) => openConnection slot attempt ip port args s

def cancelTimeOutTimer (slot : Slot) (s : State) : State := s.setTimer slot .cancel

def resume (attempt : Attempt) (state : ModState) (s : State) : State :=
  s.emit (.resumed attempt state)

/-- The head of every completion handler: a second call is ignored. -/
def entered (slot : Slot) (body : State → State) (s : State) : State :=
  if (s.data slot).socketEvent ≠ .opened then s else body (s.setSocketEvent slot .closed)

def onConnect (slot : Slot) (attempt : Attempt) (ip : String) (port : UInt16)
    (error : ErrorCode) (replies : Replies) : State → State :=
  entered slot fun s =>
    match error with
    | .aborted => resume attempt modTimeout s
    | .failed =>
      resume attempt modFailed ((cancelTimeOutTimer slot s).emit (.onConnectFailed attempt ip port))
    | .success =>
      sendRequest slot attempt replies.request
        ((cancelTimeOutTimer slot s).setTimer slot (.arm (.timeOut attempt)))

def onWriteReq (cfg : Config) (slot : Slot) (attempt : Attempt) (error : ErrorCode) :
    State → State :=
  entered slot fun s =>
    match error with
    | .aborted => resume attempt modTimeout s
    | .failed => resume attempt modFailed ((cancelTimeOutTimer slot s).emit (.onSendReqFailed attempt))
    | .success => startOperation slot attempt (.respHead (cfg.respHeadLen slot.module)) s

def closeClient (slot : Slot) (attempt : Attempt) (s : State) : State :=
  match (s.data slot).client with
  | none => s.emit (.nullClient attempt)
  | some c => s.commit (.slot slot) (close c ⟨s.clients,[]⟩)

def onReadHeadFailed (slot : Slot) (attempt : Attempt) (s : State) : State :=
  resume attempt modFailed
    ((closeClient slot attempt (cancelTimeOutTimer slot s)).emit (.onReadHeadFailed attempt))

def onRecvRespHead (cfg : Config) (slot : Slot) (attempt : Attempt) (head : List UInt8)
    (error : ErrorCode) (replies : Replies) : State → State :=
  entered slot fun s =>
    match error with
    | .aborted => resume attempt modTimeout s
    | .failed => onReadHeadFailed slot attempt s
    | .success =>
      let s := s.emit (.onReadHeadImpl attempt head)
      if replies.headOk then startOperation slot attempt (.respBody (cfg.respBodyLen attempt head)) s
      else onReadHeadFailed slot attempt s

/-- `client_pool_.recollect(data->client_)` and `data->client_.reset()`. -/
def recollectClient (slot : Slot) (now : Int) (s : State) : State :=
  let collected := recollect now (s.data slot).client s.pool ⟨s.clients,[]⟩
  let heap := ((s.data slot).client.map (release · collected.2)).getD collected.2
  ({ s with pool := collected.1 }.commit (.slot slot) heap).setClient slot none

def onRecvRespBody (slot : Slot) (attempt : Attempt) (body : List UInt8) (error : ErrorCode)
    (replies : Replies) : State → State :=
  entered slot fun s =>
    match error with
    | .aborted => resume attempt modTimeout s
    | .failed => resume attempt modFailed ((cancelTimeOutTimer slot s).emit (.onReadBodyFailed attempt))
    | .success =>
      resume attempt (if replies.bodyOk then modSucceed else modFailed)
        ((recollectClient slot replies.now (cancelTimeOutTimer slot s)).emit
          (.onReadBodyImpl attempt body))

/-- The cancel shared by both time-out handlers, on whatever `client_` is now. -/
def cancelClient (slot : Slot) (timeOut : TimeOut) (s : State) : State :=
  let s := s.emit (.expired timeOut)
  match (s.data slot).client with
  | none => s
  | some c =>
    (s.emit (.cancelled timeOut (((s.ops slot).filter (·.socket = c)).map (·.task)))).cancelSocket c (.slot slot)

def onHandleConnectTimeOut (slot : Slot) (attempt : Attempt) (ip : String) (port : UInt16)
    (error : ErrorCode) (s : State) : State :=
  if error ≠ .success then s
  else (cancelClient slot (.connectTimeOut attempt ip port) s).emit (.onConnectFailed attempt ip port)

def onHandleTimeOut (slot : Slot) (attempt : Attempt) (error : ErrorCode) (s : State) : State :=
  if error ≠ .success then s
  else (cancelClient slot (.timeOut attempt) s).emit (.onHandleTimeOutImpl attempt)

def handler (cfg : Config) (slot : Slot) (op : Op) (error : ErrorCode) (replies : Replies) :
    State → State :=
  match op.task.stage with
  | .connect ip port => onConnect slot op.task.attempt ip port error replies
  | .writeReq _ => onWriteReq cfg slot op.task.attempt error
  | .respHead _ => onRecvRespHead cfg slot op.task.attempt op.received error replies
  | .respBody _ => onRecvRespBody slot op.task.attempt op.received error replies

def timeOutHandler (slot : Slot) (error : ErrorCode) : TimeOut → State → State
  | .connectTimeOut attempt ip port => onHandleConnectTimeOut slot attempt ip port error
  | .timeOut attempt => onHandleTimeOut slot attempt error

/-- An `async_read` succeeds exactly when all its bytes have been transferred. -/
def mayComplete (op : Op) : ErrorCode → Bool
  | .success =>
    match op.task.stage with
    | .respHead len | .respBody len => op.received.length == len
    | _ => true
  | _ => true

/-- What the completion of an operation tells the other side and the log: a connect
that succeeds, and a request that has been written completely. -/
def delivered (op : Op) (code : ErrorCode) (s : State) : State :=
  match code, op.task.stage with
  | .success, .connect _ _ => s.emit (.connected op.task.attempt)
  | .success, .writeReq request =>
    let wire := s.wire op.socket
    let received : Wire := { wire with requests := wire.requests ++ [⟨op.task.attempt,request⟩] }
    { s with wire := Function.update s.wire op.socket received }
  | _, _ => s

/-- The steps of one `ModuleData`: its calls, its operations and its timer. -/
inductive LocalAction where
  | run (args : RunArgs)
  | complete (index : Nat) (code : ErrorCode)
  | transfer (index count : Nat)
  | handler (index : Nat) (replies : Replies)
  | expire
  | timeOutHandler (index : Nat)

inductive Action where
  | on (slot : Slot) (action : LocalAction)
  | answer (socket : Nat) (response : List UInt8)
  | checkClients (now : Int) (error : Int → Nat → Bool)

def complete (slot : Slot) (index : Nat) (code : ErrorCode) (s : State) : State :=
  match (s.ops slot)[index]? with
  | none => s
  | some op =>
    if op.result = none ∧ mayComplete op code then
      delivered op code (s.setOps slot ((s.ops slot).set index (op.complete code)))
    else s

def wants (op : Op) : Nat :=
  match op.task.stage with
  | .respHead len | .respBody len => len - op.received.length
  | _ => 0

def transfer (slot : Slot) (index count : Nat) (s : State) : State :=
  match (s.ops slot)[index]? with
  | none => s
  | some op =>
    if op.result = none then
      let wire := s.wire op.socket
      let amount := min count (wants op)
      let filled : Op := { op with received := op.received ++ wire.inbound.take amount }
      let rest : Wire := { wire with inbound := wire.inbound.drop amount }
      { s.setOps slot ((s.ops slot).set index filled) with
        wire := Function.update s.wire op.socket rest }
    else s

def runHandler (cfg : Config) (slot : Slot) (index : Nat) (replies : Replies) (s : State) : State :=
  match (s.ops slot)[index]? with
  | none => s
  | some op =>
    match op.result with
    | none => s
    | some error => handler cfg slot op error replies (s.setOps slot ((s.ops slot).eraseIdx index))

def runTimeOut (slot : Slot) (index : Nat) (s : State) : State :=
  match (s.data slot).timer.queued[index]? with
  | none => s
  | some (timeOut,error) => timeOutHandler slot error timeOut (s.setTimer slot (.take index))

def localStep (cfg : Config) (slot : Slot) (s : State) : LocalAction → State
  | .run args => run slot args s
  | .complete index code => complete slot index code s
  | .transfer index count => transfer slot index count s
  | .handler index replies => runHandler cfg slot index replies s
  | .expire => s.setTimer slot .expire
  | .timeOutHandler index => runTimeOut slot index s

/-- The server answers the oldest complete request of a connection with one response
of the length the attempt will ask for. -/
def answer (cfg : Config) (socket : Nat) (response : List UInt8) (s : State) : State :=
  match (s.wire socket).requests with
  | [] => s
  | request :: rest =>
    let headLen := cfg.respHeadLen request.attempt.slot.module
    if response.length = headLen + cfg.respBodyLen request.attempt (response.take headLen) then
      { s.emit (.answered request response) with
        wire := Function.update s.wire socket ⟨rest,(s.wire socket).inbound ++ response⟩ }
    else s

def sweepPool (now : Int) (error : Int → Nat → Bool) (s : State) : State :=
  let checked := checkClients now error s.pool ⟨s.clients,[]⟩
  { s with pool := checked.1 }.commit .pool checked.2

def step (cfg : Config) (s : State) : Action → State
  | .on slot action => localStep cfg slot s action
  | .answer socket response => answer cfg socket response s
  | .checkClients now error => sweepPool now error s

/-- No two branches share the TcpModule: the Fsm runs it again in a context only once its
last attempt there has resumed. -/
def Sequential (s : State) : Action → Prop
  | .on slot (.run _) => s.ops slot = []
  | _ => True

instance (s : State) (a : Action) : Decidable (Sequential s a) :=
  match a with
  | .on slot (.run _) => inferInstanceAs (Decidable (s.ops slot = []))
  | .on _ (.complete _ _) | .on _ (.transfer _ _) | .on _ (.handler _ _) | .on _ .expire
  | .on _ (.timeOutHandler _) | .answer _ _ | .checkClients _ _ => isTrue trivial

theorem sequential_other (s : State) (a : Action) (other : ∀ slot args, a ≠ .on slot (.run args)) : Sequential s a := by
  unfold Sequential
  split
  · exact absurd rfl (other _ _)
  · trivial

section Fields

variable (s : State) (slot other : Slot) (issuer : Issuer) (h : Heap)

@[simp] theorem setData_same (data : ModuleData) : (s.setData slot data).data slot = data := by
  simp [State.setData]

theorem setData_other (data : ModuleData) (apart : other ≠ slot) :
    (s.setData slot data).data other = s.data other := by simp [State.setData,apart]

@[simp] theorem setOps_same (ops : List Op) : (s.setOps slot ops).ops slot = ops := by
  simp [State.setOps]

/-- Closing sockets changes nothing but the operations on them. -/
theorem commit_eq : s.commit issuer h =
    { s with
      clients := h.clients
      ops := fun slot => (s.ops slot).map (·.cancelAll h.closed issuer) } := by
  unfold State.commit
  generalize h.clients = clients
  induction h.closed generalizing s with
  | nil => simp [Operation.cancelAll]
  | cons socket rest ih =>
    rw [List.foldl_cons]
    simpa [State.cancelSocket,Operation.cancelAll,Function.comp_def] using
      ih (s.cancelSocket socket issuer)

@[simp] theorem commit_data : (s.commit issuer h).data = s.data := by rw [commit_eq]
@[simp] theorem commit_log : (s.commit issuer h).log = s.log := by rw [commit_eq]
@[simp] theorem commit_pool : (s.commit issuer h).pool = s.pool := by rw [commit_eq]
@[simp] theorem commit_wire : (s.commit issuer h).wire = s.wire := by rw [commit_eq]
@[simp] theorem commit_fresh : (s.commit issuer h).fresh = s.fresh := by rw [commit_eq]

theorem commit_ops : (s.commit issuer h).ops slot =
    (s.ops slot).map (·.cancelAll h.closed issuer) := by rw [commit_eq]

end Fields

section Run

variable (s : State) (slot : Slot) (args : RunArgs)

def counted : State := s.setData slot { s.data slot with serial := (s.data slot).serial + 1 }

/-- What `run` does once it has asked the pool. -/
def runTaken (a : Attempt) : State :=
  match (s.data slot).client with
  | some _ =>
    (sendRequest slot a args.request (s.setTimer slot (.arm (.timeOut a)))).emit (.returned a modAsync)
  | none =>
    match args.server with
    | none => s.emit (.returned a modFailed)
    | some (ip,port) => openConnection slot a ip port args s

theorem run_eq : run slot args s = if args.clientTypeId = -1 then
      (counted s slot).emit (.returned ⟨slot,(s.data slot).serial + 1⟩ modFailed)
    else runTaken (takeClient slot args (counted s slot)) slot args ⟨slot,(s.data slot).serial + 1⟩ := rfl

end Run

theorem only_mem {op : Op} {ops : List Op} (only : ops = [op]) : op ∈ ops := by
  rw [only]
  exact List.mem_singleton_self op

end Zerver.TcpModule
