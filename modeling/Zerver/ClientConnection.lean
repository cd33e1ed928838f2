import Mathlib.Logic.Function.Basic
import Zerver.Module
import Zerver.Operation
import Zerver.Schedule

/-! One client connection: `module/request_module.cc`, `module/response_module.cc` and
the succession of contexts in `Fsm::_end_request`. All contexts share the socket; each
has its own timers. Which module runs next, and when a context ends, is the schedule's
choice: the modules in between do not use the client socket, and a module that does is
entered only once the one before it has resumed. -/
namespace Zerver.ClientConnection

open Zerver.Asio

/-- The completion handler of an operation on the client socket. -/
inductive Stage where
  | version (len : UInt32)
  | head (len : UInt32)
  | body (len : UInt32)
  | resp (bytes : List UInt8)
  deriving DecidableEq, Repr

structure Task where
  attempt : Attempt
  stage : Stage
  deriving DecidableEq, Repr

/-- `on_read_time_out` with its flag, and `on_write_time_out`. -/
inductive TimeOut where
  | readTimeOut (flag : UInt32) (attempt : Attempt)
  | writeTimeOut (attempt : Attempt)
  deriving DecidableEq, Repr

abbrev Op := Operation Task TimeOut

/-- `serial` counts the calls of `run`; it is not in the source. -/
structure ModuleData where
  timer : Timer TimeOut
  serial : Nat
  deriving DecidableEq, Repr

inductive Event where
  | returned (attempt : Attempt) (state : ModState)
  | resumed (attempt : Attempt) (state : ModState)
  | exited (context : Nat)
  | endRequest (context : Nat)
  | onReadVersionImpl (attempt : Attempt) (version : List UInt8)
  | onReadHeadImpl (attempt : Attempt) (head : List UInt8)
  | onReadBodyImpl (attempt : Attempt) (body : List UInt8)
  | onReadVersionFailed (attempt : Attempt)
  | onReadHeadFailed (attempt : Attempt)
  | onReadBodyFailed (attempt : Attempt)
  | onReadVersionTimeOut (attempt : Attempt)
  | onReadHeadAndBodyTimeOut (attempt : Attempt)
  | onWriteRespSucceed (attempt : Attempt)
  | onWriteRespFailed (attempt : Attempt)
  | onWriteRespTimeOut (attempt : Attempt)
  | cancelled (timeOut : TimeOut) (task : Option Task)
  deriving DecidableEq, Repr

/-- `op` is the outstanding operation on the socket, `inbound` what the client has sent
and nobody has read, and `finished` that the last context ended with `exit()`. -/
structure State where
  context : Nat
  finished : Bool
  exits : Nat → Bool
  data : Slot → ModuleData
  op : Option Op
  inbound : List UInt8
  log : List Event

def initial : State where
  context := 0
  finished := false
  exits := fun _ => false
  data := fun _ => ⟨.idle,0⟩
  op := none
  inbound := []
  log := []

/-- What the virtual functions answer during a completion handler: the result of
`on_read_*_impl`, the length of the next read and `get_succeed_state`. -/
structure Replies where
  ok : Bool
  len : UInt32
  state : ModState
  deriving DecidableEq, Repr

namespace State

def emit (s : State) (event : Event) : State := { s with log := s.log ++ [event] }

def setTimer (s : State) (slot : Slot) (f : Timer TimeOut → Timer TimeOut) : State :=
  { s with data := Function.update s.data slot { s.data slot with timer := f (s.data slot).timer } }

/-- The start of an asynchronous read or write on the socket. -/
def start (s : State) (attempt : Attempt) (stage : Stage) : State :=
  { s with op := some (.start 0 ⟨attempt,stage⟩) }

def exit (s : State) (context : Nat) : State :=
  { s with exits := Function.update s.exits context true }.emit (.exited context)

end State

def resume (attempt : Attempt) (state : ModState) (s : State) : State :=
  s.emit (.resumed attempt state)

def cancelTimeOutTimer (attempt : Attempt) (s : State) : State := s.setTimer attempt.slot .cancel

/-- The branch of every completion handler for `operation_aborted`. -/
def timedOut (attempt : Attempt) (s : State) : State :=
  resume attempt modTimeout (s.exit attempt.slot.context)

/-- The branch for any other error, and for a read that is not accepted. -/
def failed (attempt : Attempt) (hook : Event) (s : State) : State :=
  resume attempt modFailed (((cancelTimeOutTimer attempt s).emit hook).exit attempt.slot.context)

/-- The shape of the three read handlers: `impl` is the call of `on_read_*_impl`, made
only when the read succeeded, `hook` that of `on_read_*_failed`. -/
def onRead (attempt : Attempt) (impl hook : Event) (error : ErrorCode) (ok : Bool)
    (accepted : State → State) (s : State) : State :=
  match error with
  | .aborted => timedOut attempt s
  | .failed => failed attempt hook s
  | .success => if ok then accepted (s.emit impl) else failed attempt hook (s.emit impl)

def onReadVersion (attempt : Attempt) (version : List UInt8) (error : ErrorCode)
    (replies : Replies) : State → State :=
  onRead attempt (.onReadVersionImpl attempt version) (.onReadVersionFailed attempt) error replies.ok
    fun s => ((cancelTimeOutTimer attempt s).setTimer attempt.slot
      (.arm (.readTimeOut 2 attempt))).start attempt (.head replies.len)

def onReadHead (attempt : Attempt) (head : List UInt8) (error : ErrorCode) (replies : Replies) :
    State → State :=
  onRead attempt (.onReadHeadImpl attempt head) (.onReadHeadFailed attempt) error replies.ok
    fun s => s.start attempt (.body replies.len)

def onReadBody (attempt : Attempt) (body : List UInt8) (error : ErrorCode) (replies : Replies) :
    State → State :=
  onRead attempt (.onReadBodyImpl attempt body) (.onReadBodyFailed attempt) error replies.ok
    fun s => resume attempt replies.state (cancelTimeOutTimer attempt s)

def onWriteResp (attempt : Attempt) (error : ErrorCode) (s : State) : State :=
  match error with
  | .success =>
    resume attempt modSucceed ((cancelTimeOutTimer attempt s).emit (.onWriteRespSucceed attempt))
  | .aborted => timedOut attempt s
  | .failed => failed attempt (.onWriteRespFailed attempt) s

/-- `context->conn()->socket().cancel()`: it reaches whatever is outstanding. -/
def cancelSocket (timeOut : TimeOut) (s : State) : State :=
  { s.emit (.cancelled timeOut (s.op.map (·.task))) with op := s.op.map (·.cancel 0 timeOut) }

def onReadTimeOut (flag : UInt32) (attempt : Attempt) (error : ErrorCode) (s : State) : State :=
  if error ≠ .success then s
  else cancelSocket (.readTimeOut flag attempt) (s.emit
    (if 1 = flag then .onReadVersionTimeOut attempt else .onReadHeadAndBodyTimeOut attempt))

def onWriteTimeOut (attempt : Attempt) (error : ErrorCode) (s : State) : State :=
  if error ≠ .success then s
  else cancelSocket (.writeTimeOut attempt) (s.emit (.onWriteRespTimeOut attempt))

/-- The call of `run` of a module of the current context, counted. -/
def called (module : Nat) (s : State) : Attempt × State :=
  let slot : Slot := ⟨s.context,module⟩
  let serial := (s.data slot).serial + 1
  (⟨slot,serial⟩,{ s with data := Function.update s.data slot { s.data slot with serial := serial } })

def runRequest (module : Nat) (versionLen : UInt32) (s : State) : State :=
  let (attempt,s) := called module s
  ((s.setTimer attempt.slot (.arm (.readTimeOut 1 attempt))).start attempt (.version versionLen)).emit
    (.returned attempt modAsync)

/-- `ResponseModule::run`; `get_resp` may give no response. -/
def runResponse (module : Nat) (resp : Option (List UInt8)) (s : State) : State :=
  let (attempt,s) := called module s
  match resp with
  | none => s.emit (.returned attempt modFailed)
  | some bytes =>
    ((s.setTimer attempt.slot (.arm (.writeTimeOut attempt))).start attempt (.resp bytes)).emit
      (.returned attempt modAsync)

/-- `Fsm::_end_request`: a fresh context on the same connection, unless `exit()` was called. -/
def endRequest (s : State) : State :=
  let ended := s.emit (.endRequest s.context)
  if s.exits s.context then { ended with finished := true } else { ended with context := s.context + 1 }

def handler (op : Op) (error : ErrorCode) (replies : Replies) : State → State :=
  match op.task.stage with
  | .version _ => onReadVersion op.task.attempt op.received error replies
  | .head _ => onReadHead op.task.attempt op.received error replies
  | .body _ => onReadBody op.task.attempt op.received error replies
  | .resp _ => onWriteResp op.task.attempt error

def timeOutHandler (error : ErrorCode) : TimeOut → State → State
  | .readTimeOut flag attempt => onReadTimeOut flag attempt error
  | .writeTimeOut attempt => onWriteTimeOut attempt error

def wants (op : Op) : Nat :=
  match op.task.stage with
  | .version len | .head len | .body len => len.toNat - op.received.length
  | .resp _ => 0

/-- An `async_read` succeeds exactly when all its bytes have been transferred. -/
def mayComplete (op : Op) : ErrorCode → Bool
  | .success =>
    match op.task.stage with
    | .version len | .head len | .body len => op.received.length == len.toNat
    | .resp _ => true
  | _ => true

inductive Action where
  | runRequest (module : Nat) (versionLen : UInt32)
  | runResponse (module : Nat) (resp : Option (List UInt8))
  | endRequest
  | send (bytes : List UInt8)
  | transfer (count : Nat)
  | complete (code : ErrorCode)
  | handler (replies : Replies)
  | expire (slot : Slot)
  | timeOutHandler (slot : Slot) (index : Nat)
  deriving DecidableEq, Repr

/-- A module of the current context may be entered: none has control of the socket. -/
def free (s : State) : Bool := s.op.isNone && !s.finished

def transfer (count : Nat) (s : State) : State :=
  match s.op with
  | none => s
  | some op =>
    if op.result = none then
      let amount := min count (wants op)
      { s with
        op := some { op with received := op.received ++ s.inbound.take amount }
        inbound := s.inbound.drop amount }
    else s

def complete (code : ErrorCode) (s : State) : State :=
  match s.op with
  | none => s
  | some op =>
    if op.result = none ∧ mayComplete op code then { s with op := some (op.complete code) } else s

def runHandler (replies : Replies) (s : State) : State :=
  match s.op with
  | none => s
  | some op =>
    match op.result with
    | none => s
    | some error => handler op error replies { s with op := none }

def runTimeOut (slot : Slot) (index : Nat) (s : State) : State :=
  match (s.data slot).timer.queued[index]? with
  | none => s
  | some (timeOut,error) => timeOutHandler error timeOut (s.setTimer slot (.take index))

def step (s : State) : Action → State
  | .runRequest module versionLen => if free s then runRequest module versionLen s else s
  | .runResponse module resp => if free s then runResponse module resp s else s
  | .endRequest => if free s then endRequest s else s
  | .send bytes => { s with inbound := s.inbound ++ bytes }
  | .transfer count => transfer count s
  | .complete code => complete code s
  | .handler replies => runHandler replies s
  | .expire slot => s.setTimer slot .expire
  | .timeOutHandler slot index => runTimeOut slot index s

end Zerver.ClientConnection
