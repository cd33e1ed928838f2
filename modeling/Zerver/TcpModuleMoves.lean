import Zerver.TcpModuleControl

/-! What one step of the pooled TcpModules can do. Clients are in one place only, so
a close or cancel reaches no operation of another `ModuleData`; under that invariant
every step is one of the moves below, with its next state written out. -/
namespace Zerver.TcpModule

open Zerver.Asio Zerver.TcpClientPool Zerver.Schedule

/-- Each client is in at most one place: one position of one deque, or one `client_`. -/
structure Owned (s : State) : Prop where
  nodup : (pooled s.pool.freeClients).Nodup
  pooledFresh : ∀ c ∈ pooled s.pool.freeClients, c < s.fresh
  heldFresh : ∀ slot c, (s.data slot).client = some c → c < s.fresh
  apart : ∀ slot c, (s.data slot).client = some c → c ∉ pooled s.pool.freeClients
  unique : ∀ slot other c, (s.data slot).client = some c → (s.data other).client = some c →
    slot = other

theorem initial_owned (maxTimes : Int32) (checkTime : Int) : Owned (initial maxTimes checkTime) := by
  constructor <;> simp [initial,pooled]

/-- A timer holds handlers of attempts of its own `ModuleData` only. -/
def Bound (slot : Slot) (serial : Nat) (timeOut : TimeOut) : Prop :=
  timeOut.attempt.slot = slot ∧ timeOut.attempt.serial ≤ serial

/-- The invariant every move starts from. -/
structure Sound (owed : Option Attempt) (s : State) : Prop where
  balanced : Control.Balanced owed s
  owned : Owned s
  timers : ∀ slot, (s.data slot).timer.All (Bound slot (s.data slot).serial)

theorem Sound.socket (sound : Sound owed s) (slot : Slot) (op : Op) (member : op ∈ s.ops slot) :
    (s.data slot).client = some op.socket := by
  by_cases opened : (s.data slot).socketEvent = .opened
  · obtain ⟨only,eq,_,client⟩ := (sound.balanced.flagged slot).opened opened
    rw [eq,List.mem_singleton] at member
    rw [member]
    exact client
  · simp [(sound.balanced.flagged slot).quiet opened] at member

theorem Sound.attempt (sound : Sound owed s) (slot : Slot) (op : Op) (member : op ∈ s.ops slot) :
    op.task.attempt = ⟨slot,(s.data slot).serial⟩ := by
  by_cases opened : (s.data slot).socketEvent = .opened
  · obtain ⟨only,eq,attempt,_⟩ := (sound.balanced.flagged slot).opened opened
    rw [eq,List.mem_singleton] at member
    rw [member]
    exact attempt
  · simp [(sound.balanced.flagged slot).quiet opened] at member

theorem commit_idle (s : State) (issuer : Issuer) (h : Heap)
    (idle : ∀ slot op, op ∈ s.ops slot → op.socket ∉ h.closed) :
    s.commit issuer h = { s with clients := h.clients } := by
  rw [commit_eq]
  congr
  funext slot
  refine (List.map_congr_left ?_).trans (List.map_id _)
  intro op member
  exact Operation.cancelAll_apart _ _ _ (idle slot op member)

/-- The step's effect on one `ModuleData`, its operations and the log. -/
def State.install (s : State) (slot : Slot) (data : ModuleData) (ops : List Op)
    (events : List Event) : State :=
  { s with
    data := Function.update s.data slot data
    ops := Function.update s.ops slot ops
    log := s.log ++ events }

def State.store (s : State) (clients : Nat → TcpClient) (pool : Pool) : State :=
  { s with clients := clients, pool := pool }

/-- A new client object with a connection of its own. -/
def State.create (s : State) : State :=
  { s with fresh := s.fresh + 1, wire := Function.update s.wire s.fresh ⟨[],[]⟩ }

def failureHook (task : Task) : Event :=
  match task.stage with
  | .connect ip port => .onConnectFailed task.attempt ip port
  | .writeReq _ => .onSendReqFailed task.attempt
  | .respHead _ => .onReadHeadFailed task.attempt
  | .respBody _ => .onReadBodyFailed task.attempt

/-- The completion handlers that keep the client: new data, operations and events. -/
inductive Handled (cfg : Config) (op : Op) (replies : Replies) (d : ModuleData) :
    ErrorCode → ModuleData → List Op → List Event → Prop where
  | aborted : Handled cfg op replies d .aborted { d with socketEvent := .closed } []
      [.resumed op.task.attempt modTimeout]
  | failed : Handled cfg op replies d .failed
      { d with socketEvent := .closed, timer := d.timer.cancel } []
      [failureHook op.task,.resumed op.task.attempt modFailed]
  | connected : op.task.stage = .connect ip port → Handled cfg op replies d .success
      { d with socketEvent := .opened, timer := d.timer.cancel.arm (.timeOut op.task.attempt) }
      [.start op.socket ⟨op.task.attempt,.writeReq replies.request⟩] []
  | written : op.task.stage = .writeReq request → Handled cfg op replies d .success
      { d with socketEvent := .opened }
      [.start op.socket ⟨op.task.attempt,.respHead (cfg.respHeadLen op.task.attempt.slot.module)⟩] []
  | headAccepted : op.task.stage = .respHead len → Handled cfg op replies d .success
      { d with socketEvent := .opened }
      [.start op.socket ⟨op.task.attempt,.respBody (cfg.respBodyLen op.task.attempt op.received)⟩]
      [.onReadHeadImpl op.task.attempt op.received]
  | headRejected : op.task.stage = .respHead len → Handled cfg op replies d .success
      { d with socketEvent := .closed, timer := d.timer.cancel } []
      [.onReadHeadImpl op.task.attempt op.received,.onReadHeadFailed op.task.attempt,
        .resumed op.task.attempt modFailed]

/-- The outcomes of `run` that use no new client, by what `get_client` returned. -/
inductive Ran (args : RunArgs) (slot : Slot) (d : ModuleData) :
    Option Nat → ModuleData → List Op → List Event → Prop where
  | reused : Ran args slot d (some c)
      ⟨some c,.opened,d.timer.arm (.timeOut ⟨slot,d.serial + 1⟩),d.serial + 1⟩
      [.start c ⟨⟨slot,d.serial + 1⟩,.writeReq args.request⟩]
      [.returned ⟨slot,d.serial + 1⟩ modAsync]
  | failed : timer = d.timer ∨ timer = d.timer.cancel ∨
      timer = d.timer.arm (.connectTimeOut ⟨slot,d.serial + 1⟩ ip port) →
      Ran args slot d none ⟨none,d.socketEvent,timer,d.serial + 1⟩ []
        [.returned ⟨slot,d.serial + 1⟩ modFailed]

/-- The outcomes of `run` after a new client has been constructed. -/
inductive Opened (slot : Slot) (d : ModuleData) (fresh : Nat) :
    ModuleData → List Op → List Event → Prop where
  | connecting : Opened slot d fresh
      ⟨some fresh,.opened,d.timer.arm (.connectTimeOut ⟨slot,d.serial + 1⟩ ip port),d.serial + 1⟩
      [.start fresh ⟨⟨slot,d.serial + 1⟩,.connect ip port⟩]
      [.returned ⟨slot,d.serial + 1⟩ modAsync]
  | failed : Opened slot d fresh
      ⟨some fresh,d.socketEvent,d.timer.arm (.connectTimeOut ⟨slot,d.serial + 1⟩ ip port),d.serial + 1⟩
      [] [.returned ⟨slot,d.serial + 1⟩ modFailed]

def timeOutHook : TimeOut → Event
  | .connectTimeOut attempt ip port => .onConnectFailed attempt ip port
  | .timeOut attempt => .onHandleTimeOutImpl attempt

/-- What a time-out handler that runs with no error does to the operations found. -/
inductive Fired (slot : Slot) (timeOut : TimeOut) (ops : List Op) :
    Option Nat → List Op → List Event → Prop where
  | cancelled : Fired slot timeOut ops (some c) (ops.map (·.cancel c (.slot slot)))
      [.expired timeOut,.cancelled timeOut (ops.map (·.task)),timeOutHook timeOut]
  | missing : Fired slot timeOut ops none ops [.expired timeOut,timeOutHook timeOut]

inductive Move (cfg : Config) (s : State) : Action → State → Prop where
  | stay : Move cfg s a s
  | rejected : s.ops slot = [] → Move cfg s (.on slot (.run args))
      (s.install slot { s.data slot with serial := (s.data slot).serial + 1 } []
        [.returned ⟨slot,(s.data slot).serial + 1⟩ modFailed])
  | ran (dropped : List Nat) : s.ops slot = [] →
      (pooled s.pool.freeClients).Perm (dropped ++ (found.toList ++ pooled pool.freeClients)) →
      Ran args slot (s.data slot) found data ops events →
      Move cfg s (.on slot (.run args)) ((s.store clients pool).install slot data ops events)
  | opened (dropped : List Nat) : s.ops slot = [] →
      (pooled s.pool.freeClients).Perm (dropped ++ pooled pool.freeClients) →
      Opened slot (s.data slot) s.fresh data ops events →
      Move cfg s (.on slot (.run args)) ((s.store clients pool).create.install slot data ops events)
  | completed : s.ops slot = [op] → op.result = none → mayComplete op code = true →
      Move cfg s (.on slot (.complete 0 code))
        (delivered op code (s.setOps slot [op.complete code]))
  | transferred : s.ops slot = [op] → op.result = none → amount ≤ wants op →
      Move cfg s (.on slot (.transfer 0 count))
        { s.setOps slot [{ op with received := op.received ++ (s.wire op.socket).inbound.take amount }] with
          wire := Function.update s.wire op.socket
            ⟨(s.wire op.socket).requests,(s.wire op.socket).inbound.drop amount⟩ }
  | handled : s.ops slot = [op] → op.result = some error → (s.data slot).socketEvent = .opened →
      op.task.attempt = ⟨slot,(s.data slot).serial⟩ → (s.data slot).client = some op.socket →
      Handled cfg op replies (s.data slot) error data ops events →
      Move cfg s (.on slot (.handler 0 replies)) ((s.store clients s.pool).install slot data ops events)
  | bodyRead : s.ops slot = [op] → op.result = some .success → (s.data slot).socketEvent = .opened →
      op.task.attempt = ⟨slot,(s.data slot).serial⟩ → (s.data slot).client = some op.socket →
      op.task.stage = .respBody len →
      (pooled pool.freeClients).Perm (op.socket :: pooled s.pool.freeClients) →
      Move cfg s (.on slot (.handler 0 replies)) ((s.store clients pool).install slot
        { s.data slot with client := none, socketEvent := .closed, timer := (s.data slot).timer.cancel } []
        [.onReadBodyImpl op.task.attempt op.received,
          .resumed op.task.attempt (if replies.bodyOk then modSucceed else modFailed)])
  | expired : Move cfg s (.on slot .expire) (s.setTimer slot .expire)
  | ignored : (s.data slot).timer.queued[index]? = some (timeOut,error) → error ≠ .success →
      Move cfg s (.on slot (.timeOutHandler index)) (s.setTimer slot (.take index))
  | fired : (s.data slot).timer.queued[index]? = some (timeOut,.success) →
      Fired slot timeOut (s.ops slot) (s.data slot).client ops events →
      Move cfg s (.on slot (.timeOutHandler index))
        (s.install slot { s.data slot with timer := (s.data slot).timer.take index } ops events)
  | answered : (s.wire socket).requests = request :: rest →
      response.length = cfg.respHeadLen request.attempt.slot.module +
        cfg.respBodyLen request.attempt (response.take (cfg.respHeadLen request.attempt.slot.module)) →
      Move cfg s (.answer socket response)
        { s.emit (.answered request response) with
          wire := Function.update s.wire socket ⟨rest,(s.wire socket).inbound ++ response⟩ }
  | swept : (pooled pool.freeClients).Sublist (pooled s.pool.freeClients) →
      Move cfg s (.checkClients now error) (s.store clients pool)

section Elsewhere

variable {owed : Option Attempt} {s : State} {slot : Slot} {c : Nat}

theorem Sound.unpooled (sound : Sound owed s) (op : Op) (member : op ∈ s.ops slot) :
    op.socket ∉ pooled s.pool.freeClients :=
  sound.owned.apart slot _ (sound.socket slot op member)

theorem Sound.holder (sound : Sound owed s) (held : (s.data slot).client = some c) (other : Slot)
    (op : Op) (member : op ∈ s.ops other) (same : op.socket = c) : other = slot :=
  sound.owned.unique other slot c (same ▸ sound.socket other op member) held

theorem Sound.single (sound : Sound owed s) (found : (s.ops slot)[index]? = some op) :
    index = 0 ∧ s.ops slot = [op] ∧ (s.data slot).socketEvent = .opened ∧
      op.task.attempt = ⟨slot,(s.data slot).serial⟩ ∧ (s.data slot).client = some op.socket := by
  by_cases opened : (s.data slot).socketEvent = .opened
  · obtain ⟨only,eq,attempt,client⟩ := (sound.balanced.flagged slot).opened opened
    rw [eq,List.getElem?_singleton,Option.ite_none_right_eq_some] at found
    obtain ⟨first,same⟩ := found
    obtain rfl : only = op := Option.some.inj same
    exact ⟨first,eq,opened,attempt,client⟩
  · simp [(sound.balanced.flagged slot).quiet opened] at found

end Elsewhere

theorem cancelSocket_held (sound : Sound owed s) (held : (s.data slot).client = some c) :
    (s.cancelSocket c (.slot slot)).ops =
      Function.update s.ops slot ((s.ops slot).map (·.cancel c (.slot slot))) := by
  funext other
  by_cases eq : other = slot
  · subst other
    simp [State.cancelSocket]
  · simp only [State.cancelSocket,Function.update_of_ne eq]
    refine (List.map_congr_left ?_).trans (List.map_id _)
    intro op member
    exact Operation.cancel_other _ _ _ fun same => eq (sound.holder held other op member same)

theorem complete_move (cfg : Config) (sound : Sound none s) (slot : Slot) (index : Nat)
    (code : ErrorCode) : Move cfg s (.on slot (.complete index code)) (complete slot index code s) := by
  unfold complete
  split
  · exact .stay
  · rename_i op found
    obtain ⟨rfl,only,_⟩ := sound.single found
    split
    · rename_i enabled
      have move : Move cfg s _ _ := .completed only enabled.1 enabled.2
      simpa [only] using move
    · exact .stay

theorem transfer_move (cfg : Config) (sound : Sound none s) (slot : Slot) (index count : Nat) :
    Move cfg s (.on slot (.transfer index count)) (transfer slot index count s) := by
  unfold transfer
  split
  · exact .stay
  · rename_i op found
    obtain ⟨rfl,only,_⟩ := sound.single found
    split
    · rename_i idle
      have move : Move cfg s (.on slot (.transfer 0 count)) _ :=
        .transferred only idle (Nat.min_le_right count (wants op))
      simpa [only] using move
    · exact .stay

theorem answer_move (cfg : Config) (s : State) (socket : Nat) (response : List UInt8) :
    Move cfg s (.answer socket response) (answer cfg socket response s) := by
  simp only [answer]
  split
  · exact .stay
  · rename_i request rest waiting
    split
    · rename_i length
      exact .answered waiting length
    · exact .stay

theorem sweepPool_move (cfg : Config) (sound : Sound none s) (now : Int)
    (error : Int → Nat → Bool) : Move cfg s (.checkClients now error) (sweepPool now error s) := by
  obtain ⟨sub,closed⟩ := checkEntries_spec s.pool.checkTime now error s.pool.freeClients ⟨s.clients,[]⟩
  unfold sweepPool
  rw [commit_idle]
  · exact .swept sub
  · intro slot op member shut
    have dropped := closed op.socket shut
    exact sound.unpooled op member (by simpa using dropped)

theorem fire_move (cfg : Config) (sound : Sound none s)
    (queued : (s.data slot).timer.queued[index]? = some (timeOut,.success)) :
    Move cfg s (.on slot (.timeOutHandler index))
      ((cancelClient slot timeOut (s.setTimer slot (.take index))).emit (timeOutHook timeOut)) := by
  cases client : (s.data slot).client with
  | none =>
    have eq : (cancelClient slot timeOut (s.setTimer slot (.take index))).emit (timeOutHook timeOut) =
        s.install slot { s.data slot with timer := (s.data slot).timer.take index }
          (s.ops slot) [.expired timeOut,timeOutHook timeOut] := by
      simp [cancelClient,State.setTimer,State.setData,State.emit,State.install,client]
    rw [eq]
    exact .fired queued (client ▸ .missing)
  | some c =>
    have mine : (s.ops slot).filter (·.socket = c) = s.ops slot := by
      apply List.filter_eq_self.mpr
      intro op member
      have held := sound.socket slot op member
      rw [client] at held
      simpa using (Option.some.inj held).symm
    have eq : (cancelClient slot timeOut (s.setTimer slot (.take index))).emit (timeOutHook timeOut) =
        s.install slot { s.data slot with timer := (s.data slot).timer.take index }
          ((s.ops slot).map (·.cancel c (.slot slot)))
          [.expired timeOut,.cancelled timeOut ((s.ops slot).map (·.task)),timeOutHook timeOut] := by
      have ops := cancelSocket_held sound client
      simp only [State.cancelSocket] at ops
      simp [cancelClient,State.setTimer,State.setData,State.emit,State.install,client,
        State.cancelSocket,mine,ops]
    rw [eq]
    exact .fired queued (client ▸ .cancelled)

theorem runTimeOut_move (cfg : Config) (sound : Sound none s) (slot : Slot) (index : Nat) :
    Move cfg s (.on slot (.timeOutHandler index)) (runTimeOut slot index s) := by
  unfold runTimeOut
  split
  · exact .stay
  · rename_i timeOut error queued
    by_cases fine : error = .success
    · subst fine
      have fired := fire_move cfg sound queued
      cases timeOut <;>
        simpa [timeOutHandler,onHandleConnectTimeOut,onHandleTimeOut,timeOutHook] using fired
    · have eq : timeOutHandler slot error timeOut (s.setTimer slot (.take index)) =
          s.setTimer slot (.take index) := by
        cases timeOut <;> simp [timeOutHandler,onHandleConnectTimeOut,onHandleTimeOut,fine]
      rw [eq]
      exact .ignored queued fine

theorem commit_own {s m : State} (sound : Sound none s) (held : (s.data slot).client = some c)
    (ops : m.ops = Function.update s.ops slot []) (issuer : Issuer) (h : Heap)
    (own : ∀ d ∈ h.closed, d = c) : m.commit issuer h = { m with clients := h.clients } := by
  apply commit_idle m issuer h
  intro other op member shut
  rw [ops] at member
  by_cases eq : other = slot
  · subst other
    simp at member
  · rw [Function.update_of_ne eq] at member
    exact eq (sound.holder held other op member (own _ shut))

theorem onReadHeadFailed_eq (sound : Sound none s) (held : (s.data slot).client = some c)
    (data : (m.data slot).client = (s.data slot).client)
    (ops : m.ops = Function.update s.ops slot []) (a : Attempt) :
    ∃ clients, onReadHeadFailed slot a m = resume a modFailed
      ({ cancelTimeOutTimer slot m with clients := clients }.emit (.onReadHeadFailed a)) := by
  have own : ∀ d ∈ (close c ⟨m.clients,[]⟩).closed, d = c := by
    intro d member
    simpa using close_closed c d ⟨m.clients,[]⟩ member
  refine ⟨(close c ⟨m.clients,[]⟩).clients,?_⟩
  have client : ((cancelTimeOutTimer slot m).data slot).client = some c := by
    simp [cancelTimeOutTimer,State.setTimer,data,held]
  simp only [onReadHeadFailed,closeClient,client]
  exact congrArg (fun m => resume a modFailed (m.emit (.onReadHeadFailed a)))
    (commit_own sound held (m := cancelTimeOutTimer slot m) ops (.slot slot) _ own)

theorem recollectClient_eq (sound : Sound none s) (held : (s.data slot).client = some c)
    (data : (m.data slot).client = (s.data slot).client) (stored : m.pool = s.pool)
    (ops : m.ops = Function.update s.ops slot []) (now : Int) :
    ∃ clients pool, (pooled pool.freeClients).Perm (c :: pooled s.pool.freeClients) ∧
      recollectClient slot now m = { m with clients := clients, pool := pool }.setClient slot none := by
  let collected := recollect now (some c) m.pool ⟨m.clients,[]⟩
  have own : ∀ d ∈ (release c collected.2).closed, d = c := by
    intro d member
    simpa [collected,recollect,retain,onRecollect] using release_closed c d _ member
  refine ⟨(release c collected.2).clients,collected.1,stored ▸ recollect_perm now c m.pool _,?_⟩
  simp only [recollectClient,data,held,Option.map_some,Option.getD_some]
  exact congrArg (fun m => m.setClient slot none)
    (commit_own sound held (m := { m with pool := collected.1 }) ops (.slot slot) _ own)

/-- The state in which the one outstanding operation of a `ModuleData` has a result. -/
structure Ready (s : State) (slot : Slot) (op : Op) (error : ErrorCode) : Prop where
  sound : Sound none s
  only : s.ops slot = [op]
  done : op.result = some error
  opened : (s.data slot).socketEvent = .opened
  attempt : op.task.attempt = ⟨slot,(s.data slot).serial⟩
  client : (s.data slot).client = some op.socket

section Handlers

variable {s : State} {slot : Slot} {op : Op} {error : ErrorCode} {replies : Replies} {cfg : Config}

theorem Ready.handled (ready : Ready s slot op error) (clients : Nat → TcpClient) {next : State}
    {data : ModuleData} {ops : List Op} {events : List Event}
    (handled : Handled cfg op replies (s.data slot) error data ops events)
    (eq : next = (s.store clients s.pool).install slot data ops events) :
    Move cfg s (.on slot (.handler 0 replies)) next :=
  eq ▸ .handled ready.only ready.done ready.opened ready.attempt ready.client handled

theorem Ready.enter (ready : Ready s slot op error) (body : State → State) :
    entered slot body (s.setOps slot []) = body ((s.setOps slot []).setSocketEvent slot .closed) := by
  have flag : ((s.setOps slot []).data slot).socketEvent = .opened := ready.opened
  simp [entered,flag]

theorem Ready.aborted_move (ready : Ready s slot op .aborted) :
    Move cfg s (.on slot (.handler 0 replies)) (handler cfg slot op .aborted replies (s.setOps slot [])) := by
  apply ready.handled s.clients .aborted
  unfold handler
  cases op.task.stage <;>
    simp only [onConnect,onWriteReq,onRecvRespHead,onRecvRespBody,ready.enter] <;>
    simp [resume,State.install,State.store,State.emit,State.setSocketEvent,State.setData,State.setOps]

theorem Ready.failed_move (ready : Ready s slot op .failed) :
    Move cfg s (.on slot (.handler 0 replies)) (handler cfg slot op .failed replies (s.setOps slot [])) := by
  unfold handler
  cases stage : op.task.stage with
  | respHead len =>
    obtain ⟨clients,eq⟩ := onReadHeadFailed_eq ready.sound ready.client
      (m := (s.setOps slot []).setSocketEvent slot .closed)
      (by simp [State.setSocketEvent,State.setOps]) rfl op.task.attempt
    apply ready.handled clients .failed
    simp only [onRecvRespHead,ready.enter,eq]
    simp [resume,State.install,failureHook,stage,cancelTimeOutTimer,State.setTimer,State.store,
      State.emit,State.setSocketEvent,State.setData,State.setOps]
  | _ =>
    apply ready.handled s.clients .failed
    simp only [onConnect,onWriteReq,onRecvRespBody,ready.enter]
    simp [resume,State.install,failureHook,stage,cancelTimeOutTimer,State.setTimer,State.store,
      State.emit,State.setSocketEvent,State.setData,State.setOps]

theorem Ready.success_move (ready : Ready s slot op .success) :
    Move cfg s (.on slot (.handler 0 replies)) (handler cfg slot op .success replies (s.setOps slot [])) := by
  have module : op.task.attempt.slot = slot := by rw [ready.attempt]
  unfold handler
  cases stage : op.task.stage with
  | connect ip port =>
    apply ready.handled s.clients (.connected stage)
    simp only [onConnect,ready.enter]
    simp [sendRequest,startOperation,ready.client,State.install,cancelTimeOutTimer,
      State.setTimer,State.store,State.setSocketEvent,State.setData,State.setOps]
  | writeReq request =>
    apply ready.handled s.clients (.written stage)
    simp only [onWriteReq,ready.enter]
    simp [startOperation,ready.client,State.install,module,
      State.store,State.setSocketEvent,State.setData,State.setOps]
  | respHead len =>
    simp only [onRecvRespHead,ready.enter]
    split
    · apply ready.handled s.clients (.headAccepted stage)
      simp [startOperation,ready.client,State.install,State.emit,
        State.store,State.setSocketEvent,State.setData,State.setOps]
    · obtain ⟨clients,eq⟩ := onReadHeadFailed_eq ready.sound ready.client
        (m := ((s.setOps slot []).setSocketEvent slot .closed).emit (.onReadHeadImpl op.task.attempt op.received))
        (by simp [State.setSocketEvent,State.setOps,State.emit]) rfl op.task.attempt
      apply ready.handled clients (.headRejected stage)
      rw [eq]
      simp [resume,State.install,cancelTimeOutTimer,State.setTimer,State.store,
        State.emit,State.setSocketEvent,State.setData,State.setOps]
  | respBody len =>
    obtain ⟨clients,pool,perm,eq⟩ := recollectClient_eq ready.sound ready.client
      (m := cancelTimeOutTimer slot ((s.setOps slot []).setSocketEvent slot .closed))
      (by simp [cancelTimeOutTimer,State.setTimer,State.setSocketEvent,State.setOps]) rfl rfl replies.now
    have read : Move cfg s (.on slot (.handler 0 replies)) ((s.store clients pool).install slot _ _ _) :=
      .bodyRead ready.only ready.done ready.opened ready.attempt ready.client stage perm
    simp only [onRecvRespBody,ready.enter,eq]
    simpa [resume,State.install,cancelTimeOutTimer,State.setTimer,State.store,State.emit,
      State.setSocketEvent,State.setData,State.setOps,State.setClient] using read

end Handlers

theorem runHandler_move (cfg : Config) (sound : Sound none s) (slot : Slot) (index : Nat)
    (replies : Replies) :
    Move cfg s (.on slot (.handler index replies)) (runHandler cfg slot index replies s) := by
  unfold runHandler
  split
  · exact .stay
  · rename_i op found
    obtain ⟨rfl,only,opened,attempt,client⟩ := sound.single found
    split
    · exact .stay
    · rename_i error done
      have ready : Ready s slot op error := ⟨sound,only,done,opened,attempt,client⟩
      rw [only,List.eraseIdx_cons_zero]
      cases error with
      | aborted => exact ready.aborted_move
      | failed => exact ready.failed_move
      | success => exact ready.success_move

/-- `get_client` and the drop of the old pointer close no socket in use. -/
theorem takeClient_eq (sound : Sound none s) (slot : Slot) (idle : s.ops slot = [])
    (args : RunArgs) (counted : ModuleData) (same : counted.client = (s.data slot).client) :
    ∃ dropped clients pool found,
      (pooled s.pool.freeClients).Perm (dropped ++ (found.toList ++ pooled pool.freeClients)) ∧
      takeClient slot args (s.setData slot counted) =
        (s.store clients pool).setData slot { counted with client := found } := by
  obtain ⟨dropped,perm,closed⟩ :=
    getClient_spec args.error args.clientTypeId s.pool ⟨s.clients,[]⟩
  let found := getClient args.error args.clientTypeId s.pool ⟨s.clients,[]⟩
  let heap := ((s.data slot).client.map (release · found.2.2)).getD found.2.2
  have shut : ∀ d ∈ heap.closed, d ∈ dropped ∨ (s.data slot).client = some d := by
    intro d member
    cases client : (s.data slot).client with
    | none =>
      simp only [heap,client,Option.map_none,Option.getD_none] at member
      simpa using closed d member
    | some c =>
      simp only [heap,client,Option.map_some,Option.getD_some] at member
      rcases release_closed c d _ member with old | rfl
      · exact .inl (by simpa using closed d old)
      · exact .inr rfl
  have quiet : ∀ other op, op ∈ s.ops other → op.socket ∉ heap.closed := by
    intro other op member closed
    rcases shut _ closed with gone | held
    · exact sound.unpooled op member (perm.mem_iff.mpr (List.mem_append_left _ gone))
    · obtain rfl := sound.holder held other op member rfl
      simp [idle] at member
  refine ⟨dropped,heap.clients,found.2.1,found.1,perm,?_⟩
  have committed := commit_idle ({ s.setData slot counted with pool := found.2.1 }) (.slot slot) heap quiet
  simp only [takeClient,setData_same,same]
  refine (congrArg (fun m => m.setClient slot found.1) committed).trans ?_
  simp [State.setClient,State.setData,State.store]

theorem run_move (cfg : Config) (sound : Sound none s) (slot : Slot) (args : RunArgs)
    (idle : s.ops slot = []) : Move cfg s (.on slot (.run args)) (run slot args s) := by
  have opsIdle : Function.update s.ops slot [] = s.ops := by
    rw [← idle,Function.update_eq_self]
  unfold run
  dsimp only
  split
  · have rejected : Move cfg s (.on slot (.run args)) _ := .rejected idle
    simpa [State.install,State.emit,State.setData,opsIdle] using rejected
  · obtain ⟨dropped,clients,pool,found,perm,eq⟩ := takeClient_eq sound slot idle args
      { s.data slot with serial := (s.data slot).serial + 1 } rfl
    rw [eq,setData_same]
    cases found with
    | some c =>
      have ran : Move cfg s (.on slot (.run args)) ((s.store clients pool).install slot _ _ _) :=
        .ran dropped idle perm .reused
      simpa [sendRequest,startOperation,State.setTimer,State.setSocketEvent,State.setData,State.setOps,
        State.emit,State.install,State.store,idle] using ran
    | none =>
      have failed (timer : Timer TimeOut) (ip : String) (port : UInt16)
          (kind : timer = (s.data slot).timer ∨ timer = (s.data slot).timer.cancel ∨
            timer = (s.data slot).timer.arm (.connectTimeOut ⟨slot,(s.data slot).serial + 1⟩ ip port)) :
          Move cfg s (.on slot (.run args)) ((s.store clients pool).install slot _ _ _) :=
        .ran dropped idle perm (.failed kind)
      simp only [Option.toList_none,List.nil_append] at perm
      have opened (new : TcpClient) {data : ModuleData} {ops : List Op}
          {events : List Event} (opened : Opened slot (s.data slot) s.fresh data ops events) :
          Move cfg s (.on slot (.run args))
            ((s.store (Function.update clients s.fresh new) pool).create.install slot data ops events) :=
        .opened dropped idle perm opened
      simp only [State.install,State.store,State.create,opsIdle] at failed opened
      split
      · contradiction
      · split
        · simpa [State.setData,State.emit,State.store] using failed _ "" 0 (.inl rfl)
        · rename_i ip port server
          simp only [openConnection]
          split
          · simpa [State.setData,State.emit,State.store] using failed _ ip port (.inl rfl)
          · simpa [State.setData,State.emit,State.store] using failed _ ip port (.inl rfl)
          · simpa [State.setTimer,State.setData,State.emit,State.store,Timer.expiresFromNow] using
              failed _ ip port (.inr (.inl rfl))
          · simpa [State.setTimer,State.setData,State.emit,State.store] using
              failed _ ip port (.inr (.inr rfl))
          · simpa [State.setClient,State.setTimer,State.setData,State.emit,State.store,opsIdle] using
              opened ⟨0,args.clientTypeId,false,args.now,1⟩ .failed
          · simpa [State.setClient,State.setTimer,State.setSocketEvent,State.setData,State.setOps,
              State.emit,State.store,startOperation,idle] using
              opened ⟨0,args.clientTypeId,false,args.now,1⟩ .connecting

theorem step_moves (cfg : Config) (sound : Sound none s) (a : Action) (sequential : Sequential s a) :
    Move cfg s a (step cfg s a) := by
  cases a with
  | answer socket response => exact answer_move cfg s socket response
  | checkClients now error => exact sweepPool_move cfg sound now error
  | on slot action =>
    cases action with
    | run args => exact run_move cfg sound slot args sequential
    | complete index code => exact complete_move cfg sound slot index code
    | transfer index count => exact transfer_move cfg sound slot index count
    | handler index replies => exact runHandler_move cfg sound slot index replies
    | expire => exact .expired
    | timeOutHandler index => exact runTimeOut_move cfg sound slot index

end Zerver.TcpModule
