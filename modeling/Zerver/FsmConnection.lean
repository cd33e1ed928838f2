import Zerver.ClientConnectionRejects
import Zerver.Fsm

/-! One client connection with the Fsm that drives it. Control is in one call, or with
one module that has returned `Mod_async`: a RequestModule or ResponseModule then waits
for its operation on the client socket, any other module for an event of its own. -/
namespace Zerver.FsmConnection

open Zerver.Asio Zerver.Fsm Zerver.Schedule
open Zerver.ClientConnection (Op Task Event isRead)

/-- What a module is to the client socket: it reads it, writes it, or leaves it alone. -/
inductive Kind where
  | request
  | response
  | other
  deriving DecidableEq, Repr

/-- The virtual functions of the RequestModules, by the parts read so far on the connection. -/
structure Config where
  kind : Module → Kind
  getVersionLen : Module → List (List UInt8) → UInt32
  getHeadLen : Module → List (List UInt8) → UInt32
  getBodyLen : Module → List (List UInt8) → UInt32
  getSucceedState : Module → List (List UInt8) → ModState

inductive Part where
  | version
  | head
  | body
  deriving DecidableEq, Repr

/-- One call of `on_read_version_impl`, `on_read_head_impl` or `on_read_body_impl`. -/
structure Delivery where
  attempt : Attempt
  part : Part
  bytes : List UInt8
  deriving DecidableEq, Repr

def delivery : Event → Option Delivery
  | .onReadVersionImpl attempt bytes => some ⟨attempt,.version,bytes⟩
  | .onReadHeadImpl attempt bytes => some ⟨attempt,.head,bytes⟩
  | .onReadBodyImpl attempt bytes => some ⟨attempt,.body,bytes⟩
  | _ => none

def deliveries (log : List Event) : List Delivery := log.filterMap delivery

theorem deliveries_append (first later : List Event) :
    deliveries (first ++ later) = deliveries first ++ deliveries later := List.filterMap_append

theorem deliveries_silent (log : List Event) (silent : delivery event = none) :
    deliveries (log ++ [event]) = deliveries log := by
  rw [deliveries_append]
  simp [deliveries,silent]

theorem deliveries_told (log : List Event) (told : delivery event = some d) :
    deliveries (log ++ [event]) = deliveries log ++ [d] := by
  rw [deliveries_append]
  simp [deliveries,told]

def parts (log : List Event) : List (List UInt8) := (deliveries log).map (·.bytes)

inductive Control where
  | calling (call : Call)
  | waiting (mod : Module) (context : Nat)
  | stopped
  | crashed
  deriving DecidableEq, Repr

structure State where
  fsm : Fsm
  conn : ClientConnection.State
  control : Control

/-- The connection has been accepted with its first context. -/
def initial (fsm : Fsm) : State := ⟨fsm,ClientConnection.initial,.calling (.handleRequest 0)⟩

/-- What the functions of the Fsm see: the contexts are numbered from 0 to the current. -/
def State.world (s : State) : World := ⟨s.fsm,s.conn.exits,s.conn.context + 1⟩

def State.follow (s : State) (next : Outcome × World) : State where
  fsm := next.2.fsm
  conn := { s.conn with exits := next.2.exits }
  control :=
    match next.1 with
    | .call call => .calling call
    | .returned => .stopped
    | .crashed => .crashed

def State.afterRun (mod : Module) (state : ModState) (context : Nat) (s : State) : State :=
  if state = modAsync then { s with control := .waiting mod context }
  else s.follow (s.world.afterRun mod state context)

/-- What `get_resp` gives, and the state returned by a module that is neither a
RequestModule nor a ResponseModule. -/
structure Choice where
  resp : Option (List UInt8)
  state : ModState
  deriving DecidableEq, Repr

def run (cfg : Config) (choice : Choice) (mod : Module) (context : Nat) (s : State) : State :=
  match cfg.kind mod with
  | .request =>
    let versionLen := cfg.getVersionLen mod (parts s.conn.log)
    { s with conn := ClientConnection.runRequest mod.id versionLen s.conn }.afterRun mod modAsync context
  | .response =>
    let state := if choice.resp.isNone then modFailed else modAsync
    { s with conn := ClientConnection.runResponse mod.id choice.resp s.conn }.afterRun mod state context
  | .other => s.afterRun mod choice.state context

def call (cfg : Config) (choice : Choice) (s : State) : State :=
  match s.control with
  | .calling (.handleRequest context) => s.follow (s.world.handleRequest context)
  | .calling (.run mod context lastModState) =>
    run cfg choice mod context s
  | .calling (.resume lastMod state context) => s.follow (s.world.resume lastMod state context)
  | .calling (.endRequest context) =>
    { s with conn := ClientConnection.endRequest s.conn }.follow (s.world.endRequest context)
  | _ => s

/-- What the virtual functions answer once the received part has been given to its hook. -/
def replies (cfg : Config) (ok : Bool) (mod : Module) (s : State) (op : Op) : ClientConnection.Replies :=
  let read := parts s.conn.log ++ [op.received]
  let len := match op.task.stage with
    | .version _ => cfg.getHeadLen mod read
    | _ => cfg.getBodyLen mod read
  ⟨ok,len,cfg.getSucceedState mod read⟩

/-- The completion handler of the operation on the client socket. A handler that does
not start the next read has resumed the Fsm with the state it logged last. -/
def handler (cfg : Config) (ok : Bool) (s : State) : State :=
  match s.control, s.conn.op with
  | .waiting mod context, some op =>
    match op.result with
    | none => s
    | some error =>
      let conn := ClientConnection.handler op error (replies cfg ok mod s op) { s.conn with op := none }
      match conn.log.getLast? with
      | some (.resumed _ state) =>
        { s with conn := conn, control := .calling (.resume mod state context) }
      | _ => { s with conn := conn }
  | _, _ => s

/-- A module of the third kind that returned `Mod_async` resumes the Fsm. -/
def resume (cfg : Config) (state : ModState) (s : State) : State :=
  match s.control with
  | .waiting mod context =>
    if cfg.kind mod = .other then { s with control := .calling (.resume mod state context) } else s
  | _ => s

/-- What the socket, the client and the timers do on their own. -/
def external : ClientConnection.Action → Bool
  | .send _ | .transfer _ | .complete _ | .expire _ | .timeOutHandler _ _ => true
  | _ => false

/-- `exit` is a call of `exit()` by any hook or module of the current context. -/
inductive Action where
  | call (choice : Choice)
  | handler (ok : Bool)
  | resume (state : ModState)
  | exit
  | io (a : ClientConnection.Action)
  deriving DecidableEq, Repr

def step (cfg : Config) (s : State) : Action → State
  | .call choice => call cfg choice s
  | .handler ok => handler cfg ok s
  | .resume state => resume cfg state s
  | .exit => { s with conn := s.conn.exit s.conn.context }
  | .io a => if external a then { s with conn := ClientConnection.step s.conn a } else s

/-- What a completion handler on the client socket does: it calls `exit()` and resumes,
reads on, resumes with the request read, or with the response written. -/
inductive Handling (op : Op) (error : ErrorCode) (replies : ClientConnection.Replies)
    (s next : ClientConnection.State) : Prop where
  | ended (hooks : List Event) (state : ModState) : (state = modFailed ∨ state = modTimeout) →
      (isRead op.task.stage = true → error ≠ .success ∨ replies.ok = false) → next.op = none →
      next.exits = Function.update s.exits op.task.attempt.slot.context true →
      next.log = s.log ++ hooks ++ [.resumed op.task.attempt state] →
      (isRead op.task.stage = false → deliveries hooks = []) → Handling op error replies s next
  | headRead : op.task.stage = .version len → error = .success →
      next.op = some (.start 0 ⟨op.task.attempt,.head replies.len⟩) → next.exits = s.exits →
      next.log = s.log ++ [.onReadVersionImpl op.task.attempt op.received] → Handling op error replies s next
  | bodyRead : op.task.stage = .head len → error = .success →
      next.op = some (.start 0 ⟨op.task.attempt,.body replies.len⟩) → next.exits = s.exits →
      next.log = s.log ++ [.onReadHeadImpl op.task.attempt op.received] → Handling op error replies s next
  | requestRead : op.task.stage = .body len → error = .success → next.op = none → next.exits = s.exits →
      next.log = s.log ++ [.onReadBodyImpl op.task.attempt op.received] ++
        [.resumed op.task.attempt replies.state] → Handling op error replies s next
  | written : op.task.stage = .resp bytes → error = .success → next.op = none → next.exits = s.exits →
      next.log = s.log ++ [.onWriteRespSucceed op.task.attempt] ++ [.resumed op.task.attempt modSucceed] →
      Handling op error replies s next

section Handlers

variable (s : ClientConnection.State) (op : Op) (error : ErrorCode) (replies : ClientConnection.Replies)

theorem timedOut_handling (idle : s.op = none) (failing : error ≠ .success) :
    Handling op error replies s (ClientConnection.timedOut op.task.attempt s) := by
  refine .ended [.exited op.task.attempt.slot.context] modTimeout (.inr rfl) (fun _ => .inl failing) idle rfl ?_ ?_
  · simp [ClientConnection.timedOut_log]
  · simp [deliveries,delivery]

theorem failed_handling (hook : Event) (idle : s.op = none) (failing : error ≠ .success)
    (silent : delivery hook = none) :
    Handling op error replies s (ClientConnection.failed op.task.attempt hook s) := by
  refine .ended [hook,.exited op.task.attempt.slot.context] modFailed (.inl rfl) (fun _ => .inl failing) idle rfl ?_ ?_
  · simp [ClientConnection.failed_log]
  · have exits : delivery (.exited op.task.attempt.slot.context) = none := rfl
    simp [deliveries,silent,exits]

theorem onRead_handling (impl hook : Event) (accepted : ClientConnection.State → ClientConnection.State)
    (idle : s.op = none) (read : isRead op.task.stage = true) (silent : delivery hook = none)
    (accepts : error = .success → Handling op error replies s (accepted (s.emit impl))) :
    Handling op error replies s
      (ClientConnection.onRead op.task.attempt impl hook error replies.ok accepted s) := by
  cases error with
  | aborted => exact timedOut_handling s op _ replies idle (by decide)
  | failed => exact failed_handling s op _ replies hook idle (by decide) silent
  | success =>
    cases ok : replies.ok with
    | true => exact accepts rfl
    | false =>
      refine .ended [impl,hook,.exited op.task.attempt.slot.context] modFailed (.inl rfl) (fun _ => .inr ok) idle rfl ?_ ?_
      · simp [ClientConnection.onRead,ClientConnection.failed_log,ClientConnection.State.emit]
      · simp [read]

theorem handler_handling (idle : s.op = none) :
    Handling op error replies s (ClientConnection.handler op error replies s) := by
  unfold ClientConnection.handler
  cases stage : op.task.stage with
  | version len =>
    refine onRead_handling s op error replies _ _ _ idle (by simp [stage,isRead]) rfl ?_
    exact fun fine => .headRead stage fine rfl rfl rfl
  | head len =>
    refine onRead_handling s op error replies _ _ _ idle (by simp [stage,isRead]) rfl ?_
    exact fun fine => .bodyRead stage fine rfl rfl rfl
  | body len =>
    refine onRead_handling s op error replies _ _ _ idle (by simp [stage,isRead]) rfl ?_
    exact fun fine => .requestRead stage fine idle rfl rfl
  | resp bytes =>
    cases error with
    | aborted => exact timedOut_handling s op _ replies idle (by decide)
    | failed => exact failed_handling s op _ replies _ idle (by decide) rfl
    | success => exact .written stage rfl idle rfl rfl

theorem onRead_frame (attempt : Attempt) (impl hook : Event) (ok : Bool)
    (accepted : ClientConnection.State → ClientConnection.State)
    (accepts : (accepted (s.emit impl)).inbound = s.inbound ∧ (accepted (s.emit impl)).context = s.context) :
    let next := ClientConnection.onRead attempt impl hook error ok accepted s
    next.inbound = s.inbound ∧ next.context = s.context := by
  cases error with
  | aborted => exact ⟨rfl,rfl⟩
  | failed => exact ⟨rfl,rfl⟩
  | success =>
    cases ok with
    | true => exact accepts
    | false => exact ⟨rfl,rfl⟩

theorem handler_frame :
    let next := ClientConnection.handler op error replies s
    next.inbound = s.inbound ∧ next.context = s.context := by
  unfold ClientConnection.handler
  cases op.task.stage with
  | version len => exact onRead_frame s error _ _ _ _ _ ⟨rfl,rfl⟩
  | head len => exact onRead_frame s error _ _ _ _ _ ⟨rfl,rfl⟩
  | body len => exact onRead_frame s error _ _ _ _ _ ⟨rfl,rfl⟩
  | resp bytes => cases error <;> exact ⟨rfl,rfl⟩

end Handlers

/-- The Fsm goes on from a module with its state: the request has left the graph, the
next module is called, or there is none and the context exits. -/
inductive Continued (s : State) (mod : Module) (state : ModState) (context : Nat) : State → Prop where
  | atEnd : mod = s.fsm.endMod →
      Continued s mod state context { s with control := .calling (.endRequest context) }
  | linked : mod ≠ s.fsm.endMod → s.fsm.route mod state = some next →
      Continued s mod state context { s with control := .calling (.run next context state) }
  | unlinked : Extends s.fsm fsm → Continued s mod state context
      { s with
        fsm := fsm
        conn := { s.conn with exits := Function.update s.conn.exits context true }
        control := .calling (.endRequest context) }

theorem Continued.conn_eq (continued : Continued s mod state context next) :
    ∃ exits, next.conn = { s.conn with exits := exits } := by
  cases continued with
  | atEnd atEnd => exact ⟨_,rfl⟩
  | linked inner route => exact ⟨_,rfl⟩
  | unlinked extended => exact ⟨_,rfl⟩

theorem follow_resume (s : State) (mod : Module) (state : ModState) (context : Nat) :
    Continued s mod state context (s.follow (s.world.resume mod state context)) := by
  have continued := s.world.resume_continued mod state context
  generalize s.world.resume mod state context = next at continued ⊢
  cases continued with
  | atEnd atEnd => exact .atEnd atEnd
  | linked inner route => exact .linked inner route
  | unlinked table inner route extended => exact .unlinked extended

theorem afterRun_continued (s : State) (mod : Module) (state : ModState) (context : Nat)
    (done : state ≠ modAsync) : Continued s mod state context (s.afterRun mod state context) := by
  rw [State.afterRun,if_neg done,World.afterRun_eq_resume mod state context s.world done]
  exact follow_resume s mod state context

inductive Move (cfg : Config) (s : State) : Action → State → Prop where
  | stay : (∀ b, a = .io b → external b = false) → Move cfg s a s
  | io : external a = true → Move cfg s (.io a) { s with conn := ClientConnection.step s.conn a }
  | exited : Move cfg s .exit { s with conn := s.conn.exit s.conn.context }
  | renewed : s.control = .calling (.handleRequest context) → Move cfg s (.call choice)
      { s with
        conn := { s.conn with exits := Function.update s.conn.exits context false }
        control := .calling (.run s.fsm.startMod context modStart) }
  | requested : s.control = .calling (.run mod context lastModState) → cfg.kind mod = .request →
      Move cfg s (.call choice)
        { s with
          conn := ClientConnection.runRequest mod.id (cfg.getVersionLen mod (parts s.conn.log)) s.conn
          control := .waiting mod context }
  | responded : s.control = .calling (.run mod context lastModState) → cfg.kind mod = .response →
      choice.resp = some bytes → Move cfg s (.call choice)
        { s with
          conn := ClientConnection.runResponse mod.id (some bytes) s.conn
          control := .waiting mod context }
  | unanswered : s.control = .calling (.run mod context lastModState) → cfg.kind mod = .response →
      choice.resp = none → Continued
        { s with conn := ClientConnection.runResponse mod.id none s.conn } mod modFailed context next →
      Move cfg s (.call choice) next
  | deferred : s.control = .calling (.run mod context lastModState) → cfg.kind mod = .other →
      Move cfg s (.call choice)
        { s with control := .waiting mod context }
  | returned : s.control = .calling (.run mod context lastModState) → cfg.kind mod = .other →
      Continued s mod choice.state context next →
      Move cfg s (.call choice) next
  | continued : s.control = .calling (.resume mod state context) → Continued s mod state context next →
      Move cfg s (.call choice) next
  | finished : s.control = .calling (.endRequest context) → s.conn.exits context = true →
      Move cfg s (.call choice)
        { s with
          conn := { ClientConnection.endRequest s.conn with exits := s.conn.exits }
          control := .stopped }
  | crashed : s.control = .calling (.endRequest context) → s.conn.exits context = false →
      Move cfg s (.call choice)
        { s with
          conn := { ClientConnection.endRequest s.conn with exits := s.conn.exits }
          control := .crashed }
  | ended : s.control = .calling (.endRequest context) → s.conn.exits context = false →
      Move cfg s (.call choice)
        { s with
          conn := { ClientConnection.endRequest s.conn with
            exits := Function.update s.conn.exits (s.conn.context + 1) false }
          control := .calling (.handleRequest (s.conn.context + 1)) }
  | reads : s.control = .waiting mod context → s.conn.op = some op → op.result = some error →
      Handling op error (replies cfg ok mod s op) { s.conn with op := none } conn →
      conn.inbound = s.conn.inbound → conn.context = s.conn.context →
      (∀ slot, (conn.data slot).serial = (s.conn.data slot).serial) → conn.op ≠ none →
      Move cfg s (.handler ok) { s with conn := conn }
  | handled : s.control = .waiting mod context → s.conn.op = some op → op.result = some error →
      Handling op error (replies cfg ok mod s op) { s.conn with op := none } conn →
      conn.inbound = s.conn.inbound → conn.context = s.conn.context →
      (∀ slot, (conn.data slot).serial = (s.conn.data slot).serial) → conn.op = none →
      conn.log = log ++ [.resumed op.task.attempt state] →
      Move cfg s (.handler ok) { s with conn := conn, control := .calling (.resume mod state context) }
  | resumed : s.control = .waiting mod context → cfg.kind mod = .other → Move cfg s (.resume state)
      { s with control := .calling (.resume mod state context) }

theorem run_move (cfg : Config) (s : State) (choice : Choice)
    (control : s.control = .calling (.run mod context lastModState)) :
    Move cfg s (.call choice)
      (run cfg choice mod context s) := by
  unfold run
  cases kind : cfg.kind mod with
  | request => exact .requested control kind
  | response =>
    cases resp : choice.resp with
    | none =>
      refine .unanswered control kind resp ?_
      exact afterRun_continued _ mod modFailed context (by decide)
    | some bytes => exact .responded control kind resp
  | other =>
    by_cases async : choice.state = modAsync
    · rw [async]
      exact .deferred control kind
    · exact .returned control kind (afterRun_continued _ mod choice.state context async)

theorem call_move (cfg : Config) (s : State) (choice : Choice) :
    Move cfg s (.call choice) (call cfg choice s) := by
  unfold call
  split
  · rename_i context control
    exact .renewed control
  · rename_i mod context lastModState control
    exact run_move cfg s choice control
  · rename_i lastMod state context control
    exact .continued control (follow_resume s lastMod state context)
  · rename_i context control
    simp only [World.endRequest]
    split
    · rename_i exits
      exact .finished control exits
    · rename_i stays
      have goesOn : s.conn.exits context = false := by simpa [State.world] using stays
      split
      · exact .crashed control goesOn
      · exact .ended control goesOn
  · exact .stay (by simp)

theorem Handling.resumes (handling : Handling op error answers s next) (idle : next.op = none) :
    ∃ log state, next.log = log ++ [.resumed op.task.attempt state] := by
  cases handling with
  | ended hooks state cause failing none exits log silent => exact ⟨_,state,log⟩
  | headRead stage fine started exits log => simp [idle] at started
  | bodyRead stage fine started exits log => simp [idle] at started
  | requestRead stage fine none exits log => exact ⟨_,_,log⟩
  | written stage fine none exits log => exact ⟨_,_,log⟩

theorem Handling.reads (handling : Handling op error answers s next) (busy : next.op ≠ none) :
    ∃ event, next.log.getLast? = some event ∧ ∀ attempt state, event ≠ .resumed attempt state := by
  cases handling with
  | headRead stage fine started exits log => exact ⟨_,by rw [log,List.getLast?_concat],by simp⟩
  | bodyRead stage fine started exits log => exact ⟨_,by rw [log,List.getLast?_concat],by simp⟩
  | ended hooks state cause failing none exits log silent => exact absurd none busy
  | requestRead stage fine none exits log => exact absurd none busy
  | written stage fine none exits log => exact absurd none busy

theorem handler_move (cfg : Config) (s : State) (ok : Bool) :
    Move cfg s (.handler ok) (handler cfg ok s) := by
  unfold handler
  split
  · rename_i mod context op control busy
    split
    · exact .stay (by simp)
    · rename_i error done
      have handling := handler_handling { s.conn with op := none } op error (replies cfg ok mod s op) rfl
      have frame := handler_frame { s.conn with op := none } op error (replies cfg ok mod s op)
      have serial := ClientConnection.handler_serial { s.conn with op := none } op error
        (replies cfg ok mod s op)
      dsimp only at frame ⊢
      generalize ClientConnection.handler op error (replies cfg ok mod s op) { s.conn with op := none } =
        conn at handling frame serial ⊢
      by_cases idle : conn.op = none
      · obtain ⟨log,state,ends⟩ := handling.resumes idle
        rw [ends,List.getLast?_concat]
        exact .handled control busy done handling frame.1 frame.2 serial idle ends
      · obtain ⟨event,last,other⟩ := handling.reads idle
        rw [last]
        split
        · rename_i attempt state resumed
          exact absurd (Option.some.inj resumed) (other attempt state)
        · exact .reads control busy done handling frame.1 frame.2 serial idle
  · exact .stay (by simp)

theorem step_moves (cfg : Config) (s : State) (a : Action) : Move cfg s a (step cfg s a) := by
  cases a with
  | call choice => exact call_move cfg s choice
  | handler ok => exact handler_move cfg s ok
  | resume state =>
    simp only [step,resume]
    split
    · rename_i mod context control
      split
      · rename_i kind
        exact .resumed control kind
      · exact .stay (by simp)
    · exact .stay (by simp)
  | exit => exact .exited
  | io a =>
    simp only [step]
    split
    · rename_i outer
      exact .io outer
    · rename_i inner
      exact .stay (by simpa using inner)

/-- What the socket, the client and the timers leave alone. -/
structure Kept (s next : ClientConnection.State) : Prop where
  context : next.context = s.context
  exits : next.exits = s.exits
  serial : ∀ slot, (next.data slot).serial = (s.data slot).serial
  task : next.op.map (·.task) = s.op.map (·.task)
  log : ∃ hooks, next.log = s.log ++ hooks ∧ deliveries hooks = []

theorem Kept.refl (s : ClientConnection.State) : Kept s s :=
  ⟨rfl,rfl,fun _ => rfl,rfl,[],by simp,rfl⟩

theorem setTimer_kept (s : ClientConnection.State) (slot : Slot)
    (f : Timer ClientConnection.TimeOut → Timer ClientConnection.TimeOut) : Kept s (s.setTimer slot f) :=
  ⟨rfl,rfl,(ClientConnection.setTimer_serial s slot · f),rfl,[],by simp [ClientConnection.State.setTimer],rfl⟩

theorem runTimeOut_kept (s : ClientConnection.State) (slot : Slot) (index : Nat) :
    Kept s (ClientConnection.runTimeOut slot index s) := by
  unfold ClientConnection.runTimeOut
  split
  · exact .refl s
  · rename_i h error queued
    have cancels (hook : Event) (timeOut : ClientConnection.TimeOut) (silent : delivery hook = none) :
        Kept s (ClientConnection.cancelSocket timeOut ((s.setTimer slot (.take index)).emit hook)) := by
      refine ⟨rfl,rfl,(ClientConnection.setTimer_serial s slot · _),?_,
        [hook,.cancelled timeOut (s.op.map (·.task))],?_,?_⟩
      · simp [ClientConnection.cancelSocket,ClientConnection.State.emit,ClientConnection.State.setTimer,
          Function.comp_def]
      · simp [ClientConnection.cancelSocket,ClientConnection.State.emit,ClientConnection.State.setTimer]
      · have cancelled : delivery (.cancelled timeOut (s.op.map (·.task))) = none := rfl
        simp [deliveries,silent,cancelled]
    cases h with
    | readTimeOut flag attempt =>
      simp only [ClientConnection.timeOutHandler,ClientConnection.onReadTimeOut]
      split
      · exact setTimer_kept s slot _
      · exact cancels _ _ (by split <;> rfl)
    | writeTimeOut attempt =>
      simp only [ClientConnection.timeOutHandler,ClientConnection.onWriteTimeOut]
      split
      · exact setTimer_kept s slot _
      · exact cancels _ _ rfl

theorem io_kept (s : ClientConnection.State) (a : ClientConnection.Action) (outer : external a = true) :
    Kept s (ClientConnection.step s a) := by
  cases a with
  | send bytes => exact ⟨rfl,rfl,fun _ => rfl,rfl,[],by simp [ClientConnection.step],rfl⟩
  | transfer count =>
    simp only [ClientConnection.step,ClientConnection.transfer]
    split
    · exact .refl s
    · rename_i op busy
      split
      · exact ⟨rfl,rfl,fun _ => rfl,by simp [busy],[],by simp,rfl⟩
      · exact .refl s
  | complete code =>
    simp only [ClientConnection.step,ClientConnection.complete]
    split
    · exact .refl s
    · rename_i op busy
      split
      · exact ⟨rfl,rfl,fun _ => rfl,by simp [busy,Operation.complete],[],by simp,rfl⟩
      · exact .refl s
  | expire slot => exact setTimer_kept s slot .expire
  | timeOutHandler slot index => exact runTimeOut_kept s slot index
  | _ => contradiction

def Control.Within (context : Nat) : Control → Prop
  | .calling (.handleRequest other) | .calling (.run _ other _) | .calling (.resume _ _ other)
  | .calling (.endRequest other) | .waiting _ other => other = context
  | .stopped | .crashed => True

/-- The control is in the current context, and an operation on the socket is that of the
module waited for: a read of a RequestModule or a write of a ResponseModule. -/
structure Aligned (cfg : Config) (s : State) : Prop where
  within : s.control.Within s.conn.context
  owner : ∀ op, s.conn.op = some op → ∃ mod, s.control = .waiting mod s.conn.context ∧
    cfg.kind mod = (if isRead op.task.stage then .request else .response) ∧
    op.task.attempt = ⟨⟨s.conn.context,mod.id⟩,(s.conn.data ⟨s.conn.context,mod.id⟩).serial⟩

theorem Aligned.idle (aligned : Aligned cfg s) (calling : s.control = .calling tail) : s.conn.op = none := by
  cases busy : s.conn.op with
  | none => rfl
  | some op =>
    obtain ⟨mod,waiting,_⟩ := aligned.owner op busy
    simp [calling] at waiting

theorem Aligned.of_idle (within : s.control.Within s.conn.context) (idle : s.conn.op = none) :
    Aligned cfg s := ⟨within,by simp [idle]⟩

theorem Continued.aligned (continued : Continued s mod state s.conn.context next) (idle : s.conn.op = none) :
    Aligned cfg next := by
  cases continued with
  | atEnd atEnd => exact .of_idle rfl idle
  | linked inner route => exact .of_idle rfl idle
  | unlinked extended => exact .of_idle rfl idle

theorem endRequest_fields (s : ClientConnection.State) :
    (ClientConnection.endRequest s).op = s.op ∧ (ClientConnection.endRequest s).inbound = s.inbound ∧
      (ClientConnection.endRequest s).data = s.data ∧
      (ClientConnection.endRequest s).log = s.log ++ [.endRequest s.context] ∧
      (ClientConnection.endRequest s).context = if s.exits s.context then s.context else s.context + 1 := by
  unfold ClientConnection.endRequest
  dsimp only
  split <;> exact ⟨rfl,rfl,rfl,rfl,rfl⟩

theorem Aligned.here (aligned : Aligned cfg s) (control : s.control = c) : c.Within s.conn.context :=
  control ▸ aligned.within

theorem Kept.aligned {conn : ClientConnection.State} (kept : Kept s.conn conn) (aligned : Aligned cfg s) :
    Aligned cfg { s with conn := conn } := by
  constructor
  · have same := aligned.within
    rw [← kept.context] at same
    exact same
  · intro op busy
    have task := kept.task
    have busy' : conn.op = some op := busy
    rw [busy',Option.map_some,eq_comm,Option.map_eq_some_iff] at task
    obtain ⟨was,before,same⟩ := task
    obtain ⟨mod,waiting,kind,attempt⟩ := aligned.owner was before
    refine ⟨mod,?_,?_,?_⟩
    · rw [kept.context]
      exact waiting
    · rw [← same]
      exact kind
    · rw [← same,kept.context,kept.serial]
      exact attempt

theorem Move.aligned (move : Move cfg s a next) (aligned : Aligned cfg s) : Aligned cfg next := by
  cases move with
  | stay quiet => exact aligned
  | io outer => exact (io_kept s.conn _ outer).aligned aligned
  | exited => exact ⟨aligned.within,aligned.owner⟩
  | renewed control =>
    have here := aligned.here control
    exact .of_idle here (aligned.idle control)
  | requested control kind =>
    rename_i mod context lastModState choice
    obtain rfl : context = s.conn.context := aligned.here control
    refine ⟨rfl,?_⟩
    intro op busy
    obtain rfl := Option.some.inj busy
    refine ⟨mod,rfl,kind,?_⟩
    simp [ClientConnection.runRequest,ClientConnection.called,ClientConnection.State.setTimer,
      ClientConnection.State.start,ClientConnection.State.emit,Operation.start]
  | responded control kind resp =>
    rename_i mod context lastModState choice bytes
    obtain rfl : context = s.conn.context := aligned.here control
    refine ⟨rfl,?_⟩
    intro op busy
    obtain rfl := Option.some.inj busy
    refine ⟨mod,rfl,kind,?_⟩
    simp [ClientConnection.runResponse,ClientConnection.called,ClientConnection.State.setTimer,
      ClientConnection.State.start,ClientConnection.State.emit,Operation.start]
  | unanswered control kind resp continued =>
    have here := aligned.here control
    subst here
    exact continued.aligned (aligned.idle control)
  | deferred control kind =>
    have here := aligned.here control
    exact .of_idle here (aligned.idle control)
  | returned control kind continued =>
    have here := aligned.here control
    subst here
    exact continued.aligned (aligned.idle control)
  | continued control continued =>
    have here := aligned.here control
    subst here
    exact continued.aligned (aligned.idle control)
  | finished control exits =>
    exact .of_idle trivial ((endRequest_fields s.conn).1.trans (aligned.idle control))
  | crashed control exits =>
    exact .of_idle trivial ((endRequest_fields s.conn).1.trans (aligned.idle control))
  | ended control exits =>
    rename_i context choice
    obtain rfl : context = s.conn.context := aligned.here control
    obtain ⟨op,_,_,_,count⟩ := endRequest_fields s.conn
    refine .of_idle ?_ (op.trans (aligned.idle control))
    simp [Control.Within,count,exits]
  | reads control busy done handling inbound context serial reading =>
    rename_i mod old op error ok conn
    obtain ⟨_,waiting,kind,attempt⟩ := aligned.owner op busy
    obtain ⟨rfl,rfl⟩ := Control.waiting.inj (control.symm.trans waiting)
    have restarted (stage : ClientConnection.Stage) (started : conn.op = some (.start 0 ⟨op.task.attempt,stage⟩))
        (same : isRead stage = isRead op.task.stage) : Aligned cfg { s with conn := conn } := by
      refine ⟨?_,?_⟩
      · rw [context]
        exact aligned.within
      · intro next busy'
        obtain rfl := Option.some.inj (started.symm.trans busy')
        refine ⟨mod,by rw [context]; exact control,?_,?_⟩
        · rw [Operation.start,same]
          exact kind
        · rw [context,serial]
          exact attempt
    cases handling with
    | headRead stage fine started exits log => exact restarted _ started (by simp [stage,isRead])
    | bodyRead stage fine started exits log => exact restarted _ started (by simp [stage,isRead])
    | ended hooks state cause failing none exits log silent => exact absurd none reading
    | requestRead stage fine none exits log => exact absurd none reading
    | written stage fine none exits log => exact absurd none reading
  | handled control busy done handling inbound context serial idle log =>
    have here := aligned.here control
    rw [← context] at here
    exact .of_idle here idle
  | resumed control kind =>
    have here := aligned.here control
    refine .of_idle here ?_
    cases busy : s.conn.op with
    | none => rfl
    | some op =>
      obtain ⟨_,waiting,other,_⟩ := aligned.owner op busy
      obtain ⟨rfl,_⟩ := Control.waiting.inj (control.symm.trans waiting)
      rw [kind] at other
      split at other <;> contradiction

theorem initial_aligned (cfg : Config) (fsm : Fsm) : Aligned cfg (initial fsm) := .of_idle rfl rfl

end Zerver.FsmConnection
