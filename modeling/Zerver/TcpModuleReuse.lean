import Zerver.TcpModuleOwnership
import Zerver.TcpClientPoolRuns

/-! How many requests a connection carries. A client comes back from the pool with one use
more each time, and its first request is that of the attempt that opened it. -/
namespace Zerver.TcpModule

open Zerver.Asio Zerver.TcpClientPool Zerver.Schedule

/-- A step keeps the clients within the limit of the pool, and forgets no use of a client
there was. -/
structure Uses (s next : State) : Prop where
  counts : Limited s.pool.maxTimes → Within s.pool.maxTimes ⟨s.clients,[]⟩ →
    Within s.pool.maxTimes ⟨next.clients,[]⟩ ∧ ∀ c < s.fresh, (s.clients c).times ≤ (next.clients c).times
  maxTimes : next.pool.maxTimes = s.pool.maxTimes

theorem Uses.of_eq (clients : next.clients = s.clients) (pool : next.pool = s.pool) : Uses s next := by
  refine ⟨fun _ within => ?_,by rw [pool]⟩
  rw [clients]
  exact ⟨within,fun _ _ => Int32.le_refl _⟩

theorem Uses.trans (first : Uses s middle) (fresh : middle.fresh = s.fresh) (later : Uses middle next) :
    Uses s next := by
  refine ⟨fun limited within => ?_,later.maxTimes.trans first.maxTimes⟩
  obtain ⟨between,more⟩ := first.counts limited within
  rw [← first.maxTimes] at limited between ⊢
  obtain ⟨after,most⟩ := later.counts limited between
  exact ⟨after,fun c known => Int32.le_trans (more c known) (most c (fresh ▸ known))⟩

theorem Uses.of_counts {h : Heap} (counts : Limited s.pool.maxTimes → Counts s.pool.maxTimes ⟨s.clients,[]⟩ h)
    (clients : next.clients = h.clients) (pool : next.pool.maxTimes = s.pool.maxTimes) : Uses s next := by
  refine ⟨fun limited within => ?_,pool⟩
  rw [clients]
  exact ⟨(counts limited within).1,fun c _ => (counts limited within).2 c⟩

section Frames

variable (s : State) (slot : Slot) (a : Attempt)

theorem startOperation_frame (stage : Stage) : (startOperation slot a stage s).clients = s.clients ∧
    (startOperation slot a stage s).pool = s.pool := by
  unfold startOperation
  split <;> exact ⟨rfl,rfl⟩

theorem cancelClient_frame (timeOut : TimeOut) : (cancelClient slot timeOut s).clients = s.clients ∧
    (cancelClient slot timeOut s).pool = s.pool := by
  unfold cancelClient
  dsimp only
  split <;> exact ⟨rfl,rfl⟩

theorem closeClient_uses : Uses s (closeClient slot a s) := by
  unfold closeClient
  split
  · exact .of_eq rfl rfl
  · rename_i c _
    exact .of_counts (fun _ => close_counts _ c ⟨s.clients,[]⟩) (by rw [commit_eq]) (by rw [commit_pool])

theorem onReadHeadFailed_uses : Uses s (onReadHeadFailed slot a s) := by
  have closed := closeClient_uses (cancelTimeOutTimer slot s) slot a
  exact ⟨closed.counts,closed.maxTimes⟩

theorem recollectClient_uses (now : Int) : Uses s (recollectClient slot now s) := by
  unfold recollectClient
  cases held : (s.data slot).client with
  | none => exact .of_eq (by simp [recollect,State.setClient,State.setData,commit_eq]) (by
      simp [recollect,State.setClient,State.setData,commit_eq])
  | some c =>
    have collected (maxTimes : Int32) : Counts maxTimes ⟨s.clients,[]⟩
        (recollect now (some c) s.pool ⟨s.clients,[]⟩).2 := by
      intro within
      simp only [Within,recollect_clients]
      exact ⟨within,fun _ => Int32.le_refl _⟩
    refine .of_counts (h := release c (recollect now (some c) s.pool ⟨s.clients,[]⟩).2)
      (fun _ => (collected _).trans (release_counts _ c _)) ?_ ?_
    · simp [State.setClient,State.setData,commit_eq]
    · simp [recollect,State.setClient,State.setData,commit_eq]

theorem entered_uses (body : State → State) (uses : ∀ s, Uses s (body s)) : Uses s (entered slot body s) := by
  unfold entered
  split
  · exact .of_eq rfl rfl
  · have inner := uses (s.setSocketEvent slot .closed)
    exact ⟨inner.counts,inner.maxTimes⟩

theorem handler_uses (cfg : Config) (op : Op) (error : ErrorCode) (replies : Replies) :
    Uses s (handler cfg slot op error replies s) := by
  have quiet (s : State) (stage : Stage) (a : Attempt) : Uses s (startOperation slot a stage s) :=
    .of_eq (startOperation_frame s slot a stage).1 (startOperation_frame s slot a stage).2
  unfold handler
  cases op.task.stage with
  | connect ip port =>
    refine entered_uses s slot _ fun s => ?_
    cases error with
    | success =>
      have sent := quiet ((cancelTimeOutTimer slot s).setTimer slot (.arm (.timeOut op.task.attempt)))
        (.writeReq replies.request) op.task.attempt
      exact ⟨sent.counts,sent.maxTimes⟩
    | _ => exact .of_eq rfl rfl
  | writeReq request =>
    refine entered_uses s slot _ fun s => ?_
    cases error with
    | success => exact quiet s _ _
    | _ => exact .of_eq rfl rfl
  | respHead len =>
    refine entered_uses s slot _ fun s => ?_
    cases error with
    | success =>
      dsimp only
      split
      · have read := quiet (s.emit (.onReadHeadImpl op.task.attempt op.received))
          (.respBody (cfg.respBodyLen op.task.attempt op.received)) op.task.attempt
        exact ⟨read.counts,read.maxTimes⟩
      · have failed := onReadHeadFailed_uses (s.emit (.onReadHeadImpl op.task.attempt op.received)) slot op.task.attempt
        exact ⟨failed.counts,failed.maxTimes⟩
    | failed => exact onReadHeadFailed_uses s slot op.task.attempt
    | aborted => exact .of_eq rfl rfl
  | respBody len =>
    refine entered_uses s slot _ fun s => ?_
    cases error with
    | success =>
      have collected := recollectClient_uses (cancelTimeOutTimer slot s) slot replies.now
      exact ⟨collected.counts,collected.maxTimes⟩
    | _ => exact .of_eq rfl rfl

theorem runHandler_uses (cfg : Config) (index : Nat) (replies : Replies) :
    Uses s (runHandler cfg slot index replies s) := by
  unfold runHandler
  split
  · exact .of_eq rfl rfl
  · split
    · exact .of_eq rfl rfl
    · rename_i op _ _ error _
      have handled := handler_uses (s.setOps slot ((s.ops slot).eraseIdx index)) slot cfg op error replies
      exact ⟨handled.counts,handled.maxTimes⟩

theorem runTimeOut_uses (index : Nat) : Uses s (runTimeOut slot index s) := by
  unfold runTimeOut
  split
  · exact .of_eq rfl rfl
  · rename_i timeOut error _
    cases timeOut with
    | connectTimeOut b ip port =>
      simp only [timeOutHandler,onHandleConnectTimeOut]
      split
      · exact .of_eq rfl rfl
      · exact .of_eq (cancelClient_frame _ slot _).1 (cancelClient_frame _ slot _).2
    | timeOut b =>
      simp only [timeOutHandler,onHandleTimeOut]
      split
      · exact .of_eq rfl rfl
      · exact .of_eq (cancelClient_frame _ slot _).1 (cancelClient_frame _ slot _).2

theorem complete_uses (index : Nat) (code : ErrorCode) : Uses s (complete slot index code s) := by
  unfold complete
  split
  · exact .of_eq rfl rfl
  · split
    · unfold delivered
      split <;> exact .of_eq rfl rfl
    · exact .of_eq rfl rfl

theorem transfer_uses (index count : Nat) : Uses s (transfer slot index count s) := by
  unfold transfer
  split
  · exact .of_eq rfl rfl
  · split <;> exact .of_eq rfl rfl

theorem answer_uses (cfg : Config) (socket : Nat) (response : List UInt8) : Uses s (answer cfg socket response s) := by
  unfold answer
  split
  · exact .of_eq rfl rfl
  · dsimp only
    split <;> exact .of_eq rfl rfl

theorem sweepPool_uses (now : Int) (error : Int → Nat → Bool) : Uses s (sweepPool now error s) := by
  refine .of_counts (h := (checkClients now error s.pool ⟨s.clients,[]⟩).2)
    (fun _ => checkEntries_counts _ _ _ _ _ _) ?_ ?_
  · simp [sweepPool,commit_eq]
  · simp [sweepPool,commit_eq,checkClients]

end Frames

section TakeClient

variable (s : State) (slot : Slot) (args : RunArgs)

def taken : Option Nat := (getClient args.error args.clientTypeId s.pool ⟨s.clients,[]⟩).1

theorem takeClient_times (c : Nat) : ((takeClient slot args s).clients c).times =
    ((getClient args.error args.clientTypeId s.pool ⟨s.clients,[]⟩).2.2.clients c).times := by
  have same (d : Nat) (h : Heap) : ((release d h).clients c).times = (h.clients c).times := by
    rw [release_clients]
    by_cases own : c = d
    · subst own
      simp
    · rw [Function.update_of_ne own]
  cases held : (s.data slot).client with
  | none => simp [takeClient,held,State.setClient,State.setData,commit_eq]
  | some d =>
    simp only [takeClient,held,State.setClient,State.setData,commit_eq,Option.map_some,Option.getD_some]
    exact same d _

theorem takeClient_uses : Uses s (takeClient slot args s) := by
  let found := getClient args.error args.clientTypeId s.pool ⟨s.clients,[]⟩
  have counts (limited : Limited s.pool.maxTimes) : Counts s.pool.maxTimes ⟨s.clients,[]⟩ found.2.2 :=
    getClient_counts args.error args.clientTypeId s.pool limited.2 _
  refine .of_counts (h := ((s.data slot).client.map (release · found.2.2)).getD found.2.2) (fun limited => ?_) ?_ ?_
  · cases (s.data slot).client with
    | none => exact counts limited
    | some c => exact (counts limited).trans (release_counts _ c _)
  · simp [takeClient,State.setClient,State.setData,commit_eq,found]
  · simp only [takeClient,State.setClient,State.setData,commit_eq]
    exact (getClient_limits args.error args.clientTypeId s.pool ⟨s.clients,[]⟩).1

theorem takeClient_taken (c : Nat) (found : taken s args = some c) (limited : Limited s.pool.maxTimes)
    (within : Within s.pool.maxTimes ⟨s.clients,[]⟩) :
    (s.clients c).times.toInt + 1 ≤ ((takeClient slot args s).clients c).times.toInt ∧
      ((takeClient slot args s).clients c).times ≤ s.pool.maxTimes := by
  obtain ⟨result,heap,_⟩ := getClient_eq args.error args.clientTypeId s.pool ⟨s.clients,[]⟩
  rw [takeClient_times,heap]
  exact getLoop_returned s.pool.maxTimes args.error _ ⟨s.clients,[]⟩ (result ▸ found) limited.1 limited.2 within

theorem openConnection_uses (a : Attempt) (ip : String) (port : UInt16) :
    Uses s (openConnection slot a ip port args s) := by
  -- A new client has not come from the pool yet.
  have created (limited : Limited s.pool.maxTimes) (within : Within s.pool.maxTimes ⟨s.clients,[]⟩)
      (clients : Nat → TcpClient)
      (same : clients = Function.update s.clients s.fresh ⟨0,args.clientTypeId,false,args.now,1⟩) :
      Within s.pool.maxTimes ⟨clients,[]⟩ ∧ ∀ c < s.fresh, (s.clients c).times ≤ (clients c).times := by
    subst same
    constructor
    · intro c
      dsimp only
      by_cases new : c = s.fresh
      · subst new
        rw [Function.update_self]
        exact ⟨Int32.le_refl 0,fun _ => Int32.le_of_lt limited.1⟩
      · rw [Function.update_of_ne new]
        exact within c
    · intro c known
      rw [Function.update_of_ne (Nat.ne_of_lt known)]
      exact Int32.le_refl _
  unfold openConnection
  dsimp only
  split
  · exact .of_eq rfl rfl
  · exact .of_eq rfl rfl
  · exact .of_eq rfl rfl
  · exact .of_eq rfl rfl
  · exact ⟨fun limited within => created limited within _ rfl,rfl⟩
  · obtain ⟨clients,pool⟩ := startOperation_frame ({ s.setTimer slot (.arm (.connectTimeOut a ip port)) with
      clients := Function.update s.clients s.fresh ⟨0,args.clientTypeId,false,args.now,1⟩
      wire := Function.update s.wire s.fresh ⟨[],[]⟩
      fresh := s.fresh + 1 }.setClient slot (some s.fresh)) slot a (.connect ip port)
    exact ⟨fun limited within => created limited within _ clients,congrArg Pool.maxTimes pool⟩

theorem runTaken_uses (a : Attempt) : Uses s (runTaken s slot args a) := by
  unfold runTaken
  split
  · have sent := startOperation_frame (s.setTimer slot (.arm (.timeOut a))) slot a (.writeReq args.request)
    exact .of_eq sent.1 sent.2
  · split
    · exact .of_eq rfl rfl
    · exact openConnection_uses s slot args a _ _

theorem run_uses : Uses s (run slot args s) := by
  have first : Uses s (takeClient slot args (counted s slot)) :=
    ⟨(takeClient_uses (counted s slot) slot args).counts,(takeClient_uses (counted s slot) slot args).maxTimes⟩
  have fresh : (takeClient slot args (counted s slot)).fresh = s.fresh := by
    simp [takeClient,State.setClient,State.setData,commit_eq,counted]
  rw [run_eq]
  split
  · exact .of_eq rfl rfl
  · exact first.trans fresh (runTaken_uses _ slot args _)

theorem runTaken_request (a : Attempt) (idle : s.ops slot = []) (op : Op) (request : List UInt8)
    (member : op ∈ (runTaken s slot args a).ops slot) (stage : op.task.stage = .writeReq request) :
    (s.data slot).client = some op.socket ∧ (runTaken s slot args a).clients = s.clients := by
  unfold runTaken at member ⊢
  cases client : (s.data slot).client with
  | some c =>
    simp only [client] at member ⊢
    obtain ⟨clients,_⟩ := startOperation_frame (s.setTimer slot (.arm (.timeOut a))) slot a (.writeReq args.request)
    have only : op = .start c ⟨a,.writeReq args.request⟩ := by
      simpa [sendRequest,startOperation,State.emit,State.setTimer,State.setSocketEvent,State.setData,State.setOps,
        client,idle] using member
    exact ⟨by rw [only]; rfl,clients⟩
  | none =>
    simp only [client] at member
    cases server : args.server with
    | none =>
      simp [server,State.emit,idle] at member
    | some address =>
      obtain ⟨ip,port⟩ := address
      simp only [server,openConnection] at member
      cases fault : args.fault with
      | none =>
        have only : op = .start s.fresh ⟨a,.connect ip port⟩ := by
          simpa [fault,startOperation,State.emit,State.setTimer,State.setClient,State.setSocketEvent,State.setData,
            State.setOps,idle] using member
        rw [only] at stage
        cases stage
      | some fault' =>
        cases fault' <;> simp [fault,State.emit,State.setTimer,State.setClient,State.setData,idle] at member

/-- A call of `run` that starts with a request has taken its client from the pool. -/
theorem run_taken (idle : s.ops slot = []) (op : Op) (request : List UInt8)
    (member : op ∈ (run slot args s).ops slot) (stage : op.task.stage = .writeReq request)
    (limited : Limited s.pool.maxTimes) (within : Within s.pool.maxTimes ⟨s.clients,[]⟩) :
    (s.clients op.socket).times.toInt + 1 ≤ ((run slot args s).clients op.socket).times.toInt ∧
      ((run slot args s).clients op.socket).times ≤ s.pool.maxTimes := by
  have none : (takeClient slot args (counted s slot)).ops slot = [] := by
    simp [takeClient,State.setClient,State.setData,commit_eq,counted,idle]
  have client : ((takeClient slot args (counted s slot)).data slot).client = taken (counted s slot) args := by
    simp [takeClient,State.setClient,State.setData,taken]
  rw [run_eq] at member ⊢
  split at member
  · simp [State.emit,State.setData,counted,idle] at member
  · rename_i typed
    rw [if_neg typed]
    obtain ⟨held,clients⟩ := runTaken_request _ slot args _ none op request member stage
    rw [clients]
    exact takeClient_taken (counted s slot) slot args op.socket (client ▸ held) limited within

end TakeClient

theorem step_uses (cfg : Config) (s : State) (a : Action) : Uses s (step cfg s a) := by
  cases a with
  | answer socket response => exact answer_uses s cfg socket response
  | checkClients now error => exact sweepPool_uses s now error
  | on slot action =>
    cases action with
    | run args => exact run_uses s slot args
    | complete index code => exact complete_uses s slot index code
    | transfer index count => exact transfer_uses s slot index count
    | handler index replies => exact runHandler_uses s slot cfg index replies
    | expire => exact .of_eq rfl rfl
    | timeOutHandler index => exact runTimeOut_uses s slot index

def isRequest : Stage → Bool
  | .writeReq _ => true
  | _ => false

/-- The writes of requests that are outstanding on a connection. -/
def requestsOn (c : Nat) (ops : List Op) : Nat := ops.countP fun op => op.socket = c && isRequest op.task.stage

/-- A state, and how many requests have been started on each connection; the latter is not
in the source. -/
structure Tally where
  state : State
  carried : Nat → Nat

def tally (cfg : Config) (t : Tally) (a : Action) : Tally where
  state := step cfg t.state a
  carried c :=
    match a with
    | .on slot _ => t.carried c + (requestsOn c ((step cfg t.state a).ops slot) - requestsOn c (t.state.ops slot))
    | _ => t.carried c

theorem along_tally {cfg : Config} {t : Tally} {schedule : List Action}
    (along : Along (step cfg) Sequential t.state schedule) :
    Along (tally cfg) (fun t a => Sequential t.state a) t schedule := by
  induction schedule generalizing t with
  | nil => trivial
  | cons a rest ih => exact ⟨along.1,ih along.2⟩

theorem requestsOn_same (same : ops'.map (fun op : Op => (op.task,op.socket)) = ops.map fun op => (op.task,op.socket))
    (c : Nat) : requestsOn c ops' = requestsOn c ops := by
  have counted (ops : List Op) : requestsOn c ops =
      (ops.map fun op => (op.task,op.socket)).countP fun key => key.2 = c && isRequest key.1.stage := by
    rw [List.countP_map]
    rfl
  rw [counted,counted,same]

/-- A request is started by a `run` that has a client, or by a connect that has succeeded. -/
theorem Change.requests (change : Change cfg slot d ops action data ops' events) (c : Nat) :
    requestsOn c ops' ≤ requestsOn c ops ∨
    (∃ args, action = .run args ∧ ops = [] ∧ ∃ op ∈ ops', op.socket = c ∧ ∃ request, op.task.stage = .writeReq request) ∨
    ∃ op ∈ ops, op.socket = c ∧ ∃ ip port, op.task.stage = .connect ip port := by
  cases change with
  | rejected idle => exact .inl (Nat.zero_le _)
  | ran idle ran =>
    cases ran with
    | failed timer => exact .inl (Nat.zero_le _)
    | reused =>
      rename_i args b
      by_cases same : b = c
      · exact .inr (.inl ⟨args,rfl,idle,_,List.mem_singleton_self _,same,_,rfl⟩)
      · exact .inl (by simp [requestsOn,Operation.start,same])
  | opened idle opened =>
    cases opened with
    | failed => exact .inl (Nat.zero_le _)
    | connecting => exact .inl (by simp [requestsOn,Operation.start,isRequest])
  | completed only idle enabled => exact .inl (requestsOn_same (by rw [only]; rfl) c).le
  | transferred only idle => exact .inl (requestsOn_same (by rw [only]; rfl) c).le
  | handled only done attempt handled =>
    rename_i op error replies
    cases handled with
    | connected stage =>
      by_cases same : op.socket = c
      · exact .inr (.inr ⟨op,only_mem only,same,_,_,stage⟩)
      · exact .inl (by simp [requestsOn,Operation.start,same])
    | written stage => exact .inl (by simp [requestsOn,Operation.start,isRequest])
    | headAccepted stage => exact .inl (by simp [requestsOn,Operation.start,isRequest])
    | _ => exact .inl (Nat.zero_le _)
  | bodyRead only done attempt stage => exact .inl (Nat.zero_le _)
  | expired => exact .inl le_rfl
  | ignored queued other => exact .inl le_rfl
  | fired queued fired =>
    generalize d.client = client at fired
    cases fired with
    | cancelled => exact .inl (requestsOn_same (by simp [Function.comp_def]) c).le
    | missing => exact .inl le_rfl

theorem mem_update_ops {ops : Slot → List Op} (member : op ∈ Function.update ops acting ops' slot) :
    (slot = acting ∧ op ∈ ops') ∨ op ∈ ops slot := by
  by_cases same : slot = acting
  · subst same
    exact .inl ⟨rfl,by simpa using member⟩
  · rw [Function.update_of_ne same] at member
    exact .inr member

/-- A connect is on a new client. -/
theorem Move.connects (move : Move cfg s a next) (slot : Slot) (op : Op) (member : op ∈ next.ops slot)
    (stage : op.task.stage = .connect ip port) :
    op.socket = s.fresh ∨ ∃ old ∈ s.ops slot, old.socket = op.socket ∧ old.task.stage = .connect ip port := by
  have kept (here : op ∈ s.ops slot) : ∃ old ∈ s.ops slot, old.socket = op.socket ∧
      old.task.stage = .connect ip port := ⟨op,here,rfl,stage⟩
  cases move with
  | stay => exact .inr (kept member)
  | rejected idle => exact .inr (kept ((mem_update_ops member).resolve_left (by simp)))
  | ran dropped idle perm ran =>
    rcases mem_update_ops member with ⟨rfl,new⟩ | old
    · cases ran with
      | reused =>
        rw [List.mem_singleton.mp new] at stage
        cases stage
      | failed timer => simp at new
    · exact .inr (kept old)
  | opened dropped idle perm opened =>
    rcases mem_update_ops member with ⟨rfl,new⟩ | old
    · cases opened with
      | connecting => exact .inl (by rw [List.mem_singleton.mp new]; rfl)
      | failed => simp at new
    · exact .inr (kept old)
  | completed only idle enabled =>
    rename_i acting before code
    rw [(delivered_fields before code (s.setOps acting [before.complete code])).2.2.2] at member
    rcases mem_update_ops member with ⟨rfl,new⟩ | old
    · rw [List.mem_singleton] at new
      subst new
      exact .inr ⟨before,only_mem only,rfl,stage⟩
    · exact .inr (kept old)
  | transferred only idle bound =>
    rcases mem_update_ops member with ⟨rfl,new⟩ | old
    · rw [List.mem_singleton] at new
      subst new
      exact .inr ⟨_,only_mem only,rfl,stage⟩
    · exact .inr (kept old)
  | handled only done opened attempt client handled =>
    rcases mem_update_ops member with ⟨rfl,new⟩ | old
    · cases handled with
      | connected _ | written _ | headAccepted _ =>
        rw [List.mem_singleton.mp new] at stage
        cases stage
      | _ => simp at new
    · exact .inr (kept old)
  | bodyRead only done opened attempt client stage perm => exact .inr (kept ((mem_update_ops member).resolve_left (by simp)))
  | fired queued fired =>
    rename_i acting index timeOut ops events
    rcases mem_update_ops member with ⟨rfl,new⟩ | old
    · generalize (s.data slot).client = client at fired
      cases fired with
      | cancelled =>
        obtain ⟨old,here,rfl⟩ := List.mem_map.mp new
        exact .inr ⟨old,here,by simp,by simpa using stage⟩
      | missing => exact .inr (kept new)
    · exact .inr (kept old)
  | _ => exact .inr (kept member)

theorem Move.fresh (move : Move cfg s a next) : s.fresh ≤ next.fresh := by
  cases move with
  | opened dropped idle perm opened => exact Nat.le_succ _
  | completed only idle enabled =>
    rename_i slot op code
    exact (delivered_fields op code (s.setOps slot [op.complete code])).2.2.1.ge
  | _ => exact le_rfl

/-- The requests of a connection against its client's uses. -/
structure Carries (maxTimes : Int32) (t : Tally) : Prop where
  sound : Sound none t.state
  limit : t.state.pool.maxTimes = maxTimes
  within : Within maxTimes ⟨t.state.clients,[]⟩
  unborn : ∀ c, t.state.fresh ≤ c → t.carried c = 0
  uses : ∀ c, (t.carried c : Int) ≤ (t.state.clients c).times.toInt + 1 ∧ (t.carried c : Int) ≤ maxTimes.toInt + 1
  connecting : ∀ slot, ∀ op ∈ t.state.ops slot, ∀ ip port, op.task.stage = .connect ip port → t.carried op.socket = 0

theorem Sound.requestsOn_le (sound : Sound none s) (slot : Slot) (c : Nat) : requestsOn c (s.ops slot) ≤ 1 := by
  by_cases opened : (s.data slot).socketEvent = .opened
  · obtain ⟨op,only,_⟩ := (sound.balanced.flagged slot).opened opened
    rw [only]
    exact List.countP_le_length
  · rw [(sound.balanced.flagged slot).quiet opened]
    exact Nat.zero_le _

theorem Sound.requestsOn_pos (sound : Sound none s) (slot : Slot) (c : Nat) (some : 0 < requestsOn c (s.ops slot)) :
    (s.data slot).client = Option.some c := by
  obtain ⟨op,member,own⟩ := List.countP_pos_iff.mp some
  simp only [Bool.and_eq_true,decide_eq_true_eq] at own
  rw [sound.socket slot op member,own.1]

/-- A step starts at most one request on a connection: its first, or one on a client that
the pool has just counted. -/
inductive Gain (maxTimes : Int32) (s next : State) (c before : Nat) : Nat → Prop where
  | none : Gain maxTimes s next c before before
  | first (slot : Slot) : 0 < requestsOn c (next.ops slot) → before = 0 → Gain maxTimes s next c before (before + 1)
  | again (slot : Slot) : 0 < requestsOn c (next.ops slot) →
      (s.clients c).times.toInt + 1 ≤ (next.clients c).times.toInt →
      (next.clients c).times ≤ maxTimes → Gain maxTimes s next c before (before + 1)

theorem step_gain (cfg : Config) (limited : Limited maxTimes) (t : Tally) (a : Action)
    (sequential : Sequential t.state a) (valid : Carries maxTimes t) (c : Nat) :
    Gain maxTimes t.state (step cfg t.state a) c (t.carried c) ((tally cfg t a).carried c) := by
  have sound := valid.sound
  have later := step_sound cfg t.state a sequential sound
  cases a with
  | answer socket response => exact .none
  | checkClients now error => exact .none
  | on slot action =>
    have gained : (tally cfg t (.on slot action)).carried c = t.carried c +
        (requestsOn c ((step cfg t.state (.on slot action)).ops slot) - requestsOn c (t.state.ops slot)) := rfl
    by_cases fewer : requestsOn c ((step cfg t.state (.on slot action)).ops slot) ≤ requestsOn c (t.state.ops slot)
    · rw [gained,Nat.sub_eq_zero_of_le fewer]
      exact .none
    · have one := later.requestsOn_le slot c
      have some : 0 < requestsOn c ((step cfg t.state (.on slot action)).ops slot) := by omega
      rw [gained,show requestsOn c ((step cfg t.state (.on slot action)).ops slot) -
        requestsOn c (t.state.ops slot) = 1 by omega]
      rcases (step_moves cfg sound (.on slot action) sequential).change with same | ⟨data,ops,events,change,_,opsEq,_⟩
      · rw [same] at fewer
        exact absurd le_rfl fewer
      · rw [opsEq,Function.update_self] at fewer
        rcases change.requests c with none | ⟨args,rfl,idle,op,member,rfl,request,stage⟩ | ⟨op,member,rfl,ip,port,stage⟩
        · exact absurd none fewer
        · have here : op ∈ (run slot args t.state).ops slot := by
            change op ∈ (step cfg t.state (.on slot (.run args))).ops slot
            rw [opsEq,Function.update_self]
            exact member
          have within := valid.within
          rw [← valid.limit] at limited within ⊢
          obtain ⟨more,most⟩ := run_taken t.state slot args idle op request here stage limited within
          exact .again slot some more most
        · exact .first slot some (valid.connecting slot op member ip port stage)

theorem step_carries (cfg : Config) (limited : Limited maxTimes) (t : Tally) (a : Action)
    (sequential : Sequential t.state a) (valid : Carries maxTimes t) : Carries maxTimes (tally cfg t a) := by
  have sound := valid.sound
  have later := step_sound cfg t.state a sequential sound
  have move := step_moves cfg sound a sequential
  have uses := step_uses cfg t.state a
  have gain := step_gain cfg limited t a sequential valid
  have counts := uses.counts
  rw [valid.limit] at counts
  obtain ⟨within,times⟩ := counts limited valid.within
  refine ⟨later,uses.maxTimes.trans valid.limit,within,?_,?_,?_⟩
  · intro c new
    have unborn := valid.unborn c (move.fresh.trans new)
    have gain := gain c
    generalize (tally cfg t a).carried c = after at gain
    have foreign (slot : Slot) (writes : 0 < requestsOn c ((step cfg t.state a).ops slot)) : False :=
      absurd (later.owned.heldFresh slot c (later.requestsOn_pos slot c writes)) (Nat.not_lt_of_le new)
    cases gain with
    | none => exact unborn
    | first slot writes => exact (foreign slot writes).elim
    | again slot writes => exact (foreign slot writes).elim
  · intro c
    obtain ⟨few,bound⟩ := valid.uses c
    have gain := gain c
    have state : (tally cfg t a).state = step cfg t.state a := rfl
    have used : 0 ≤ ((step cfg t.state a).clients c).times.toInt := Int32.le_iff_toInt_le.mp (within c).1
    rw [state]
    generalize (tally cfg t a).carried c = after at gain
    cases gain with
    | none =>
      refine ⟨?_,bound⟩
      by_cases known : c < t.state.fresh
      · have more := Int32.le_iff_toInt_le.mp (times c known)
        omega
      · rw [valid.unborn c (Nat.le_of_not_lt known)]
        push_cast
        omega
    | first slot writes fresh =>
      rw [fresh]
      have positive := Int32.lt_iff_toInt_lt.mp limited.1
      rw [Int32.toInt_zero] at positive
      push_cast
      constructor <;> omega
    | again slot writes more most =>
      have most := Int32.le_iff_toInt_le.mp most
      push_cast
      constructor <;> omega
  · intro slot op member ip port stage
    have gain := gain op.socket
    have none : t.carried op.socket = 0 := by
      rcases move.connects slot op member stage with new | ⟨old,here,same,connect⟩
      · exact valid.unborn _ new.ge
      · exact same ▸ valid.connecting slot old here ip port connect
    have foreign (other : Slot) (writes : 0 < requestsOn op.socket ((step cfg t.state a).ops other)) : False := by
      have held := later.requestsOn_pos other op.socket writes
      obtain rfl := later.owned.unique other slot _ held (later.socket slot op member)
      obtain ⟨i,bound,here⟩ := List.mem_iff_getElem.mp member
      have only := (later.single (List.getElem?_eq_some_iff.mpr ⟨bound,here⟩)).2.1
      simp [only,requestsOn,stage,isRequest] at writes
    generalize (tally cfg t a).carried op.socket = after at gain ⊢
    cases gain with
    | none => exact none
    | first other writes => exact (foreign other writes).elim
    | again other writes => exact (foreign other writes).elim

theorem run_carries (cfg : Config) (maxTimes : Int32) (checkTime : Int) (limited : Limited maxTimes)
    (schedule : List Action) (sequential : Along (step cfg) Sequential (initial maxTimes checkTime) schedule) :
    Carries maxTimes (execute (tally cfg) ⟨initial maxTimes checkTime,fun _ => 0⟩ schedule) := by
  have positive : 0 ≤ maxTimes.toInt := Int32.le_iff_toInt_le.mp (Int32.le_of_lt limited.1)
  refine along_invariant (fun t a => step_carries cfg limited t a) ?_ schedule ?_
  · refine ⟨initial_sound maxTimes checkTime,rfl,?_,fun _ _ => rfl,fun c => ?_,by simp [initial]⟩
    · exact fun _ => ⟨Int32.le_refl 0,fun opened => absurd opened (by simp [initial])⟩
    · exact ⟨by simp [initial],by push_cast; omega⟩
  · exact along_tally sequential

/-- The pool gives out the oldest usable client of the right peer, within its uses, in every
run of its calls; and in every run of the TcpModules in which no two branches share one, a
connection carries one request more than that, the one it was opened for. Only a limit
that is the largest `int` never takes effect. -/
theorem oldest_within_uses (maxTimes : Int32) (checkTime : Int) :
    (∀ now schedule,
      let s := execute TcpClientPool.step (TcpClientPool.initial maxTimes checkTime now) schedule
      (∀ peer, ∀ c ∈ dequeOf peer s.pool, (s.clients c).peerId = peer) ∧
      (∀ peer, (dequeOf peer s.pool).Sublist s.collected) ∧
      (∀ peer error, Oldest maxTimes s peer error) ∧
      (0 < maxTimes → maxTimes < Int32.maxValue → ∀ c, (s.served.count c : Int) ≤ maxTimes.toInt)) ∧
    ∀ cfg schedule, Along (step cfg) Sequential (initial maxTimes checkTime) schedule →
      0 < maxTimes → maxTimes < Int32.maxValue → ∀ c,
      ((execute (tally cfg) ⟨initial maxTimes checkTime,fun _ => 0⟩ schedule).carried c : Int) ≤ maxTimes.toInt + 1 := by
  refine ⟨?_,fun cfg schedule sequential positive small c =>
    ((run_carries cfg maxTimes checkTime ⟨positive,small⟩ schedule sequential).uses c).2⟩
  intro now schedule s
  have sound := TcpClientPool.run_sound maxTimes checkTime now schedule
  exact ⟨sound.filed,sound.ordered,sound.oldest,fun positive small c => (sound.uses ⟨positive,small⟩ c).2⟩

theorem first_request_carried :
    let t := execute (tally ⟨fun _ => 1,fun _ _ => 1⟩) ⟨initial 2 10,fun _ => 0⟩ ((responseRead ⟨0,0⟩ 0).take 3)
    t.carried 0 = 1 ∧ (t.carried 0 : Int) ≤ 2 + 1 := by
  intro t
  have sequential : Along (step ⟨fun _ => 1,fun _ _ => 1⟩) Sequential (initial 2 10)
      ((responseRead ⟨0,0⟩ 0).take 3) := ⟨rfl,trivial,trivial,trivial⟩
  exact ⟨by decide,(oldest_within_uses 2 10).2 _ _ sequential (by decide) (by decide) 0⟩

/-- Two branches of a fork run the module. The first has connected when the second takes
the client that another context has given back; both send their request on it. -/
def sharedReuse : List Action :=
  let slot : Slot := ⟨0,0⟩
  let other : Slot := ⟨1,0⟩
  let run : Action := .on slot (.run ⟨0,fun _ => false,some ("10.0.0.1",80),none,[2],0⟩)
  let handler : LocalAction := .handler 0 ⟨[1],true,true,0⟩
  [run,.on slot (.complete 0 .success)] ++ responseRead other 1 ++ [.on other handler,run,.on slot handler]

def reuse : List TcpClientPool.Action := [.getClient 0 fun _ => false,.recollect (some 0),.drop 0]

def reuses (count : Nat) : List TcpClientPool.Action :=
  [.create 0,.recollect (some 0),.drop 0] ++ (List.replicate count reuse).flatten

/-- The pool with its one client at home. -/
def AtHome (s : TcpClientPool.State) : Prop :=
  s.pool = ⟨Int32.maxValue,10,[(0,[0])]⟩ ∧ s.fresh = 1 ∧ (s.clients 0).isClosed = false ∧
    (s.clients 0).useCount = 1 ∧ (s.clients 0).peerId = 0

/-- No `int` exceeds the largest one, so the client goes out whatever its count is. -/
theorem reuse_atHome (home : AtHome s) : AtHome (execute TcpClientPool.step s reuse) ∧
    (execute TcpClientPool.step s reuse).served = s.served ++ [0] := by
  obtain ⟨pool,fresh,opened,shared,peer⟩ := home
  have positive : (0 : Int32) < Int32.maxValue := by decide
  have unlimited (times : Int32) : ¬ Int32.maxValue < times := Int32.not_lt.mpr (Int32.le_maxValue times)
  have taken : TcpClientPool.step s (.getClient 0 fun _ => false) = { s with
      pool := ⟨Int32.maxValue,10,[(0,[])]⟩
      clients := (increaseTimes 0 s.heap).clients
      served := s.served ++ [0] } := by
    simp [TcpClientPool.step,getClient,getLoop,pool,TcpClientPool.State.heap,opened,positive,unlimited,assign]
  simp only [reuse,execute_cons,execute_nil,taken]
  simp [TcpClientPool.step,AtHome,fresh,recollect,release_clients,TcpClientPool.State.heap,increaseTimes,retain,
    onRecollect,Heap.modify,opened,shared,peer,assign,pooled]

theorem reuses_served (count : Nat) :
    AtHome (execute TcpClientPool.step (TcpClientPool.initial Int32.maxValue 10 0) (reuses count)) ∧
    (execute TcpClientPool.step (TcpClientPool.initial Int32.maxValue 10 0) (reuses count)).served =
      List.replicate count 0 := by
  induction count with
  | zero => exact ⟨by refine ⟨?_,?_,?_,?_,?_⟩ <;> rfl,rfl⟩
  | succ count ih =>
    have split : reuses (count + 1) = reuses count ++ reuse := by
      simp [reuses,List.replicate_succ']
    obtain ⟨home,served⟩ := ih
    rw [split,execute_append]
    obtain ⟨later,more⟩ := reuse_atHome home
    exact ⟨later,by rw [more,served,List.replicate_succ']⟩

/-- A connection carries three requests under a limit of one; and under the largest limit a
client goes out more often than that. -/
theorem uses_beyond_limit :
    (execute (tally ⟨fun _ => 1,fun _ _ => 1⟩) ⟨initial 1 10,fun _ => 0⟩ sharedReuse).carried 1 = 3 ∧
    Int32.maxValue.toInt <
      ((execute TcpClientPool.step (TcpClientPool.initial Int32.maxValue 10 0) (reuses 2147483648)).served.count 0 : Int) := by
  refine ⟨by decide +kernel,?_⟩
  rw [(reuses_served 2147483648).2,List.count_replicate_self]
  decide

end Zerver.TcpModule
