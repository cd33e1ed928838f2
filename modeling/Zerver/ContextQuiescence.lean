import Zerver.ClientConnectionTimeOuts
import Zerver.TcpModuleFailedRun

/-! What is outstanding when a request ends. `recollectable` looks at the socket events
of the TcpModules; the timers of all three kinds of modules are spent by then, in the
runs that never cancel a timer over a queued expiry and never fail after arming one. -/
namespace Zerver.TcpModule

open Zerver.Asio Zerver.Schedule

/-- The completion handlers that cancel the timer, or cancel it and arm it again. -/
def settles (op : Op) (error : ErrorCode) (replies : Replies) : Bool :=
  match op.task.stage, error with
  | _, .aborted => false
  | .writeReq _, .success => false
  | .respHead _, .success => !replies.headOk
  | _, _ => true

/-- Whenever a completion handler cancels or re-arms its timer, no expiry of that timer
is queued already: the cancel could not recall it. -/
def Recalled (s : State) : Action → Prop
  | .on slot (.handler index replies) => ∀ op error, (s.ops slot)[index]? = some op →
    op.result = some error → settles op error replies = true → (s.data slot).timer.expiries = []
  | _ => True

/-- No exception is thrown in `run` once the connect timer has been armed. -/
def Unfailing : Action → Prop
  | .on _ (.run args) => args.fault ≠ some .socket ∧ args.fault ≠ some .connect
  | _ => True

/-- A `ModuleData` without an operation has no time-out pending; with one it has at
most one, and none once the operation has been aborted. -/
structure Settled (d : ModuleData) (ops : List Op) : Prop where
  idle : ops = [] → d.timer.pending = []
  single : d.timer.pending.length ≤ 1
  aborted : ∀ op ∈ ops, op.result = some .aborted → d.timer.pending = []

theorem Settled.of_spent (spent : d.timer.pending = []) : Settled d ops :=
  ⟨fun _ => spent,by simp [spent],fun _ _ _ => spent⟩

theorem Settled.of_started (few : d.timer.pending.length ≤ 1) (socket : Nat) (task : Task) :
    Settled d [.start socket task] := by
  refine ⟨by simp,few,?_⟩
  intro op member aborted
  obtain rfl := List.mem_singleton.mp member
  simp [Operation.start] at aborted

theorem Settled.repend {timer : Timer TimeOut} (valid : Settled d ops)
    (same : timer.pending.Perm d.timer.pending) : Settled { d with timer := timer } ops where
  idle none := (valid.idle none ▸ same).eq_nil
  single := same.length_eq ▸ valid.single
  aborted op member aborted := (valid.aborted op member aborted ▸ same).eq_nil

theorem run_unfailed (s : State) (slot : Slot) (args : RunArgs) (unfailing : Unfailing (.on slot (.run args)))
    (unstarted : (run slot args s).ops slot = []) :
    ((run slot args s).data slot).timer = (s.data slot).timer ∨
      ((run slot args s).data slot).timer = (s.data slot).timer.cancel := by
  obtain ⟨noSocket,noConnect⟩ := unfailing
  have failed := (run_outcome s slot args).resolve_right fun started => started.ops unstarted
  rcases failed.timer with ⟨⟨_,_,_,socket | connect⟩,_⟩ | ⟨_,timer⟩
  · exact absurd socket noSocket
  · exact absurd connect noConnect
  · exact timer

theorem head_accepted (cfg : Config) (replies : Replies) (ready : Ready s slot op .success)
    (stage : op.task.stage = .respHead len) (accepted : replies.headOk = true) :
    (handler cfg slot op .success replies (s.setOps slot [])).ops slot ≠ [] := by
  simp only [handler,stage,onRecvRespHead,ready.enter,accepted,↓reduceIte]
  simp [startOperation,ready.client,State.emit,State.setSocketEvent,State.setData,State.setOps]

theorem Handled.settled (handled : Handled cfg op replies d error data ops' events)
    (valid : Settled d [op]) (done : op.result = some error)
    (accepted : error = .success → replies.headOk = true → ∀ len, op.task.stage = .respHead len → ops' ≠ [])
    (recalled : settles op error replies = true → d.timer.expiries = []) : Settled data ops' := by
  cases handled with
  | aborted => exact .of_spent (valid.aborted op (List.mem_singleton_self op) done)
  | failed =>
    have none := recalled (by cases stage : op.task.stage <;> simp [settles])
    exact .of_spent (by simp [none])
  | connected stage =>
    have none := recalled (by simp [settles,stage])
    exact .of_started (by simp [none]) _ _
  | written stage =>
    refine .of_started ?_ _ _
    exact valid.single
  | headAccepted stage =>
    refine .of_started ?_ _ _
    exact valid.single
  | headRejected stage =>
    have rejected : replies.headOk = false := by
      rw [Bool.eq_false_iff]
      intro ok
      exact accepted rfl ok _ stage rfl
    have none := recalled (by simp [settles,stage,rejected])
    exact .of_spent (by simp [none])

theorem Change.settled (change : Change cfg slot d ops action data ops' events) (valid : Settled d ops)
    (aborts : ∀ index, action ≠ .complete index .aborted)
    (failing : ∀ args, action = .run args → ops = [] → ops' = [] →
      data.timer = d.timer ∨ data.timer = d.timer.cancel)
    (accepted : ∀ replies op, action = .handler 0 replies → ops = [op] → op.result = some .success →
      replies.headOk = true → ∀ len, op.task.stage = .respHead len → ops' ≠ [])
    (recalled : ∀ replies op error, action = .handler 0 replies → ops = [op] → op.result = some error →
      settles op error replies = true → d.timer.expiries = []) : Settled data ops' := by
  have unstarted (args : RunArgs) (run : action = .run args) (idle : ops = []) (none : ops' = []) :
      Settled data ops' := by
    have spent := valid.idle idle
    apply Settled.of_spent
    rcases failing args run idle none with same | cancelled
    · rw [same,spent]
    · rw [cancelled,Timer.pending_cancel,Timer.expiries_of_pending spent]
  cases change with
  | rejected idle => exact unstarted _ rfl idle rfl
  | ran idle ran =>
    cases ran with
    | reused => exact .of_started (by simp [Timer.expiries_of_pending (valid.idle idle)]) _ _
    | failed timer => exact unstarted _ rfl idle rfl
  | opened idle opened =>
    cases opened with
    | connecting => exact .of_started (by simp [Timer.expiries_of_pending (valid.idle idle)]) _ _
    | failed => exact unstarted _ rfl idle rfl
  | completed only idle enabled =>
    refine ⟨by simp,valid.single,?_⟩
    intro op' member aborted
    obtain rfl := List.mem_singleton.mp member
    simp only [Operation.complete,idle,Option.getD_none,Option.some.injEq] at aborted
    exact absurd (congrArg (LocalAction.complete 0) aborted) (aborts 0)
  | transferred only idle =>
    refine ⟨by simp,valid.single,?_⟩
    intro op' member aborted
    obtain rfl := List.mem_singleton.mp member
    simp [idle] at aborted
  | handled only done attempt handled =>
    refine handled.settled (only ▸ valid) done ?_ (recalled _ _ _ rfl only done)
    rintro rfl ok
    exact accepted _ _ rfl only done ok
  | bodyRead only done attempt stage =>
    have none := recalled _ _ _ rfl only done (by simp [settles,stage])
    exact .of_spent (by simp [none])
  | expired =>
    have same : d.timer.expire.pending.Perm d.timer.pending := by
      rw [Timer.pending_expire]
      exact List.perm_append_comm
    exact valid.repend same
  | ignored queued other => exact valid.repend (Timer.pending_take_other _ queued other)
  | fired queued fired =>
    have used := (Timer.pending_take d.timer queued).length_eq
    have few := valid.single
    refine .of_spent (List.eq_nil_of_length_eq_zero ?_)
    rw [List.length_cons] at used
    dsimp only
    omega

theorem step_frame (cfg : Config) (sound : Sound none s) (a : Action) (sequential : Sequential s a) (slot : Slot)
    (apart : ∀ action, a ≠ .on slot action) :
    (step cfg s a).data slot = s.data slot ∧ (step cfg s a).ops slot = s.ops slot := by
  have move := step_moves cfg sound a sequential
  cases a with
  | on acting action =>
    have other : slot ≠ acting := by
      rintro rfl
      exact apart action rfl
    rcases move.change with same | ⟨data,ops,events,_,dataEq,opsEq,_⟩
    · rw [same]
      exact ⟨rfl,rfl⟩
    · rw [dataEq,opsEq,Function.update_of_ne other,Function.update_of_ne other]
      exact ⟨rfl,rfl⟩
  | answer socket response =>
    obtain ⟨dataEq,opsEq,_⟩ := move.elsewhere (by simp)
    rw [dataEq,opsEq]
    exact ⟨rfl,rfl⟩
  | checkClients now error =>
    obtain ⟨dataEq,opsEq,_⟩ := move.elsewhere (by simp)
    rw [dataEq,opsEq]
    exact ⟨rfl,rfl⟩

theorem step_settled (cfg : Config) (sound : Sound none s) (a : Action) (sequential : Sequential s a)
    (aborts : AbortsAreCancels a) (unfailing : Unfailing a) (recalled : Recalled s a)
    (valid : ∀ slot, Settled (s.data slot) (s.ops slot)) (slot : Slot) :
    Settled ((step cfg s a).data slot) ((step cfg s a).ops slot) := by
  by_cases own : ∃ action, a = .on slot action
  · obtain ⟨action,rfl⟩ := own
    rcases (step_moves cfg sound _ sequential).change with same | ⟨data,ops,events,change,dataEq,opsEq,_⟩
    · rw [same]
      exact valid slot
    · rw [dataEq,opsEq,Function.update_self,Function.update_self]
      refine change.settled (valid slot) ?_ ?_ ?_ ?_
      · rintro index rfl
        exact aborts slot index rfl
      · rintro args rfl idle unstarted
        change (run slot args s).data = _ at dataEq
        change (run slot args s).ops = _ at opsEq
        have outcome := run_unfailed s slot args unfailing
        rw [dataEq,opsEq,Function.update_self,Function.update_self] at outcome
        exact outcome unstarted
      · rintro replies op rfl only done ok len stage
        have first : (s.ops slot)[0]? = some op := by
          rw [only]
          rfl
        obtain ⟨_,_,opened,attempt,client⟩ := sound.single first
        have stepped : step cfg s (.on slot (.handler 0 replies)) =
            handler cfg slot op .success replies (s.setOps slot []) := by
          simp [step,localStep,runHandler,only,done]
        rw [stepped] at opsEq
        have started := head_accepted cfg replies ⟨sound,only,done,opened,attempt,client⟩ stage ok
        rwa [opsEq,Function.update_self] at started
      · rintro replies op error rfl only done settles
        have first : (s.ops slot)[0]? = some op := by
          rw [only]
          rfl
        exact recalled op error first done settles
  · obtain ⟨dataEq,opsEq⟩ := step_frame cfg sound a sequential slot fun action eq => own ⟨action,eq⟩
    rw [dataEq,opsEq]
    exact valid slot

theorem run_frame (cfg : Config) (maxTimes : Int32) (checkTime : Int) (schedule : List Action) (slot : Slot)
    (sequential : Along (step cfg) Sequential (initial maxTimes checkTime) schedule)
    (apart : ∀ a ∈ schedule, ∀ action, a ≠ .on slot action) :
    let s := execute (step cfg) (initial maxTimes checkTime) schedule
    s.data slot = (initial maxTimes checkTime).data slot := by
  have preserved : ∀ s a, Sequential s a ∧ (∀ action, a ≠ .on slot action) →
      Sound none s ∧ s.data slot = (initial maxTimes checkTime).data slot →
      Sound none (step cfg s a) ∧ (step cfg s a).data slot = (initial maxTimes checkTime).data slot := by
    rintro s a ⟨sequential,apart⟩ ⟨sound,same⟩
    exact ⟨step_sound cfg s a sequential sound,(step_frame cfg sound a sequential slot apart).1.trans same⟩
  exact (along_invariant preserved ⟨initial_sound maxTimes checkTime,rfl⟩ schedule
    (along_and sequential (along_of_forall schedule apart))).2

theorem run_settled (cfg : Config) (maxTimes : Int32) (checkTime : Int) (schedule : List Action)
    (sequential : Along (step cfg) Sequential (initial maxTimes checkTime) schedule)
    (aborts : ∀ a ∈ schedule, AbortsAreCancels a) (unfailing : ∀ a ∈ schedule, Unfailing a)
    (recalled : Along (step cfg) Recalled (initial maxTimes checkTime) schedule) :
    let s := execute (step cfg) (initial maxTimes checkTime) schedule
    Sound none s ∧ ∀ slot, Settled (s.data slot) (s.ops slot) := by
  have preserved : ∀ s a, (AbortsAreCancels a ∧ Unfailing a) ∧ Recalled s a ∧ Sequential s a →
      Sound none s ∧ (∀ slot, Settled (s.data slot) (s.ops slot)) →
      Sound none (step cfg s a) ∧
        ∀ slot, Settled ((step cfg s a).data slot) ((step cfg s a).ops slot) := by
    rintro s a ⟨⟨aborts,unfailing⟩,recalled,sequential⟩ ⟨sound,valid⟩
    exact ⟨step_sound cfg s a sequential sound,step_settled cfg sound a sequential aborts unfailing recalled valid⟩
  have begun : ∀ slot, Settled ((initial maxTimes checkTime).data slot)
      ((initial maxTimes checkTime).ops slot) := fun _ => .of_spent rfl
  have each : ∀ a ∈ schedule, AbortsAreCancels a ∧ Unfailing a :=
    fun a member => ⟨aborts a member,unfailing a member⟩
  exact along_invariant preserved ⟨initial_sound maxTimes checkTime,begun⟩ schedule
    (along_and (along_of_forall schedule each) (along_and recalled sequential))

end Zerver.TcpModule

namespace Zerver.ClientConnection

open Zerver.Asio Zerver.Schedule

/-- `FsmContext::recollectable`: only the data of TcpModules ever refuse. -/
def Recollectable (context : Nat) (u : TcpModule.State) : Prop :=
  ∀ module, (u.data ⟨context,module⟩).socketEvent ≠ .opened

/-- Nothing of the context is outstanding that would still act: no operation of a
TcpModule or on the client socket, and no time-out that will run with no error. -/
structure Quiescent (context : Nat) (u : TcpModule.State) (s : State) : Prop where
  upstreamOps : ∀ module, u.ops ⟨context,module⟩ = []
  upstreamTimers : ∀ module, (u.data ⟨context,module⟩).timer.pending = []
  clientOps : ∀ op, s.op = some op → op.task.attempt.slot.context ≠ context
  clientTimers : ∀ module, (s.data ⟨context,module⟩).timer.pending = []

/-- In every run in which no timer is cancelled over a queued expiry and no `run` throws
after arming one, a recollectable context that can end is quiescent. There is no fork, so
a TcpModule is run again in a context only after its last attempt has resumed. -/
theorem recollectable_quiescent (cfg : TcpModule.Config) (maxTimes : Int32) (checkTime : Int)
    (upstream : List TcpModule.Action) (client : List Action)
    (sequential : Along (TcpModule.step cfg) TcpModule.Sequential (TcpModule.initial maxTimes checkTime) upstream)
    (upstreamAborts : ∀ a ∈ upstream, TcpModule.AbortsAreCancels a)
    (clientAborts : ∀ a ∈ client, AbortsAreCancels a)
    (unfailing : ∀ a ∈ upstream, TcpModule.Unfailing a)
    (upstreamRecalled : Along (TcpModule.step cfg) TcpModule.Recalled
      (TcpModule.initial maxTimes checkTime) upstream)
    (clientRecalled : Along step Recalled initial client) :
    let u := execute (TcpModule.step cfg) (TcpModule.initial maxTimes checkTime) upstream
    let s := execute step initial client
    free s = true → Recollectable s.context u → Quiescent s.context u s := by
  intro u s ended recollectable
  obtain ⟨sound,settled⟩ := TcpModule.run_settled cfg maxTimes checkTime upstream sequential
    upstreamAborts unfailing upstreamRecalled
  have aimed := (run_aimed client clientAborts clientRecalled).1
  simp only [free,Bool.and_eq_true,Option.isNone_iff_eq_none] at ended
  have quiet (module : Nat) : u.ops ⟨s.context,module⟩ = [] :=
    (sound.balanced.flagged _).quiet (recollectable module)
  refine ⟨quiet,fun module => (settled _).idle (quiet module),?_,?_⟩
  · intro op busy
    rw [ended.1] at busy
    contradiction
  · intro module
    rw [ended.1] at aimed
    exact aimed.idle _

def connectRefused : List TcpModule.Action :=
  let slot : Slot := ⟨0,1⟩
  [.on slot (.run ⟨0,fun _ => false,some ("10.0.0.1",80),none,[],0⟩),.on slot (.complete 0 .failed),
    .on slot (.handler 0 ⟨[],true,true,0⟩)]

def requestRead : List Action :=
  let replies : Replies := ⟨true,1,modSucceed⟩
  [.runRequest 0 1,.send [1,2,3],.transfer 1,.complete .success,.handler replies,
    .transfer 1,.complete .success,.handler replies,.transfer 1,.complete .success]

theorem connectRefused_sequential : Along (TcpModule.step ⟨fun _ => 1,fun _ _ => 1⟩) TcpModule.Sequential
    (TcpModule.initial 0 0) connectRefused := ⟨rfl,trivial,trivial,trivial⟩

theorem refused_request_quiescent :
    let u := execute (TcpModule.step ⟨fun _ => 1,fun _ _ => 1⟩) (TcpModule.initial 0 0) connectRefused
    let s := execute step initial (requestRead ++ [.handler ⟨true,1,modSucceed⟩])
    free s = true ∧ s.context = 0 ∧ Quiescent 0 u s := by
  refine ⟨by decide,by decide,?_⟩
  refine recollectable_quiescent ⟨fun _ => 1,fun _ _ => 1⟩ 0 0 connectRefused
    (requestRead ++ [.handler ⟨true,1,modSucceed⟩]) connectRefused_sequential ?_ ?_ ?_ ?_ ?_ (by decide) ?_
  · simp [connectRefused,TcpModule.AbortsAreCancels]
  · simp [requestRead,AbortsAreCancels]
  · simp [connectRefused,TcpModule.Unfailing]
  · refine ⟨trivial,trivial,?_,trivial⟩
    intro op error _ _ _
    rfl
  · refine ⟨trivial,trivial,trivial,trivial,?_,trivial,trivial,?_,trivial,trivial,?_,trivial⟩
    all_goals
      intro op error busy _ _
      obtain rfl := Option.some.inj busy
      rfl
  · intro module
    by_cases second : module = 1
    · subst second
      decide
    · have fresh := TcpModule.run_frame ⟨fun _ => 1,fun _ _ => 1⟩ 0 0 connectRefused ⟨0,module⟩
        connectRefused_sequential (by simp [connectRefused,Ne.symm second])
      intro opened
      exact absurd ((congrArg TcpModule.ModuleData.socketEvent fresh).symm.trans opened)
        (by simp [TcpModule.initial])

/-- The body is read, its timer expires before `on_read_body` runs, and the request
ends with the expiry still queued. -/
theorem late_expiry_outstanding :
    let u := TcpModule.initial 0 0
    let s := execute step initial (requestRead ++ [.expire ⟨0,0⟩,.handler ⟨true,1,modSucceed⟩])
    free s = true ∧ Recollectable s.context u ∧ ¬ Quiescent s.context u s := by
  refine ⟨by decide,fun module => by simp [TcpModule.initial],?_⟩
  intro quiescent
  exact absurd (quiescent.clientTimers 0) (by decide)

end Zerver.ClientConnection
