import Zerver.ClientConnectionRuns
import Zerver.ClientConnectionTimeOuts
import Zerver.TcpModuleTimeOuts

/-! Whether the outstanding operations can time out. A body read has no time-out of its
own: it goes on with that of the head read, which may have fired when the head was there
and `on_read_head` had still to run. The TcpModules have the same gap twice. -/
namespace Zerver.ClientConnection

open Zerver.Asio Zerver.Schedule

def isHead : Stage → Bool
  | .head _ => true
  | _ => false

/-- The time-out of its `ModuleData` is live, or a cancel has ended it before it could be
chained to a later one. -/
def Covered (data : Slot → ModuleData) (op : Op) : Prop :=
  (data op.task.attempt.slot).timer.Live ∨
    op.hits ≠ [] ∧ op.result ≠ none ∧ (isHead op.task.stage = true → op.result ≠ some .success)

theorem Covered.live (covered : Covered data op) (idle : op.result = none) :
    (data op.task.attempt.slot).timer.Live :=
  covered.resolve_right fun hit => hit.2.1 idle

theorem Covered.elsewhere (covered : Covered data op) (apart : op.task.attempt.slot ≠ slot) (d : ModuleData) :
    Covered (Function.update data slot d) op := by
  apply covered.imp_left
  intro live
  rwa [Function.update_of_ne apart]

theorem Covered.retime (covered : Covered data op) (slot : Slot) (d : ModuleData)
    (keeps : (data slot).timer.Live → d.timer.Live) : Covered (Function.update data slot d) op := by
  by_cases own : op.task.attempt.slot = slot
  · apply covered.imp_left
    intro live
    rw [own] at live ⊢
    rw [Function.update_self]
    exact keeps live
  · exact covered.elsewhere own d

theorem Covered.of_live (own : op.task.attempt.slot = slot) (live : d.timer.Live) :
    Covered (Function.update data slot d) op := by
  left
  rw [own,Function.update_self]
  exact live

theorem Covered.cancel (op : Op) (socket : op.socket = 0) (h : TimeOut)
    (unfinished : isHead op.task.stage = true → op.result ≠ some .success) :
    Covered data (op.cancel 0 h) := by
  obtain ⟨hit,done,unsuccessful⟩ := Operation.cancel_hit 0 h op socket
  refine .inr ⟨hit,done,fun head => unsuccessful ?_⟩
  rw [Operation.cancel_task] at head
  exact unfinished head

namespace Connection

/-- A time-out is live for each outstanding operation that no cancel has hit. -/
def Guarded (c : Connection) : Prop :=
  ∀ op ∈ c.ops, op.hits = [] → (c.shared.data op.task.attempt.slot).timer.Live

/-- The Fsm runs a module of a context again only once its last run there has resumed. -/
def Sequential (c : Connection) : Action → Prop
  | .runRequest context module _ | .runResponse context module _ =>
    ∀ op ∈ c.ops, op.task.attempt.slot ≠ ⟨context,module⟩
  | _ => True

/-- A time-out handler that runs with no error and leaves no other live does not find
the head read of its own run succeeded already: `on_read_head` starts the body read on
the same time-out. -/
def InTime (c : Connection) : Action → Prop
  | .timeOutHandler slot index => ∀ h, (c.shared.data slot).timer.queued[index]? = some (h,.success) →
    ((c.shared.data slot).timer.take index).Live ∨
      ∀ op ∈ c.ops, op.task.attempt.slot = slot → isHead op.task.stage = true → op.result ≠ some .success
  | _ => True

/-- Each `ModuleData` has at most one operation outstanding, and it is covered. -/
structure Attended (data : Slot → ModuleData) (ops : List Op) : Prop where
  apart : (ops.map (·.task.attempt.slot)).Nodup
  socket : ∀ op ∈ ops, op.socket = 0
  covered : ∀ op ∈ ops, Covered data op

section Steps

variable {data : Slot → ModuleData} {ops : List Op} {op : Op} {index : Nat}

theorem Attended.guarded {c : Connection} (attended : Attended c.shared.data c.ops) : c.Guarded :=
  fun op member unhit => (attended.covered op member).resolve_right fun hit => hit.1 unhit

theorem Attended.begun (attended : Attended data ops) (task : Task) (d : ModuleData)
    (free : ∀ op ∈ ops, op.task.attempt.slot ≠ task.attempt.slot) (live : d.timer.Live) :
    Attended (Function.update data task.attempt.slot d) (.start 0 task :: ops) := by
  refine ⟨?_,?_,?_⟩
  · refine List.nodup_cons.mpr ⟨fun member => ?_,attended.apart⟩
    obtain ⟨other,here,same⟩ := List.mem_map.mp member
    exact free other here same
  · exact List.forall_mem_cons.mpr ⟨rfl,attended.socket⟩
  · refine List.forall_mem_cons.mpr ⟨.of_live rfl live,fun other here => ?_⟩
    exact (attended.covered other here).elsewhere (free other here) d

theorem Attended.retime (attended : Attended data ops) (slot : Slot) (d : ModuleData)
    (keeps : (data slot).timer.Live → d.timer.Live) : Attended (Function.update data slot d) ops :=
  ⟨attended.apart,attended.socket,fun op member => (attended.covered op member).retime slot d keeps⟩

theorem Attended.split (attended : Attended data ops) (found : ops[index]? = some op) :
    op.socket = 0 ∧ Covered data op ∧ Attended data (ops.eraseIdx index) ∧
      ∀ other ∈ ops.eraseIdx index, other.task.attempt.slot ≠ op.task.attempt.slot := by
  obtain ⟨inside,rfl⟩ := List.getElem?_eq_some_iff.mp found
  have taken := List.getElem_cons_eraseIdx_perm inside
  have member := List.getElem_mem inside
  have apart := (taken.map (·.task.attempt.slot)).nodup_iff.mpr attended.apart
  rw [List.map_cons,List.nodup_cons] at apart
  refine ⟨attended.socket _ member,attended.covered _ member,⟨apart.2,?_,?_⟩,?_⟩
  · exact fun other here => attended.socket other (List.mem_of_mem_eraseIdx here)
  · exact fun other here => attended.covered other (List.mem_of_mem_eraseIdx here)
  · exact fun other here same => apart.1 (List.mem_map.mpr ⟨other,here,same⟩)

theorem Attended.advanced (attended : Attended data ops) (found : ops[index]? = some op) (next : Op)
    (idle : op.result = none) (socket : next.socket = op.socket) (task : next.task = op.task) :
    Attended data (next :: ops.eraseIdx index) := by
  obtain ⟨zero,covered,rest,free⟩ := attended.split found
  refine ⟨?_,?_,?_⟩
  · refine List.nodup_cons.mpr ⟨fun member => ?_,rest.apart⟩
    obtain ⟨other,here,same⟩ := List.mem_map.mp member
    exact free other here (same.trans (congrArg (·.attempt.slot) task))
  · exact List.forall_mem_cons.mpr ⟨socket.trans zero,rest.socket⟩
  · refine List.forall_mem_cons.mpr ⟨.inl ?_,rest.covered⟩
    rw [task]
    exact covered.live idle

/-- Its handler runs. The read it may start is covered by what it has armed, or by the
time-out that the read before it has left. -/
theorem Attended.handled (attended : Attended data ops) (found : ops[index]? = some op)
    (done : op.result = some error)
    (handled : Handled op replies (data op.task.attempt.slot).timer error timer next) :
    Attended (Function.update data op.task.attempt.slot { data op.task.attempt.slot with timer := timer })
      (next.toList ++ ops.eraseIdx index) := by
  obtain ⟨_,covered,rest,free⟩ := attended.split found
  have left (d : ModuleData) : Attended (Function.update data op.task.attempt.slot d) (ops.eraseIdx index) :=
    ⟨rest.apart,rest.socket,fun other here => (rest.covered other here).elsewhere (free other here) d⟩
  cases handled with
  | aborted => exact left _
  | ended settles => exact left _
  | headRead stage =>
    exact rest.begun ⟨op.task.attempt,.head replies.len⟩
      { data op.task.attempt.slot with
        timer := (data op.task.attempt.slot).timer.cancel.arm (.readTimeOut 2 op.task.attempt) }
      free (Timer.arm_live _ _)
  | bodyRead stage =>
    refine rest.begun ⟨op.task.attempt,.body replies.len⟩ (data op.task.attempt.slot) free ?_
    exact covered.resolve_right fun hit => hit.2.2 (by simp [stage,isHead]) done

/-- A time-out handler uses up its own time-out and cancels all there is. -/
theorem Attended.fired (attended : Attended data ops) (slot : Slot) (h : TimeOut) (d : ModuleData)
    (inTime : d.timer.Live ∨ ∀ op ∈ ops, op.task.attempt.slot = slot → isHead op.task.stage = true →
      op.result ≠ some .success) : Attended (Function.update data slot d) (ops.map (·.cancel 0 h)) := by
  refine ⟨?_,?_,?_⟩
  · simpa [Function.comp_def] using attended.apart
  · intro op member
    obtain ⟨was,here,rfl⟩ := List.mem_map.mp member
    exact (Operation.cancel_socket _ _ _).trans (attended.socket was here)
  · intro op member
    obtain ⟨was,here,rfl⟩ := List.mem_map.mp member
    have zero := attended.socket was here
    by_cases own : was.task.attempt.slot = slot
    · rcases inTime with live | unfinished
      · exact .of_live (by rw [Operation.cancel_task,own]) live
      · exact .cancel was zero h (unfinished was here own)
    · rcases attended.covered was here with live | ⟨_,_,unfinished⟩
      · left
        rwa [Operation.cancel_task,Function.update_of_ne own]
      · exact .cancel was zero h unfinished

end Steps

section Run

variable {c : Connection} {a : Action}

theorem advance_attended (index : Nat) (move : State → State) (attended : Attended c.shared.data c.ops)
    (keeps : ∀ s op, s.op = some op → (move s).data = s.data ∧ ((move s).op = s.op ∨ op.result = none ∧
      ∃ next, (move s).op = some next ∧ next.socket = op.socket ∧ next.task = op.task)) :
    Attended (c.advance index move).shared.data (c.advance index move).ops := by
  unfold advance
  split
  · exact attended
  · rename_i op found
    obtain ⟨data,moved⟩ := keeps { c.shared with op := some op } op rfl
    simp only [settle,data]
    rcases moved with same | ⟨idle,next,busy,socket,task⟩
    · obtain ⟨zero,covered,rest,free⟩ := attended.split found
      rw [same]
      refine ⟨List.nodup_cons.mpr ⟨?_,rest.apart⟩,List.forall_mem_cons.mpr ⟨zero,rest.socket⟩,
        List.forall_mem_cons.mpr ⟨covered,rest.covered⟩⟩
      intro member
      obtain ⟨other,here,same⟩ := List.mem_map.mp member
      exact free other here same
    · rw [busy]
      exact attended.advanced found next idle socket task

theorem runHandler_attended (index : Nat) (replies : Replies) (attended : Attended c.shared.data c.ops) :
    Attended (c.runHandler index replies).shared.data (c.runHandler index replies).ops := by
  unfold runHandler
  split
  · exact attended
  · rename_i op found
    split
    · exact attended
    · rename_i error done
      obtain ⟨timer,next,handled,effect⟩ := handler_effect c.shared op error replies c.idle
      simp only [settle,effect.data,effect.op]
      exact attended.handled found done handled

theorem runTimeOut_attended (slot : Slot) (index : Nat) (attended : Attended c.shared.data c.ops)
    (inTime : c.InTime (.timeOutHandler slot index)) :
    Attended (c.runTimeOut slot index).shared.data (c.runTimeOut slot index).ops := by
  unfold runTimeOut
  split
  · exact attended
  · rename_i h error queued
    by_cases fine : error = .success
    · subst fine
      have fired := attended.fired slot h { c.shared.data slot with timer := (c.shared.data slot).timer.take index }
        (inTime h queued)
      cases h with
      | readTimeOut flag attempt =>
        simpa [settle,timeOutHandler,onReadTimeOut,cancelSocket,State.emit,State.setTimer,c.idle] using fired
      | writeTimeOut attempt =>
        simpa [settle,timeOutHandler,onWriteTimeOut,cancelSocket,State.emit,State.setTimer,c.idle] using fired
    · have kept := attended.retime slot { c.shared.data slot with timer := (c.shared.data slot).timer.take index }
        fun live => Timer.take_live live queued fine
      cases h with
      | readTimeOut flag attempt =>
        simpa [settle,timeOutHandler,onReadTimeOut,fine,State.setTimer,c.idle] using kept
      | writeTimeOut attempt =>
        simpa [settle,timeOutHandler,onWriteTimeOut,fine,State.setTimer,c.idle] using kept

theorem step_attended (sequential : c.Sequential a) (inTime : c.InTime a) (attended : Attended c.shared.data c.ops) :
    Attended (c.step a).shared.data (c.step a).ops := by
  cases a with
  | runRequest context module len =>
    let slot : Slot := ⟨context,module⟩
    let attempt : Attempt := ⟨slot,(c.shared.data slot).serial + 1⟩
    have begun := attended.begun ⟨attempt,.version len⟩
      ⟨(c.shared.data slot).timer.arm (.readTimeOut 1 attempt),attempt.serial⟩ sequential (Timer.arm_live _ _)
    simpa [step,enter,settle,runRequest,called,State.setTimer,State.start,State.emit,slot,attempt] using begun
  | runResponse context module resp =>
    cases resp with
    | none =>
      have kept := attended.retime ⟨context,module⟩
        { c.shared.data ⟨context,module⟩ with serial := (c.shared.data ⟨context,module⟩).serial + 1 } id
      simpa [step,enter,settle,runResponse,called,State.emit,c.idle] using kept
    | some bytes =>
      let slot : Slot := ⟨context,module⟩
      let attempt : Attempt := ⟨slot,(c.shared.data slot).serial + 1⟩
      have begun := attended.begun ⟨attempt,.resp bytes⟩
        ⟨(c.shared.data slot).timer.arm (.writeTimeOut attempt),attempt.serial⟩ sequential (Timer.arm_live _ _)
      simpa [step,enter,settle,runResponse,called,State.setTimer,State.start,State.emit,slot,attempt] using begun
  | endRequest context =>
    have same (s : State) : (endRequest s).data = s.data ∧ (endRequest s).op = s.op := by
      unfold endRequest
      dsimp only
      split <;> exact ⟨rfl,rfl⟩
    simpa [step,enter,settle,same,c.idle] using attended
  | send bytes => simpa [step,settle,c.idle] using attended
  | transfer index count =>
    refine advance_attended index _ attended fun s op busy => ?_
    simp only [transfer,busy]
    split
    · rename_i idle
      exact ⟨rfl,.inr ⟨idle,_,rfl,rfl,rfl⟩⟩
    · exact ⟨rfl,.inl busy⟩
  | complete index code =>
    refine advance_attended index _ attended fun s op busy => ?_
    simp only [complete,busy]
    split
    · rename_i enabled
      exact ⟨rfl,.inr ⟨enabled.1,_,rfl,rfl,rfl⟩⟩
    · exact ⟨rfl,.inl busy⟩
  | handler index replies => exact runHandler_attended index replies attended
  | expire slot =>
    have kept := attended.retime slot { c.shared.data slot with timer := (c.shared.data slot).timer.expire }
      Timer.expire_live
    simpa [step,settle,State.setTimer,c.idle] using kept
  | timeOutHandler slot index => exact runTimeOut_attended slot index attended inTime

theorem run_guarded (schedule : List Action) (sequential : Along step Sequential initial schedule)
    (inTime : Along step InTime initial schedule) : (execute step initial schedule).Guarded := by
  have begun : Attended initial.shared.data initial.ops := ⟨List.nodup_nil,by simp [initial],by simp [initial]⟩
  exact (along_invariant (I := fun c => Attended c.shared.data c.ops)
    (fun c a met attended => step_attended met.1 met.2 attended) begun schedule (along_and sequential inTime)).guarded

end Run

end Connection

/-- Every outstanding operation of a TcpModule, and every one on a client connection, has
a live time-out unless a cancel has hit it, in the runs whose expiries are in time and in
which no module is run on a `ModuleData` that is busy. -/
theorem operations_guarded (cfg : TcpModule.Config) (maxTimes : Int32) (checkTime : Int)
    (upstream : List TcpModule.Action) (client : List Connection.Action)
    (upstreamSequential : Along (TcpModule.step cfg) TcpModule.Sequential
      (TcpModule.initial maxTimes checkTime) upstream)
    (upstreamInTime : Along (TcpModule.step cfg) TcpModule.InTime
      (TcpModule.initial maxTimes checkTime) upstream)
    (clientSequential : Along Connection.step Connection.Sequential Connection.initial client)
    (clientInTime : Along Connection.step Connection.InTime Connection.initial client) :
    (let s := execute (TcpModule.step cfg) (TcpModule.initial maxTimes checkTime) upstream
      ∀ slot, TcpModule.Guarded (s.data slot) (s.ops slot)) ∧
    (execute Connection.step Connection.initial client).Guarded :=
  ⟨TcpModule.run_guarded cfg maxTimes checkTime upstream upstreamSequential upstreamInTime,
    Connection.run_guarded client clientSequential clientInTime⟩

/-- A version that is read, up to the start of the head read. -/
def versionRead : List Connection.Action :=
  [.runRequest 0 0 1,.send [1],.transfer 0 1,.complete 0 .success,.handler 0 ⟨true,1,modSucceed⟩]

theorem first_operations_guarded :
    (let s := execute (TcpModule.step ⟨fun _ => 1,fun _ _ => 1⟩) (TcpModule.initial 0 0)
        (TcpModule.connectTimesOut.take 1);
      s.ops ⟨0,0⟩ ≠ [] ∧ TcpModule.Guarded (s.data ⟨0,0⟩) (s.ops ⟨0,0⟩)) ∧
    (execute Connection.step Connection.initial versionRead).ops ≠ [] ∧
      (execute Connection.step Connection.initial versionRead).Guarded := by
  have sequential : Along Connection.step Connection.Sequential Connection.initial versionRead :=
    ⟨by simp [Connection.Sequential,Connection.initial],trivial,trivial,trivial,trivial,trivial⟩
  have guarded := operations_guarded ⟨fun _ => 1,fun _ _ => 1⟩ 0 0 (TcpModule.connectTimesOut.take 1)
    versionRead ⟨rfl,trivial⟩ ⟨trivial,trivial⟩ sequential ⟨trivial,trivial,trivial,trivial,trivial,trivial⟩
  exact ⟨⟨by decide,guarded.1 ⟨0,0⟩⟩,by decide,guarded.2⟩

/-- The request is written, the reply timer expires, and its handler runs before
`on_write_req`. -/
def lateReplyTimeOut : List TcpModule.Action :=
  let slot : Slot := ⟨0,0⟩
  let replies : TcpModule.Replies := ⟨[1],true,true,0⟩
  [.on slot (.run ⟨0,fun _ => false,some ("10.0.0.1",80),none,[],0⟩),
    .on slot (.complete 0 .success),.on slot (.handler 0 replies),.on slot (.complete 0 .success),
    .on slot .expire,.on slot (.timeOutHandler 1),.on slot (.handler 0 replies)]

/-- The head is read, its timer expires, and the handler runs before `on_read_head`. -/
def lateHeadTimeOut : List Connection.Action :=
  versionRead ++ [.send [2],.transfer 0 1,.complete 0 .success,.expire ⟨0,0⟩,.timeOutHandler ⟨0,0⟩ 1,
    .handler 0 ⟨true,1,modSucceed⟩]

/-- The head read of the response, and the body read of the request, never time out. -/
theorem late_time_outs_unguarded :
    (let s := execute (TcpModule.step ⟨fun _ => 1,fun _ _ => 1⟩) (TcpModule.initial 0 0) lateReplyTimeOut;
      ¬ TcpModule.Guarded (s.data ⟨0,0⟩) (s.ops ⟨0,0⟩)) ∧
    ¬ (execute Connection.step Connection.initial lateHeadTimeOut).Guarded := by
  constructor
  · intro s guarded
    have started : s.ops ⟨0,0⟩ = [.start 0 ⟨⟨⟨0,0⟩,1⟩,.respHead 1⟩] := by decide
    have live := guarded (.start 0 ⟨⟨⟨0,0⟩,1⟩,.respHead 1⟩) (by rw [started]; exact List.mem_singleton_self _) rfl
    exact absurd (Timer.live_iff_pending.mp live) (by decide)
  · intro guarded
    have live := guarded (.start 0 ⟨⟨⟨0,0⟩,1⟩,.body 1⟩) (by decide) rfl
    exact absurd (Timer.live_iff_pending.mp live) (by decide)

end Zerver.ClientConnection
