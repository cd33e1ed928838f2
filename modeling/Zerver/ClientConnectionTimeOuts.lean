import Zerver.ClientConnection

/-! Time-outs on a client connection. A handler that is already queued survives the
cancel and the re-arming of its timer, and cancels whatever the socket is then doing.
The moves below say once what a step does to the timers, the operation and the log. -/
namespace Zerver.ClientConnection

open Zerver.Asio Zerver.Schedule

def TimeOut.attempt : TimeOut → Attempt
  | .readTimeOut _ attempt => attempt
  | .writeTimeOut attempt => attempt

/-- What a time-out is there for: flag 1 for the version read, flag 2 for the head and
body reads, each of its own run. -/
def Guards : TimeOut → Task → Prop
  | .readTimeOut flag attempt, ⟨other,.version _⟩ => other = attempt ∧ flag = 1
  | .readTimeOut flag attempt, ⟨other,.head _⟩ => other = attempt ∧ flag ≠ 1
  | .readTimeOut flag attempt, ⟨other,.body _⟩ => other = attempt ∧ flag ≠ 1
  | .writeTimeOut attempt, ⟨other,.resp _⟩ => other = attempt
  | _, _ => False

theorem Guards.attempt (guards : Guards h task) : h.attempt = task.attempt := by
  obtain ⟨attempt,stage⟩ := task
  cases h <;> cases stage <;> simp_all [Guards,TimeOut.attempt]

/-- The time-out of a head read goes on guarding the body read. -/
theorem Guards.body (guards : Guards h task) (stage : task.stage = .head len) (len' : UInt32) :
    Guards h ⟨task.attempt,.body len'⟩ := by
  obtain ⟨attempt,kind⟩ := task
  cases h <;> simp_all [Guards]

/-- The completion handlers that cancel the timer, or cancel it and arm it again. -/
def settles (op : Op) (error : ErrorCode) (replies : Replies) : Bool :=
  match op.task.stage, error with
  | _, .aborted => false
  | .head _, .success => !replies.ok
  | _, _ => true

/-- What a completion handler makes of its timer and which operation it starts. -/
inductive Handled (op : Op) (replies : Replies) (timer : Timer TimeOut) :
    ErrorCode → Timer TimeOut → Option Op → Prop where
  | aborted : Handled op replies timer .aborted timer none
  | ended : settles op error replies = true → Handled op replies timer error timer.cancel none
  | headRead : op.task.stage = .version len → Handled op replies timer .success
      (timer.cancel.arm (.readTimeOut 2 op.task.attempt))
      (some (.start 0 ⟨op.task.attempt,.head replies.len⟩))
  | bodyRead : op.task.stage = .head len → Handled op replies timer .success timer
      (some (.start 0 ⟨op.task.attempt,.body replies.len⟩))

def isCancelled : Event → Bool
  | .cancelled _ _ => true
  | _ => false

def Quiet (events : List Event) : Prop := ∀ event ∈ events, isCancelled event = false

inductive Move (s : State) : Action → (Slot → ModuleData) → Option Op → List Event → Prop where
  | stay : Quiet events → Move s a s.data s.op events
  | called : s.op = none → Quiet events → Move s a
      (Function.update s.data slot { s.data slot with serial := (s.data slot).serial + 1 }) none events
  | started : s.op = none → h.attempt.slot = slot → Guards h task → Quiet events → Move s a
      (Function.update s.data slot ⟨(s.data slot).timer.arm h,(s.data slot).serial + 1⟩)
      (some (.start 0 task)) events
  | progressed : s.op = some op → op.result = none → next.socket = op.socket → next.task = op.task →
      (∀ code, next.result = some code → a = .complete code) → Move s a s.data (some next) []
  | handled : s.op = some op → op.result = some error →
      Handled op replies (s.data op.task.attempt.slot).timer error timer next → Quiet events →
      Move s (.handler replies) (Function.update s.data op.task.attempt.slot
        { s.data op.task.attempt.slot with timer := timer }) next events
  | expired : Move s (.expire slot)
      (Function.update s.data slot { s.data slot with timer := (s.data slot).timer.expire }) s.op []
  | ignored : (s.data slot).timer.queued[index]? = some (h,error) → error ≠ .success →
      Move s (.timeOutHandler slot index)
        (Function.update s.data slot { s.data slot with timer := (s.data slot).timer.take index }) s.op []
  | fired : (s.data slot).timer.queued[index]? = some (h,.success) → isCancelled hook = false →
      Move s (.timeOutHandler slot index)
        (Function.update s.data slot { s.data slot with timer := (s.data slot).timer.take index })
        (s.op.map (·.cancel 0 h)) [hook,.cancelled h (s.op.map (·.task))]

section Steps

variable (s : State)

theorem runRequest_move (module : Nat) (len : UInt32) (free : s.op = none) :
    ∃ events, Move s a (runRequest module len s).data (runRequest module len s).op events ∧
      (runRequest module len s).log = s.log ++ events := by
  let slot : Slot := ⟨s.context,module⟩
  let attempt : Attempt := ⟨slot,(s.data slot).serial + 1⟩
  refine ⟨[.returned attempt modAsync],?_,rfl⟩
  have move : Move s a _ (some (.start 0 ⟨attempt,.version len⟩)) [.returned attempt modAsync] :=
    .started (h := .readTimeOut 1 attempt) free rfl ⟨rfl,rfl⟩ (by simp [Quiet,isCancelled])
  simpa [runRequest,called,State.setTimer,State.start,State.emit,slot,attempt,TimeOut.attempt] using move

theorem runResponse_move (module : Nat) (resp : Option (List UInt8)) (free : s.op = none) :
    ∃ events, Move s a (runResponse module resp s).data (runResponse module resp s).op events ∧
      (runResponse module resp s).log = s.log ++ events := by
  let slot : Slot := ⟨s.context,module⟩
  let attempt : Attempt := ⟨slot,(s.data slot).serial + 1⟩
  cases resp with
  | none =>
    refine ⟨[.returned attempt modFailed],?_,rfl⟩
    have move : Move s a (Function.update s.data slot
        { s.data slot with serial := (s.data slot).serial + 1 }) none [.returned attempt modFailed] :=
      .called free (by simp [Quiet,isCancelled])
    simpa [runResponse,called,State.emit,slot,free] using move
  | some bytes =>
    refine ⟨[.returned attempt modAsync],?_,rfl⟩
    have move : Move s a _ (some (.start 0 ⟨attempt,.resp bytes⟩)) [.returned attempt modAsync] :=
      .started (h := .writeTimeOut attempt) free rfl rfl (by simp [Quiet,isCancelled])
    simpa [runResponse,called,State.setTimer,State.start,State.emit,slot,attempt,TimeOut.attempt] using move

end Steps

theorem Quiet.cons (quiet : Quiet events) (first : isCancelled event = false) : Quiet (event :: events) := by
  intro other member
  rcases List.mem_cons.mp member with rfl | later
  · exact first
  · exact quiet other later

structure Effect (s : State) (slot : Slot) (timer : Timer TimeOut) (op : Option Op) (next : State) : Prop where
  data : next.data = Function.update s.data slot { s.data slot with timer := timer }
  op : next.op = op
  log : ∃ events, next.log = s.log ++ events ∧ Quiet events

theorem timedOut_effect (s : State) (attempt : Attempt) :
    Effect s attempt.slot (s.data attempt.slot).timer s.op (timedOut attempt s) where
  data := (Function.update_eq_self _ _).symm
  op := rfl
  log := by
    refine ⟨[.exited attempt.slot.context,.resumed attempt modTimeout],?_,by simp [Quiet,isCancelled]⟩
    simp [timedOut,resume,State.exit,State.emit]

theorem failed_effect (s : State) (attempt : Attempt) (hook : Event) (quiet : isCancelled hook = false) :
    Effect s attempt.slot (s.data attempt.slot).timer.cancel s.op (failed attempt hook s) where
  data := rfl
  op := rfl
  log := by
    refine ⟨[hook,.exited attempt.slot.context,.resumed attempt modFailed],?_,?_⟩
    · simp [failed,resume,cancelTimeOutTimer,State.setTimer,State.exit,State.emit]
    · exact Quiet.cons (by simp [Quiet,isCancelled]) quiet

theorem Effect.emitted {left : Option Op} (effect : Effect (s.emit event) slot timer left next)
    (quiet : isCancelled event = false) : Effect s slot timer left next where
  data := effect.data
  op := effect.op
  log := by
    obtain ⟨events,log,rest⟩ := effect.log
    exact ⟨event :: events,by rw [log,State.emit,List.append_assoc]; rfl,rest.cons quiet⟩

theorem onRead_effect (s : State) (op : Op) (error : ErrorCode) (replies : Replies) (impl hook : Event)
    (accepted : State → State) (quiet : isCancelled impl = false) (quiet' : isCancelled hook = false)
    (idle : s.op = none) (rejecting : replies.ok = false → settles op .success replies = true)
    (accepts : ∃ timer next, Handled op replies (s.data op.task.attempt.slot).timer .success timer next ∧
      Effect (s.emit impl) op.task.attempt.slot timer next (accepted (s.emit impl))) :
    ∃ timer next, Handled op replies (s.data op.task.attempt.slot).timer error timer next ∧
      Effect s op.task.attempt.slot timer next
        (onRead op.task.attempt impl hook error replies.ok accepted s) := by
  have failed' := failed_effect s op.task.attempt hook quiet'
  have timedOut' := timedOut_effect s op.task.attempt
  rw [idle] at failed' timedOut'
  cases error with
  | aborted => exact ⟨_,none,.aborted,timedOut'⟩
  | failed => exact ⟨_,none,.ended (by simp [settles]),failed'⟩
  | success =>
    cases ok : replies.ok with
    | true =>
      obtain ⟨timer,next,handled,effect⟩ := accepts
      exact ⟨timer,next,handled,by simpa [onRead] using effect.emitted quiet⟩
    | false =>
      have rejected := failed_effect (s.emit impl) op.task.attempt hook quiet'
      have idle' : (s.emit impl).op = none := idle
      rw [idle'] at rejected
      exact ⟨_,none,.ended (rejecting ok),rejected.emitted quiet⟩

theorem handler_effect (s : State) (op : Op) (error : ErrorCode) (replies : Replies) (idle : s.op = none) :
    ∃ timer next, Handled op replies (s.data op.task.attempt.slot).timer error timer next ∧
      Effect s op.task.attempt.slot timer next (handler op error replies s) := by
  unfold handler
  cases stage : op.task.stage with
  | version len =>
    refine onRead_effect s op error replies _ _ _ rfl rfl idle ?_ ⟨_,_,.headRead stage,?_⟩
    · simp [settles,stage]
    · refine ⟨?_,rfl,[],by simp [State.start,State.setTimer,cancelTimeOutTimer],by simp [Quiet]⟩
      simp [State.start,State.setTimer,cancelTimeOutTimer,State.emit]
  | head len =>
    refine onRead_effect s op error replies _ _ _ rfl rfl idle ?_ ⟨_,_,.bodyRead stage,?_⟩
    · intro rejected
      simp [settles,stage,rejected]
    · refine ⟨?_,rfl,[],by simp [State.start],by simp [Quiet]⟩
      simp [State.start,State.emit]
  | body len =>
    refine onRead_effect s op error replies _ _ _ rfl rfl idle ?_ ⟨_,none,.ended ?_,?_⟩
    · simp [settles,stage]
    · simp [settles,stage]
    · exact ⟨rfl,idle,[.resumed op.task.attempt replies.state],rfl,by simp [Quiet,isCancelled]⟩
  | resp bytes =>
    have failed' := failed_effect s op.task.attempt (.onWriteRespFailed op.task.attempt) rfl
    have timedOut' := timedOut_effect s op.task.attempt
    rw [idle] at failed' timedOut'
    cases error with
    | aborted => exact ⟨_,none,.aborted,timedOut'⟩
    | failed => exact ⟨_,none,.ended (by simp [settles]),failed'⟩
    | success =>
      refine ⟨_,none,.ended (by simp [settles,stage]),rfl,idle,
        [.onWriteRespSucceed op.task.attempt,.resumed op.task.attempt modSucceed],?_,by simp [Quiet,isCancelled]⟩
      simp [onWriteResp,resume,cancelTimeOutTimer,State.setTimer,State.emit]

theorem runHandler_move (s : State) (replies : Replies) :
    ∃ events, Move s (.handler replies) (runHandler replies s).data (runHandler replies s).op events ∧
      (runHandler replies s).log = s.log ++ events := by
  unfold runHandler
  split
  · exact ⟨[],.stay (by simp [Quiet]),by simp⟩
  · rename_i op busy
    split
    · exact ⟨[],.stay (by simp [Quiet]),by simp⟩
    · rename_i error done
      obtain ⟨timer,next,handled,effect⟩ := handler_effect { s with op := none } op error replies rfl
      obtain ⟨events,log,quiet⟩ := effect.log
      refine ⟨events,?_,log⟩
      rw [effect.data,effect.op]
      exact .handled busy done handled quiet

theorem runTimeOut_move (s : State) (slot : Slot) (index : Nat) :
    ∃ events, Move s (.timeOutHandler slot index) (runTimeOut slot index s).data
        (runTimeOut slot index s).op events ∧ (runTimeOut slot index s).log = s.log ++ events := by
  unfold runTimeOut
  split
  · exact ⟨[],.stay (by simp [Quiet]),by simp⟩
  · rename_i h error queued
    by_cases fine : error = .success
    · subst fine
      have fire (hook : Event) (quiet : isCancelled hook = false) :=
        Move.fired queued quiet
      cases h with
      | readTimeOut flag attempt =>
        refine ⟨_,fire (if 1 = flag then .onReadVersionTimeOut attempt
          else .onReadHeadAndBodyTimeOut attempt) (by split <;> rfl),?_⟩
        simp [timeOutHandler,onReadTimeOut,cancelSocket,State.emit,State.setTimer]
      | writeTimeOut attempt =>
        refine ⟨_,fire (.onWriteRespTimeOut attempt) rfl,?_⟩
        simp [timeOutHandler,onWriteTimeOut,cancelSocket,State.emit,State.setTimer]
    · have skipped : timeOutHandler error h (s.setTimer slot (.take index)) =
          s.setTimer slot (.take index) := by
        cases h <;> simp [timeOutHandler,onReadTimeOut,onWriteTimeOut,fine]
      rw [skipped]
      exact ⟨[],.ignored queued fine,by simp [State.setTimer]⟩

theorem step_move (s : State) (a : Action) :
    ∃ events, Move s a (step s a).data (step s a).op events ∧ (step s a).log = s.log ++ events := by
  have stays : ∃ events, Move s a s.data s.op events ∧ s.log = s.log ++ events :=
    ⟨[],.stay (by simp [Quiet]),by simp⟩
  cases a with
  | runRequest module len =>
    simp only [step]
    split
    · rename_i enabled
      simp only [free,Bool.and_eq_true,Option.isNone_iff_eq_none] at enabled
      exact runRequest_move s module len enabled.1
    · exact stays
  | runResponse module resp =>
    simp only [step]
    split
    · rename_i enabled
      simp only [free,Bool.and_eq_true,Option.isNone_iff_eq_none] at enabled
      exact runResponse_move s module resp enabled.1
    · exact stays
  | endRequest =>
    simp only [step]
    split
    · refine ⟨[.endRequest s.context],?_,?_⟩
      · have stay : Move s .endRequest s.data s.op [.endRequest s.context] :=
          .stay (by simp [Quiet,isCancelled])
        unfold endRequest
        dsimp only
        split <;> exact stay
      · unfold endRequest
        dsimp only
        split <;> rfl
    · exact stays
  | send bytes => exact stays
  | transfer count =>
    simp only [step,transfer]
    split
    · exact stays
    · rename_i op busy
      split
      · rename_i idle
        exact ⟨[],.progressed busy idle rfl rfl (by simp [idle]),by simp⟩
      · exact stays
  | complete code =>
    simp only [step,complete]
    split
    · exact stays
    · rename_i op busy
      split
      · rename_i enabled
        refine ⟨[],.progressed busy enabled.1 rfl rfl ?_,by simp⟩
        simp [Operation.complete,enabled.1]
      · exact stays
  | handler replies => exact runHandler_move s replies
  | expire slot => exact ⟨[],.expired,by simp [step,State.setTimer]⟩
  | timeOutHandler slot index => exact runTimeOut_move s slot index

/-- Whenever a completion handler cancels or re-arms its timer, no expiry of that timer
is queued already: the cancel could not recall it. -/
def Recalled (s : State) : Action → Prop
  | .handler replies => ∀ op error, s.op = some op → op.result = some error →
    settles op error replies = true → (s.data op.task.attempt.slot).timer.expiries = []
  | _ => True

/-- As Asio documents, `operation_aborted` is reported only by a cancel. -/
def AbortsAreCancels (a : Action) : Prop := a ≠ .complete .aborted

/-- Every cancel by a time-out found nothing, or the operation it guards. -/
def OnlyGuarded (log : List Event) : Prop := ∀ h task, .cancelled h (some task) ∈ log → Guards h task

/-- At most one time-out is pending, in its own timer, and it guards the outstanding
operation; an operation that has been aborted has used up its time-out. -/
structure Aimed (data : Slot → ModuleData) (op : Option Op) : Prop where
  placed : ∀ slot, ∀ h ∈ (data slot).timer.pending, h.attempt.slot = slot
  single : ∀ slot, (data slot).timer.pending.length ≤ 1
  guards : ∀ slot, ∀ h ∈ (data slot).timer.pending, ∃ current, op = some current ∧
    Guards h current.task ∧ current.result ≠ some .aborted

theorem Aimed.idle (aimed : Aimed data none) (slot : Slot) : (data slot).timer.pending = [] := by
  apply List.eq_nil_iff_forall_not_mem.mpr
  intro h member
  obtain ⟨current,none,_⟩ := aimed.guards slot h member
  simp at none

theorem Aimed.other (aimed : Aimed data (some op)) (slot : Slot) (apart : slot ≠ op.task.attempt.slot) :
    (data slot).timer.pending = [] := by
  apply List.eq_nil_iff_forall_not_mem.mpr
  intro h member
  obtain ⟨current,same,guards,_⟩ := aimed.guards slot h member
  obtain rfl := Option.some.inj same
  apply apart
  rw [← aimed.placed slot h member,guards.attempt]

theorem Aimed.install (quiet : ∀ other, other ≠ slot → (data other).timer.pending = [])
    (few : d.timer.pending.length ≤ 1)
    (guards : ∀ h ∈ d.timer.pending, h.attempt.slot = slot ∧ ∃ current, op = some current ∧
      Guards h current.task ∧ current.result ≠ some .aborted) :
    Aimed (Function.update data slot d) op := by
  have cases' (other : Slot) : (Function.update data slot d other).timer.pending = [] ∨
      other = slot ∧ Function.update data slot d other = d := by
    by_cases eq : other = slot
    · subst eq
      exact .inr ⟨rfl,Function.update_self ..⟩
    · rw [Function.update_of_ne eq]
      exact .inl (quiet other eq)
  constructor
  · intro other h member
    rcases cases' other with none | ⟨rfl,same⟩
    · simp [none] at member
    · rw [same] at member
      exact (guards h member).1
  · intro other
    rcases cases' other with none | ⟨rfl,same⟩
    · simp [none]
    · rw [same]
      exact few
  · intro other h member
    rcases cases' other with none | ⟨rfl,same⟩
    · simp [none] at member
    · rw [same] at member
      exact (guards h member).2

theorem Handled.aimed (handled : Handled op replies (data op.task.attempt.slot).timer error timer next)
    (done : op.result = some error) (aimed : Aimed data (some op))
    (recalled : settles op error replies = true → (data op.task.attempt.slot).timer.expiries = []) :
    Aimed (Function.update data op.task.attempt.slot { data op.task.attempt.slot with timer := timer }) next := by
  cases handled with
  | aborted =>
    have spent : (data op.task.attempt.slot).timer.pending = [] := by
      apply List.eq_nil_iff_forall_not_mem.mpr
      intro h member
      obtain ⟨current,same,_,live⟩ := aimed.guards _ h member
      obtain rfl := Option.some.inj same
      exact live done
    refine Aimed.install aimed.other ?_ ?_ <;> simp [spent]
  | ended settles =>
    refine Aimed.install aimed.other ?_ ?_ <;> simp [recalled settles]
  | headRead stage =>
    have none : (data op.task.attempt.slot).timer.expiries = [] := recalled (by simp [settles,stage])
    apply Aimed.install aimed.other (by simp [none])
    intro h member
    rw [Timer.pending_arm,Timer.expiries_cancel,none,List.mem_singleton] at member
    subst member
    exact ⟨rfl,_,rfl,⟨rfl,by decide⟩,by simp [Operation.start]⟩
  | bodyRead stage =>
    apply Aimed.install aimed.other (aimed.single _)
    intro h member
    obtain ⟨current,same,guards,_⟩ := aimed.guards _ h member
    obtain rfl := Option.some.inj same
    exact ⟨aimed.placed _ h member,_,rfl,guards.body stage _,by simp [Operation.start]⟩

theorem Aimed.sole (aimed : Aimed data op) (member : h ∈ (data slot).timer.pending) :
    ∃ current, op = some current ∧ Guards h current.task ∧
      ∀ other, other ≠ slot → (data other).timer.pending = [] := by
  obtain ⟨current,rfl,guards,_⟩ := aimed.guards slot h member
  refine ⟨current,rfl,guards,?_⟩
  intro other apart
  apply aimed.other
  rwa [← guards.attempt,aimed.placed slot h member]

theorem Aimed.retime (aimed : Aimed data op) (slot : Slot) (d : ModuleData)
    (same : d.timer.pending.Perm (data slot).timer.pending) : Aimed (Function.update data slot d) op := by
  by_cases idle : (data slot).timer.pending = []
  · rw [idle,List.perm_nil] at same
    have unchanged (other : Slot) :
        (Function.update data slot d other).timer.pending = (data other).timer.pending := by
      by_cases eq : other = slot
      · subst eq
        rw [Function.update_self,same,idle]
      · rw [Function.update_of_ne eq]
    constructor
    · intro other h member
      exact aimed.placed other h (unchanged other ▸ member)
    · intro other
      rw [unchanged]
      exact aimed.single other
    · intro other h member
      exact aimed.guards other h (unchanged other ▸ member)
  · obtain ⟨first,held⟩ := List.exists_mem_of_ne_nil _ idle
    obtain ⟨_,_,_,quiet⟩ := aimed.sole held
    apply Aimed.install quiet (same.length_eq ▸ aimed.single slot)
    intro h member
    exact ⟨aimed.placed slot h (same.mem_iff.mp member),aimed.guards slot h (same.mem_iff.mp member)⟩

theorem Move.aimed (move : Move s a data op events) (real : AbortsAreCancels a) (recalled : Recalled s a)
    (aimed : Aimed s.data s.op) (told : OnlyGuarded s.log) :
    Aimed data op ∧ OnlyGuarded (s.log ++ events) := by
  have quietly (events : List Event) (quiet : Quiet events) : OnlyGuarded (s.log ++ events) := by
    intro h task member
    rcases List.mem_append.mp member with old | new
    · exact told h task old
    · exact absurd (quiet _ new) (by simp [isCancelled])
  cases move with
  | stay quiet => exact ⟨aimed,quietly _ quiet⟩
  | called idle quiet =>
    rw [idle] at aimed
    exact ⟨aimed.retime _ _ (List.Perm.refl _),quietly _ quiet⟩
  | started idle place guards quiet =>
    rw [idle] at aimed
    refine ⟨Aimed.install (fun other _ => aimed.idle other) ?_ ?_,quietly _ quiet⟩
    · simp [Timer.expiries_of_pending (aimed.idle _)]
    · intro h member
      rw [Timer.pending_arm,Timer.expiries_of_pending (aimed.idle _),List.mem_singleton] at member
      subst member
      exact ⟨place,_,rfl,guards,by simp [Operation.start]⟩
  | progressed busy idle socket task result =>
    rename_i was next
    rw [busy] at aimed
    refine ⟨⟨aimed.placed,aimed.single,?_⟩,quietly [] (by simp [Quiet])⟩
    intro slot h member
    obtain ⟨current,same,guards,_⟩ := aimed.guards slot h member
    obtain rfl := Option.some.inj same
    refine ⟨next,rfl,task ▸ guards,?_⟩
    intro aborted
    exact real (result _ aborted)
  | handled busy done handled quiet =>
    rw [busy] at aimed
    exact ⟨handled.aimed done aimed (recalled _ _ busy done),quietly _ quiet⟩
  | expired =>
    refine ⟨aimed.retime _ _ ?_,quietly [] (by simp [Quiet])⟩
    rw [Timer.pending_expire]
    exact List.perm_append_comm
  | ignored queued other =>
    exact ⟨aimed.retime _ _ (Timer.pending_take_other _ queued other),quietly [] (by simp [Quiet])⟩
  | fired queued hook =>
    rename_i slot index h hook
    have taken := Timer.pending_take _ queued
    obtain ⟨current,busy,guards,quiet⟩ := aimed.sole (taken.mem_iff.mpr List.mem_cons_self)
    have spent : ((s.data slot).timer.take index).pending = [] := by
      have few := aimed.single slot
      rw [taken.length_eq,List.length_cons] at few
      exact List.eq_nil_of_length_eq_zero (by omega)
    refine ⟨Aimed.install quiet (by simp [spent]) (by simp [spent]),?_⟩
    intro h' task member
    rcases List.mem_append.mp member with old | new
    · exact told h' task old
    · rw [busy] at new
      simp only [Option.map_some,List.mem_cons,Event.cancelled.injEq,Option.some.injEq,
        List.not_mem_nil,or_false] at new
      rcases new with rfl | ⟨rfl,rfl⟩
      · simp [isCancelled] at hook
      · exact guards

theorem run_aimed (schedule : List Action) (aborts : ∀ a ∈ schedule, AbortsAreCancels a)
    (recalled : Along step Recalled initial schedule) :
    let s := execute step initial schedule
    Aimed s.data s.op ∧ OnlyGuarded s.log := by
  have preserved : ∀ s a, AbortsAreCancels a ∧ Recalled s a →
      Aimed s.data s.op ∧ OnlyGuarded s.log →
      Aimed (step s a).data (step s a).op ∧ OnlyGuarded (step s a).log := by
    rintro s a ⟨real,recalled⟩ ⟨aimed,told⟩
    obtain ⟨events,move,log⟩ := step_move s a
    rw [log]
    exact move.aimed real recalled aimed told
  have begun : Aimed initial.data initial.op := by
    constructor <;> simp [initial,Timer.pending,Timer.expiries,Timer.idle]
  have both : Along step (fun s a => AbortsAreCancels a ∧ Recalled s a) initial schedule :=
    along_and (along_of_forall schedule aborts) recalled
  exact along_invariant preserved ⟨begun,by simp [OnlyGuarded,initial]⟩ schedule both

/-- In every run in which no timer is cancelled or re-armed over a queued expiry, a
time-out handler of the client connection cancels the socket only while it is idle or
doing what that time-out guards. -/
theorem time_outs_guarded (schedule : List Action) (aborts : ∀ a ∈ schedule, AbortsAreCancels a)
    (recalled : Along step Recalled initial schedule) :
    OnlyGuarded (execute step initial schedule).log :=
  (run_aimed schedule aborts recalled).2

def versionTimesOut : List Action :=
  [.runRequest 0 1,.expire ⟨0,0⟩,.timeOutHandler ⟨0,0⟩ 0,.handler ⟨true,1,modSucceed⟩,.endRequest]

theorem versionTimesOut_guarded :
    .cancelled (.readTimeOut 1 ⟨⟨0,0⟩,1⟩) (some ⟨⟨⟨0,0⟩,1⟩,.version 1⟩) ∈
        (execute step initial versionTimesOut).log ∧
      OnlyGuarded (execute step initial versionTimesOut).log := by
  refine ⟨by decide,time_outs_guarded versionTimesOut ?_ ?_⟩
  · simp [versionTimesOut,AbortsAreCancels]
  · refine ⟨trivial,trivial,trivial,?_,trivial,trivial⟩
    intro op error busy done settled
    obtain rfl : _ = op := Option.some.inj busy
    obtain rfl : ErrorCode.aborted = error := Option.some.inj done
    simp [settles] at settled

/-- The version read completes, its timer expires before `on_read_version` runs, and
the queued handler runs after it. -/
def lateVersionTimeOut : List Action :=
  [.runRequest 0 1,.send [1],.transfer 1,.complete .success,.expire ⟨0,0⟩,
    .handler ⟨true,1,modSucceed⟩,.timeOutHandler ⟨0,0⟩ 0]

/-- The version's time-out aborts the head read. -/
theorem lateVersionTimeOut_strays :
    ¬ OnlyGuarded (execute step initial lateVersionTimeOut).log := by
  intro guarded
  have cancelled : .cancelled (.readTimeOut 1 ⟨⟨0,0⟩,1⟩) (some ⟨⟨⟨0,0⟩,1⟩,.head 1⟩) ∈
      (execute step initial lateVersionTimeOut).log := by decide
  simpa [Guards] using guarded _ _ cancelled

end Zerver.ClientConnection
