import Zerver.TcpModuleOwnership

/-! The two time-outs of a TcpModule share one timer and one socket, and neither
handler asks what is outstanding when it runs. Connect failures are reported truthfully,
and every operation keeps a live time-out, in the runs whose expiries are in time. -/
namespace Zerver.TcpModule

open Zerver.Asio Zerver.Schedule

def isConnectFailed (a : Attempt) : Event → Bool
  | .onConnectFailed attempt _ _ => attempt = a
  | _ => false

def failures (log : List Event) (a : Attempt) : Nat := log.countP (isConnectFailed a)

/-- What the load balancer is told about the connect of an attempt, and when its
time-out handler cancels the socket. -/
structure Truthful (log : List Event) (a : Attempt) : Prop where
  once : failures log a ≤ 1
  honest : .connected a ∈ log → failures log a = 0
  aimed : ∀ ip port tasks, .cancelled (.connectTimeOut a ip port) tasks ∈ log →
    tasks = [⟨a,.connect ip port⟩]

def isConnectOf (a : Attempt) : TimeOut → Bool
  | .connectTimeOut attempt _ _ => attempt = a
  | .timeOut _ => false

/-- Nothing is in the log about the connect of an attempt. -/
structure Untold (log : List Event) (a : Attempt) : Prop where
  failures : failures log a = 0
  connected : .connected a ∉ log
  started : .returned a modAsync ∉ log
  cancelled : ∀ ip port tasks, .cancelled (.connectTimeOut a ip port) tasks ∉ log

/-- An outstanding connect has not been reported unless its one time-out has run. -/
structure Pending (log : List Event) (timer : Timer TimeOut) (op : Op) : Prop where
  connected : .connected op.task.attempt ∉ log
  credit : failures log op.task.attempt + timer.count (isConnectOf op.task.attempt) ≤ 1
  unreported : op.result ≠ some .aborted → failures log op.task.attempt = 0

structure Reported (log : List Event) (slot : Slot) (d : ModuleData) (ops : List Op) : Prop where
  unborn : ∀ a, a.slot = slot → d.serial < a.serial → Untold log a
  truthful : ∀ a, a.slot = slot → .returned a modAsync ∈ log → Truthful log a
  pending : ∀ op ∈ ops, ∀ ip port, op.task.stage = .connect ip port → op.task.attempt.slot = slot →
    op.result ≠ some .success → Pending log d.timer op

/-- The events that the properties of an attempt's connect depend on. -/
def aboutConnect (a : Attempt) : Event → Bool
  | .onConnectFailed attempt _ _ | .connected attempt => attempt = a
  | .returned attempt state => attempt = a ∧ state = modAsync
  | .cancelled (.connectTimeOut attempt _ _) _ => attempt = a
  | _ => false

section Quiet

variable {log events : List Event} {a : Attempt} (silent : ∀ event ∈ events, aboutConnect a event = false)

include silent

theorem failures_quiet : failures (log ++ events) a = failures log a := by
  have none : events.countP (isConnectFailed a) = 0 := by
    apply List.countP_eq_zero.mpr
    intro event member
    have quiet := silent event member
    cases event <;> simp_all [aboutConnect,isConnectFailed]
  rw [failures,List.countP_append,none,Nat.add_zero,failures]

theorem mem_quiet {event : Event} (about : aboutConnect a event = true)
    (member : event ∈ log ++ events) : event ∈ log := by
  apply (List.mem_append.mp member).resolve_right
  intro new
  simp [silent event new] at about

theorem Untold.quiet (untold : Untold log a) : Untold (log ++ events) a where
  failures := (failures_quiet silent).trans untold.failures
  connected member := untold.connected (mem_quiet silent (by simp [aboutConnect]) member)
  started member := untold.started (mem_quiet silent (by simp [aboutConnect]) member)
  cancelled ip port tasks member :=
    untold.cancelled ip port tasks (mem_quiet silent (by simp [aboutConnect]) member)

theorem Truthful.quiet (truthful : Truthful log a) : Truthful (log ++ events) a where
  once := (failures_quiet silent).trans_le truthful.once
  honest member := (failures_quiet silent).trans
    (truthful.honest (mem_quiet silent (by simp [aboutConnect]) member))
  aimed ip port tasks member :=
    truthful.aimed ip port tasks (mem_quiet silent (by simp [aboutConnect]) member)

end Quiet

theorem Pending.quiet {timer timer' : Timer TimeOut} (pending : Pending log timer op)
    (quiet : ∀ event ∈ events, aboutConnect op.task.attempt event = false)
    (task : op'.task = op.task)
    (held : timer'.count (isConnectOf op.task.attempt) ≤ timer.count (isConnectOf op.task.attempt))
    (result : op'.result ≠ some .aborted → op.result ≠ some .aborted) :
    Pending (log ++ events) timer' op' where
  connected member := by
    rw [task] at member
    exact pending.connected (mem_quiet quiet (by simp [aboutConnect]) member)
  credit := by
    have credit := pending.credit
    rw [task,failures_quiet quiet]
    omega
  unreported live := by
    rw [task,failures_quiet quiet]
    exact pending.unreported (result live)

theorem Reported.tell (valid : Reported log slot d ops) (b : Attempt) (later : d.serial ≤ data.serial)
    (born : b.slot = slot → b.serial ≤ data.serial)
    (others : ∀ a, a.slot = slot → a ≠ b → ∀ event ∈ events, aboutConnect a event = false)
    (truth : .returned b modAsync ∈ log ++ events → Truthful (log ++ events) b)
    (pending : ∀ op ∈ ops', ∀ ip port, op.task.stage = .connect ip port → op.task.attempt.slot = slot →
      op.result ≠ some .success → Pending (log ++ events) data.timer op) :
    Reported (log ++ events) slot data ops' where
  unborn a own unborn := by
    have differ : a ≠ b := by
      rintro rfl
      exact absurd (born own) (Nat.not_le_of_lt unborn)
    exact (valid.unborn a own (lt_of_le_of_lt later unborn)).quiet (others a own differ)
  truthful a own started := by
    by_cases same : a = b
    · subst same
      exact truth started
    · have silent := others a own same
      exact (valid.truthful a own (mem_quiet silent (by simp [aboutConnect]) started)).quiet silent
  pending := pending

theorem Reported.keep (valid : Reported log slot d ops) (later : d.serial ≤ data.serial)
    (silent : ∀ a, ∀ event ∈ events, aboutConnect a event = false)
    (pending : ∀ op ∈ ops', ∀ ip port, op.task.stage = .connect ip port → op.task.attempt.slot = slot →
      op.result ≠ some .success → Pending (log ++ events) data.timer op) :
    Reported (log ++ events) slot data ops' := by
  refine valid.tell ⟨slot,data.serial⟩ later (fun _ => le_refl _) (fun a _ _ => silent a) ?_ pending
  intro started
  have before := mem_quiet (silent ⟨slot,data.serial⟩) (by simp [aboutConnect]) started
  exact (valid.truthful _ rfl before).quiet (silent ⟨slot,data.serial⟩)

theorem Reported.begin (valid : Reported log slot d ops) (data : ModuleData)
    (serial : data.serial = d.serial + 1)
    (pending : ∀ op ∈ ops', ∀ ip port, op.task.stage = .connect ip port → op.task.attempt.slot = slot →
      op.result ≠ some .success → Pending (log ++ [.returned ⟨slot,d.serial + 1⟩ modAsync]) data.timer op) :
    Reported (log ++ [.returned ⟨slot,d.serial + 1⟩ modAsync]) slot data ops' := by
  have untold := valid.unborn ⟨slot,d.serial + 1⟩ rfl (Nat.lt_succ_self _)
  have none : failures (log ++ [.returned ⟨slot,d.serial + 1⟩ modAsync]) ⟨slot,d.serial + 1⟩ = 0 := by
    rw [failures,List.countP_append]
    exact untold.failures
  refine valid.tell ⟨slot,d.serial + 1⟩ (by omega) (fun _ => by rw [serial]) ?_ ?_ pending
  · intro a _ differ
    simpa [aboutConnect] using Ne.symm differ
  · intro _
    refine ⟨by omega,fun _ => none,?_⟩
    intro ip port tasks member
    exact absurd (by simpa using member) (untold.cancelled ip port tasks)

theorem Reported.failed (valid : Reported log slot d ops) (op : Op) (own : op.task.attempt.slot = slot)
    (started : .returned op.task.attempt modAsync ∈ log)
    (pending : Pending log timer op) (unreported : failures log op.task.attempt = 0)
    (one : failures events op.task.attempt = 1) (connected : .connected op.task.attempt ∉ events)
    (aimed : ∀ ip port tasks, .cancelled (.connectTimeOut op.task.attempt ip port) tasks ∈ events →
      tasks = [⟨op.task.attempt,.connect ip port⟩]) :
    Truthful (log ++ events) op.task.attempt where
  once := by
    rw [failures,List.countP_append]
    change failures log _ + failures events _ ≤ 1
    omega
  honest member := absurd member (by simp [pending.connected,connected])
  aimed ip port tasks member := by
    rcases List.mem_append.mp member with old | new
    · exact (valid.truthful _ own started).aimed ip port tasks old
    · exact aimed ip port tasks new

/-- What a change relies on besides the reports themselves. -/
structure Steady (log : List Event) (slot : Slot) (d : ModuleData) (ops : List Op) : Prop where
  attempt : ∀ op ∈ ops, op.task.attempt = ⟨slot,d.serial⟩
  client : ∀ op ∈ ops, d.client = some op.socket
  started : ∀ op ∈ ops, .returned op.task.attempt modAsync ∈ log
  timers : d.timer.All (Bound slot d.serial)

theorem Sound.steady (sound : Sound none s) (slot : Slot) :
    Steady s.log slot (s.data slot) (s.ops slot) where
  attempt := sound.attempt slot
  client := sound.socket slot
  started op member := by
    have attempt := sound.attempt slot op member
    have one : 0 < Control.outstanding s op.task.attempt := by
      refine List.countP_pos_iff.mpr ⟨op,?_,by simp⟩
      rw [attempt]
      exact member
    have balance := sound.balanced.balance op.task.attempt
    have positive : 0 < Control.started s op.task.attempt := by omega
    obtain ⟨event,logged,async⟩ := List.countP_pos_iff.mp positive
    cases event <;> simp [Control.isAsync] at async
    obtain ⟨rfl,rfl⟩ := async
    exact logged
  timers := sound.timers slot

theorem unborn_connect {timer : Timer TimeOut} (bound : timer.All (Bound slot serial)) :
    timer.count (isConnectOf ⟨slot,serial + 1⟩) = 0 := by
  have foreign (h : TimeOut) (own : Bound slot serial h) : isConnectOf ⟨slot,serial + 1⟩ h ≠ true := by
    cases h with
    | timeOut attempt => simp [isConnectOf]
    | connectTimeOut attempt ip port =>
      have small := own.2
      simp only [isConnectOf,ne_eq,decide_eq_true_eq]
      rintro rfl
      simp [TimeOut.attempt] at small
  simp only [Timer.count,Nat.add_eq_zero_iff,List.countP_eq_zero]
  exact ⟨fun h member => foreign h (bound.waiting h member),
    fun entry member => foreign entry.1 (bound.queued entry member)⟩

/-- A cancel of the operation's own socket ends with an abort unless it had a result. -/
theorem cancel_unaborted (op : Op) (socket : Nat) (issuer : Issuer)
    (live : (op.cancel socket issuer).result ≠ some .aborted) : op.result ≠ some .aborted := by
  intro aborted
  exact live (Operation.cancel_result _ _ _ _ aborted)

theorem Change.reported_fired (valid : Reported log slot d ops) (steady : Steady log slot d ops)
    (queued : d.timer.queued[index]? = some (timeOut,.success))
    (timely : ∀ a ip port, timeOut = .connectTimeOut a ip port → .returned a modAsync ∈ log →
      ∃ op, ops = [op] ∧ op.task = ⟨a,.connect ip port⟩ ∧ op.result ≠ some .success ∧
        op.result ≠ some .failed)
    (fired : Fired slot timeOut ops d.client ops' events) :
    Reported (log ++ events) slot { d with timer := d.timer.take index } ops' := by
  have taken (a : Attempt) := Timer.count_take (isConnectOf a) d.timer queued
  -- What becomes of an outstanding connect of an attempt the events do not tell about.
  have untouched (op : Op) (member : op ∈ ops') (ip : String) (port : UInt16)
      (stage : op.task.stage = .connect ip port) (own : op.task.attempt.slot = slot)
      (result : op.result ≠ some .success)
      (silent : ∀ event ∈ events, aboutConnect op.task.attempt event = false) :
      Pending (log ++ events) (d.timer.take index) op := by
    have held : (d.timer.take index).count (isConnectOf op.task.attempt) ≤
        d.timer.count (isConnectOf op.task.attempt) := by
      have counted := taken op.task.attempt
      omega
    generalize d.client = client at fired
    cases fired with
    | missing =>
      exact (valid.pending op member ip port stage own result).quiet silent rfl held (fun live => live)
    | cancelled =>
      obtain ⟨old,was,rfl⟩ := List.mem_map.mp member
      simp only [Operation.cancel_task] at stage own silent held
      have unsuccessful : old.result ≠ some .success :=
        fun success => result (Operation.cancel_result _ _ _ _ success)
      exact (valid.pending old was ip port stage own unsuccessful).quiet silent
        (Operation.cancel_task _ _ _) held (cancel_unaborted old _ _)
  cases timeOut with
  | timeOut attempt =>
    have silent : ∀ a, ∀ event ∈ events, aboutConnect a event = false := by
      generalize d.client = client at fired
      cases fired <;> simp [timeOutHook,aboutConnect]
    exact valid.keep (le_refl _) silent fun op member ip port stage own result =>
      untouched op member ip port stage own result (silent _)
  | connectTimeOut b ip port =>
    have bound := steady.timers.queued _ (List.mem_of_getElem? queued)
    have others : ∀ a, a.slot = slot → a ≠ b → ∀ event ∈ events, aboutConnect a event = false := by
      intro a _ differ
      generalize d.client = client at fired
      cases fired <;> simp [timeOutHook,aboutConnect,Ne.symm differ]
    by_cases started : .returned b modAsync ∈ log
    · obtain ⟨op,only,task,unsuccessful,unfailed⟩ := timely b ip port rfl started
      have member : op ∈ ops := by simp [only]
      have client := steady.client op member
      have attempt : op.task.attempt = b := by rw [task]
      have own : op.task.attempt.slot = slot := by rw [steady.attempt op member]
      have pending := valid.pending op member ip port (by rw [task]) own unsuccessful
      have credit := pending.credit
      have counted := taken op.task.attempt
      simp only [isConnectOf,attempt,decide_true,↓reduceIte] at counted
      rw [attempt] at credit
      rw [client] at fired
      have events' : events = [.expired (.connectTimeOut b ip port),
          .cancelled (.connectTimeOut b ip port) [⟨b,.connect ip port⟩],.onConnectFailed b ip port] ∧
          ops' = [op.cancel op.socket (.slot slot)] := by
        cases fired
        simp [only,task,timeOutHook]
      obtain ⟨rfl,rfl⟩ := events'
      have told : failures [.expired (.connectTimeOut b ip port),
          .cancelled (.connectTimeOut b ip port) [⟨b,.connect ip port⟩],.onConnectFailed b ip port] b = 1 := by
        simp [failures,isConnectFailed]
      refine valid.tell b (le_refl _) (fun _ => bound.2) others ?_ ?_
      · intro _
        subst attempt
        apply valid.failed op own started pending (by omega) told (by simp)
        rintro ip' port' tasks cancelled
        simp only [List.mem_cons,Event.cancelled.injEq,TimeOut.connectTimeOut.injEq,reduceCtorEq,
          List.not_mem_nil,or_false,false_or,true_and] at cancelled
        obtain ⟨⟨rfl,rfl⟩,rfl⟩ := cancelled
        rfl
      · intro op' member' _ _ _ _ _
        obtain rfl := List.mem_singleton.mp member'
        have aborted : (op.cancel op.socket (.slot slot)).result = some .aborted := by
          cases result : op.result with
          | none => simp [Operation.cancel,result]
          | some code => cases code <;> simp_all [Operation.cancel]
        refine ⟨?_,?_,fun live => absurd aborted live⟩
        · rw [Operation.cancel_task]
          simpa using pending.connected
        · rw [Operation.cancel_task,attempt,failures,List.countP_append]
          change failures log b + failures _ b + (d.timer.take index).count _ ≤ 1
          omega
    · refine valid.tell b (le_refl _) (fun _ => bound.2) others ?_ ?_
      · intro returned
        refine absurd ((List.mem_append.mp returned).resolve_right ?_) started
        generalize d.client = client at fired
        cases fired <;> simp [timeOutHook]
      · intro op member ip' port' stage own result
        refine untouched op member ip' port' stage own result (others _ own ?_)
        rintro rfl
        have was : ∃ old ∈ ops, old.task = op.task := by
          generalize d.client = client at fired
          cases fired with
          | missing => exact ⟨op,member,rfl⟩
          | cancelled =>
            obtain ⟨old,was,rfl⟩ := List.mem_map.mp member
            exact ⟨old,was,(Operation.cancel_task _ _ _).symm⟩
        obtain ⟨old,was,task⟩ := was
        exact started (task ▸ steady.started old was)

theorem Handled.reported (valid : Reported log slot d ops) (steady : Steady log slot d ops)
    (only : ops = [op]) (done : op.result = some error)
    (handled : Handled cfg op replies d error data ops' events) :
    Reported (log ++ events) slot data ops' := by
  have member : op ∈ ops := by simp [only]
  cases handled with
  | failed =>
    have own : op.task.attempt.slot = slot := by rw [steady.attempt op member]
    cases stage : op.task.stage with
    | connect ip port =>
      have pending := valid.pending op member ip port stage own (by simp [done])
      have born : op.task.attempt.serial ≤ d.serial := by rw [steady.attempt op member]
      refine valid.tell op.task.attempt (le_refl _) (fun _ => born) ?_ ?_ (by simp)
      · intro a _ differ
        simp [failureHook,stage,aboutConnect,Ne.symm differ]
      · intro _
        refine valid.failed op own (steady.started op member) pending
          (pending.unreported (by simp [done])) ?_ ?_ ?_ <;>
          simp [failureHook,stage,failures,isConnectFailed]
    | _ => exact valid.keep (le_refl _) (by simp [failureHook,stage,aboutConnect]) (by simp)
  | aborted => exact valid.keep (le_refl _) (by simp [aboutConnect]) (by simp)
  | connected stage => exact valid.keep (le_refl _) (by simp) (by simp [Operation.start])
  | written stage => exact valid.keep (le_refl _) (by simp) (by simp [Operation.start])
  | headAccepted stage =>
    exact valid.keep (le_refl _) (by simp [aboutConnect]) (by simp [Operation.start])
  | headRejected stage => exact valid.keep (le_refl _) (by simp [aboutConnect]) (by simp)

theorem Change.reported (change : Change cfg slot d ops action data ops' events)
    (valid : Reported log slot d ops) (steady : Steady log slot d ops)
    (timely : ∀ index a ip port, action = .timeOutHandler index →
      d.timer.queued[index]? = some (.connectTimeOut a ip port,.success) → .returned a modAsync ∈ log →
      ∃ op, ops = [op] ∧ op.task = ⟨a,.connect ip port⟩ ∧ op.result ≠ some .success ∧
        op.result ≠ some .failed) : Reported (log ++ events) slot data ops' := by
  have failedRun (a b : Attempt) : aboutConnect a (.returned b modFailed) = false := by
    simp [aboutConnect,modFailed,modAsync]
  cases change with
  | rejected idle => exact valid.keep (Nat.le_succ _) (by simp [failedRun]) (by simp)
  | ran idle ran =>
    cases ran with
    | reused => exact valid.begin _ rfl (by simp [Operation.start])
    | failed timer => exact valid.keep (Nat.le_succ _) (by simp [failedRun]) (by simp)
  | opened idle opened =>
    cases opened with
    | failed => exact valid.keep (Nat.le_succ _) (by simp [failedRun]) (by simp)
    | connecting =>
      rename_i fresh args ip port
      have untold := valid.unborn ⟨slot,d.serial + 1⟩ rfl (Nat.lt_succ_self _)
      have none : failures (log ++ [.returned ⟨slot,d.serial + 1⟩ modAsync]) ⟨slot,d.serial + 1⟩ = 0 := by
        rw [failures,List.countP_append]
        exact untold.failures
      apply valid.begin _ rfl
      intro op member ip' port' _ _ _
      obtain rfl := List.mem_singleton.mp member
      refine ⟨by simpa [Operation.start] using untold.connected,?_,fun _ => none⟩
      have held := Timer.count_arm (isConnectOf ⟨slot,d.serial + 1⟩) d.timer
        (.connectTimeOut ⟨slot,d.serial + 1⟩ ip port)
      rw [unborn_connect steady.timers] at held
      simp only [Operation.start,none,held,isConnectOf,decide_true,↓reduceIte]
      omega
  | completed only idle enabled =>
    rename_i op code
    have member : op ∈ ops := by simp [only]
    have own : op.task.attempt.slot = slot := by rw [steady.attempt op member]
    by_cases connected : code = .success ∧ ∃ ip port, op.task.stage = .connect ip port
    · obtain ⟨rfl,ip,port,stage⟩ := connected
      have pending := valid.pending op member ip port stage own (by simp [idle])
      have none := pending.unreported (by simp [idle])
      have born : op.task.attempt.serial ≤ d.serial := by rw [steady.attempt op member]
      have event : completion op .success = [.connected op.task.attempt] := by simp [completion,stage]
      rw [event]
      refine valid.tell op.task.attempt (le_refl _) (fun _ => born) ?_ ?_ ?_
      · intro a _ differ
        simp [aboutConnect,Ne.symm differ]
      · intro _
        have zero : failures (log ++ [.connected op.task.attempt]) op.task.attempt = 0 := by
          rw [failures,List.countP_append]
          exact none
        refine ⟨by omega,fun _ => zero,?_⟩
        intro ip port tasks told
        exact (valid.truthful _ own (steady.started op member)).aimed ip port tasks (by simpa using told)
      · simp [Operation.complete,idle]
    · have silent : completion op code = [] := by
        cases code <;> cases stage : op.task.stage <;> simp_all [completion]
      rw [silent]
      refine valid.keep (le_refl _) (by simp) ?_
      intro op' member' ip port stage _ _
      obtain rfl := List.mem_singleton.mp member'
      exact (valid.pending op member ip port stage own (by simp [idle])).quiet (by simp) rfl (le_refl _)
        (by simp [idle])
  | transferred only idle =>
    rename_i op bytes count
    have member : op ∈ ops := by simp [only]
    refine valid.keep (le_refl _) (by simp) ?_
    intro op' member' ip port stage own result
    obtain rfl := List.mem_singleton.mp member'
    exact (valid.pending op member ip port stage own result).quiet (by simp) rfl (le_refl _) (by simp)
  | handled only done attempt handled => exact handled.reported valid steady only done
  | bodyRead only done attempt stage => exact valid.keep (le_refl _) (by simp [aboutConnect]) (by simp)
  | expired =>
    refine valid.keep (le_refl _) (by simp) ?_
    intro op member ip port stage own result
    exact (valid.pending op member ip port stage own result).quiet (by simp) rfl
      (le_of_eq (Timer.count_expire _ _)) (by simp)
  | ignored queued other =>
    refine valid.keep (le_refl _) (by simp) ?_
    intro op member ip port stage own result
    have taken := Timer.count_take (isConnectOf op.task.attempt) d.timer queued
    exact (valid.pending op member ip port stage own result).quiet (by simp) rfl (by dsimp only; omega) (by simp)
  | fired queued fired =>
    refine Change.reported_fired valid steady queued ?_ fired
    rintro a ip port rfl started
    exact timely _ a ip port rfl queued started

/-- A time-out is live for every outstanding operation that no cancel has hit. -/
def Guarded (d : ModuleData) (ops : List Op) : Prop := ∀ op ∈ ops, op.hits = [] → d.timer.Live

/-- The operations whose success leads straight to the next read on the same timer. -/
def Chained : Stage → Prop
  | .writeReq _ | .respHead _ => True
  | _ => False

/-- A time-out handler that runs with no error and leaves no other live does not find a
request write or a head read that has already succeeded: its cancel would miss both
that operation and the next. -/
def InTime (s : State) : Action → Prop
  | .on slot (.timeOutHandler index) => ∀ timeOut,
    (s.data slot).timer.queued[index]? = some (timeOut,.success) →
    ((s.data slot).timer.take index).Live ∨
      ∀ op ∈ s.ops slot, Chained op.task.stage → op.result ≠ some .success
  | _ => True

/-- What keeps an operation guarded through the operations that follow it. -/
def Covered (d : ModuleData) (op : Op) : Prop :=
  d.timer.Live ∨ op.hits ≠ [] ∧ op.result ≠ none ∧ (Chained op.task.stage → op.result ≠ some .success)

theorem Change.covered (change : Change cfg slot d ops action data ops' events)
    (valid : ∀ op ∈ ops, Covered d op) (client : ∀ op ∈ ops, d.client = some op.socket)
    (inTime : ∀ index timeOut, action = .timeOutHandler index →
      d.timer.queued[index]? = some (timeOut,.success) → (d.timer.take index).Live ∨
        ∀ op ∈ ops, Chained op.task.stage → op.result ≠ some .success) :
    ∀ op ∈ ops', Covered data op := by
  intro op member
  cases change with
  | rejected idle => simp at member
  | ran idle ran =>
    cases ran with
    | reused => exact .inl (Timer.arm_live _ _)
    | failed timer => simp at member
  | opened idle opened => cases opened <;> exact .inl (Timer.arm_live _ _)
  | completed only idle enabled =>
    rename_i was code
    obtain rfl := List.mem_singleton.mp member
    exact .inl ((valid was (by simp [only])).resolve_right fun hit => hit.2.1 idle)
  | transferred only idle =>
    rename_i was bytes count
    obtain rfl := List.mem_singleton.mp member
    exact .inl ((valid was (by simp [only])).resolve_right fun hit => hit.2.1 idle)
  | handled only done attempt handled =>
    cases handled with
    | connected stage => exact .inl (Timer.arm_live _ _)
    | written stage =>
      rename_i was _ _
      exact .inl ((valid was (by simp [only])).resolve_right fun hit => hit.2.2 (by simp [stage,Chained]) done)
    | headAccepted stage =>
      rename_i was _ _
      exact .inl ((valid was (by simp [only])).resolve_right fun hit => hit.2.2 (by simp [stage,Chained]) done)
    | _ => simp at member
  | bodyRead only done attempt stage => simp at member
  | expired => exact (valid op member).imp_left Timer.expire_live
  | ignored queued other =>
    exact (valid op member).imp_left fun live => Timer.take_live live queued other
  | fired queued fired =>
    rcases inTime _ _ rfl queued with live | unfinished
    · exact .inl live
    · cases held : d.client with
      | none =>
        rw [held] at fired client
        cases fired
        exact absurd (client op member) (by simp)
      | some c =>
        rw [held] at fired client
        cases fired
        obtain ⟨was,before,rfl⟩ := List.mem_map.mp member
        have socket : was.socket = c := (Option.some.inj (client was before)).symm
        obtain ⟨hit,done,unsuccessful⟩ := Operation.cancel_hit c _ was socket
        refine .inr ⟨hit,done,fun chained => unsuccessful ?_⟩
        rw [Operation.cancel_task] at chained
        exact unfinished was before chained

theorem run_guarded (cfg : Config) (maxTimes : Int32) (checkTime : Int) (schedule : List Action)
    (sequential : Along (step cfg) Sequential (initial maxTimes checkTime) schedule)
    (inTime : Along (step cfg) InTime (initial maxTimes checkTime) schedule) (slot : Slot) :
    let s := execute (step cfg) (initial maxTimes checkTime) schedule
    Guarded (s.data slot) (s.ops slot) := by
  have preserved : ∀ s a, Sequential s a ∧ InTime s a → Sound none s ∧ (∀ slot, ∀ op ∈ s.ops slot, Covered (s.data slot) op) →
      Sound none (step cfg s a) ∧
        ∀ slot, ∀ op ∈ (step cfg s a).ops slot, Covered ((step cfg s a).data slot) op := by
    rintro s a ⟨sequential,inTime⟩ ⟨sound,valid⟩
    refine ⟨step_sound cfg s a sequential sound,?_⟩
    refine step_each (P := fun _ _ d ops => ∀ op ∈ ops, Covered d op) sound ?_ valid a sequential ?_
    · intro log more slot d ops _ old
      exact old
    · rintro slot action data ops events rfl change
      apply change.covered (valid slot) (sound.socket slot)
      rintro index timeOut rfl
      exact inTime timeOut
  intro s op member unhit
  have covered := (along_invariant preserved ⟨initial_sound maxTimes checkTime,by simp [initial]⟩
    schedule (along_and sequential inTime)).2 slot op member
  exact covered.resolve_right fun hit => hit.1 unhit

end Zerver.TcpModule
