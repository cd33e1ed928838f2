import Zerver.TcpModuleOwnership

/-! The attempts a step acts for: those whose operations and time-outs it finds, and the
one it starts. This is so whatever runs of one `ModuleData` overlap. -/
namespace Zerver.TcpModule

open Zerver.Asio Zerver.TcpClientPool

/-- Every operation outstanding and every time-out held is of such an attempt. -/
structure Names (P : Attempt → Prop) (s : State) : Prop where
  ops : ∀ slot, ∀ op ∈ s.ops slot, P op.task.attempt
  timers : ∀ slot, (s.data slot).timer.All fun timeOut => P timeOut.attempt

/-- So is every event that has been added. -/
structure Told (P : Attempt → Prop) (s next : State) : Prop where
  names : Names P next
  serial : ∀ slot, (s.data slot).serial ≤ (next.data slot).serial
  log : ∃ events, next.log = s.log ++ events ∧ ∀ event ∈ events, ∀ a, event.attempt = some a → P a

def Tells (P : Attempt → Prop) (s next : State) : Prop := Names P s → Told P s next

theorem Names.imp (names : Names P s) (weaker : ∀ a, P a → Q a) : Names Q s :=
  ⟨fun slot op member => weaker _ (names.ops slot op member),
    fun slot => (names.timers slot).imp fun _ => weaker _⟩

section Functions

variable {P : Attempt → Prop} {s : State} {slot : Slot} {a : Attempt}

theorem Tells.trans (first : Tells P s middle) (later : Tells P middle next) : Tells P s next := by
  intro names
  obtain ⟨between,serial,events,log,about⟩ := first names
  obtain ⟨after,serial',events',log',about'⟩ := later between
  refine ⟨after,fun slot => (serial slot).trans (serial' slot),events ++ events',?_,?_⟩
  · rw [log',log,List.append_assoc]
  · intro event member
    exact (List.mem_append.mp member).elim (about event) (about' event)

theorem Tells.quiet (ops : ∀ slot, ∀ op ∈ next.ops slot, op.task.attempt ∈ (s.ops slot).map (·.task.attempt))
    (timers : ∀ slot, (s.data slot).timer.All (fun timeOut => P timeOut.attempt) →
      (next.data slot).timer.All fun timeOut => P timeOut.attempt)
    (serial : ∀ slot, (s.data slot).serial ≤ (next.data slot).serial) (log : next.log = s.log) : Tells P s next := by
  refine fun names => ⟨⟨?_,fun slot => timers slot (names.timers slot)⟩,serial,[],by simp [log],by simp⟩
  intro slot op member
  obtain ⟨old,here,same⟩ := List.mem_map.mp (ops slot op member)
  exact same ▸ names.ops slot old here

theorem Tells.of_eq (ops : next.ops = s.ops) (data : next.data = s.data) (log : next.log = s.log) : Tells P s next := by
  refine .quiet ?_ ?_ ?_ log
  · intro slot op member
    exact List.mem_map_of_mem (ops ▸ member)
  · simp [data]
  · simp [data]

theorem emit_tells (event : Event) (about : ∀ a, event.attempt = some a → P a) : Tells P s (s.emit event) :=
  fun names => ⟨⟨names.ops,names.timers⟩,fun _ => Nat.le_refl _,[event],rfl,by simpa using about⟩

theorem setData_tells (d : ModuleData) (timer : (s.data slot).timer.All (fun timeOut => P timeOut.attempt) →
    d.timer.All fun timeOut => P timeOut.attempt) (serial : (s.data slot).serial ≤ d.serial) :
    Tells P s (s.setData slot d) := by
  refine .quiet (fun _ op member => List.mem_map_of_mem member) ?_ ?_ rfl
  all_goals
    intro other
    by_cases same : other = slot
    · subst same
      simpa
    · simp [setData_other _ _ _ _ same]

theorem setTimer_tells (f : Timer TimeOut → Timer TimeOut)
    (keeps : ∀ timer, timer.All (fun timeOut => P timeOut.attempt) → (f timer).All fun timeOut => P timeOut.attempt) :
    Tells P s (s.setTimer slot f) :=
  setData_tells _ (keeps _) (Nat.le_refl _)

theorem setSocketEvent_tells (event : SocketEvent) : Tells P s (s.setSocketEvent slot event) :=
  setData_tells _ id (Nat.le_refl _)

theorem setClient_tells (client : Option Nat) : Tells P s (s.setClient slot client) :=
  setData_tells _ id (Nat.le_refl _)

theorem counted_tells : Tells P s (counted s slot) := setData_tells _ id (Nat.le_succ _)

theorem cancel_tells : Tells P s (s.setTimer slot .cancel) := setTimer_tells _ fun _ all => all.cancel

theorem arm_tells (timeOut : TimeOut) (own : P timeOut.attempt) : Tells P s (s.setTimer slot (.arm timeOut)) :=
  setTimer_tells _ fun _ all => all.arm own

theorem setOps_tells (slot : Slot) (ops : List Op) (own : ∀ op ∈ ops, op.task.attempt ∈ (s.ops slot).map (·.task.attempt)) :
    Tells P s (s.setOps slot ops) := by
  refine .quiet ?_ (fun _ => id) (fun _ => Nat.le_refl _) rfl
  intro other op member
  by_cases same : other = slot
  · subst same
    exact own op (by simpa using member)
  · have here : op ∈ s.ops other := by simpa [State.setOps,same] using member
    exact List.mem_map_of_mem here

theorem commit_tells (issuer : Issuer) (h : Heap) : Tells P s (s.commit issuer h) := by
  refine .quiet ?_ (by simp) (by simp) (by simp)
  intro slot op member
  rw [commit_ops] at member
  obtain ⟨old,here,rfl⟩ := List.mem_map.mp member
  rw [Operation.cancelAll_task]
  exact List.mem_map_of_mem here

theorem startOperation_tells (stage : Stage) (own : P a) : Tells P s (startOperation slot a stage s) := by
  unfold startOperation
  split
  · exact emit_tells _ (by simpa [Event.attempt] using own)
  · rename_i c _
    have added : Tells P s (s.setOps slot (s.ops slot ++ [.start c ⟨a,stage⟩])) := by
      refine fun names => ⟨⟨?_,names.timers⟩,fun _ => Nat.le_refl _,[],by simp [State.setOps],by simp⟩
      intro other op member
      by_cases same : other = slot
      · subst same
        rw [setOps_same] at member
        rcases List.mem_append.mp member with old | new
        · exact names.ops other op old
        · rw [List.mem_singleton.mp new]
          exact own
      · exact names.ops other op (by simpa [State.setOps,same] using member)
    exact added.trans (setSocketEvent_tells _)

theorem closeClient_tells (own : P a) : Tells P s (closeClient slot a s) := by
  unfold closeClient
  split
  · exact emit_tells _ (by simpa [Event.attempt] using own)
  · exact commit_tells _ _

theorem resume_tells (state : ModState) (own : P a) : Tells P s (resume a state s) :=
  emit_tells _ (by simpa [Event.attempt] using own)

theorem failed_tells (hook : Event) (about : hook.attempt = some a) (state : ModState) (own : P a) :
    Tells P s (resume a state (s.emit hook)) :=
  (emit_tells hook fun _ told => Option.some.inj (about.symm.trans told) ▸ own).trans (resume_tells state own)

theorem onReadHeadFailed_tells (own : P a) : Tells P s (onReadHeadFailed slot a s) :=
  (cancel_tells.trans (closeClient_tells own)).trans (failed_tells _ rfl _ own)

theorem recollectClient_tells (now : Int) : Tells P s (recollectClient slot now s) := by
  unfold recollectClient
  dsimp only
  have pooled (pool : Pool) : Tells P s { s with pool := pool } := .of_eq rfl rfl rfl
  exact ((pooled _).trans (commit_tells _ _)).trans (setClient_tells _)

theorem entered_tells (body : State → State) (tells : ∀ s, Tells P s (body s)) : Tells P s (entered slot body s) := by
  unfold entered
  split
  · exact .of_eq rfl rfl rfl
  · exact (setSocketEvent_tells _).trans (tells _)

theorem handler_tells (cfg : Config) (op : Op) (error : ErrorCode) (replies : Replies) (own : P op.task.attempt) :
    Tells P s (handler cfg slot op error replies s) := by
  unfold handler
  cases op.task.stage with
  | connect ip port =>
    refine entered_tells _ fun s => ?_
    cases error with
    | aborted => exact resume_tells _ own
    | failed => exact cancel_tells.trans (failed_tells _ rfl _ own)
    | success => exact (cancel_tells.trans (arm_tells (.timeOut op.task.attempt) own)).trans (startOperation_tells _ own)
  | writeReq request =>
    refine entered_tells _ fun s => ?_
    cases error with
    | aborted => exact resume_tells _ own
    | failed => exact cancel_tells.trans (failed_tells _ rfl _ own)
    | success => exact startOperation_tells _ own
  | respHead len =>
    refine entered_tells _ fun s => ?_
    cases error with
    | aborted => exact resume_tells _ own
    | failed => exact onReadHeadFailed_tells own
    | success =>
      have told : Tells P s (s.emit (.onReadHeadImpl op.task.attempt op.received)) :=
        emit_tells _ (by simpa [Event.attempt] using own)
      refine told.trans ?_
      dsimp only
      split
      · exact startOperation_tells _ own
      · exact onReadHeadFailed_tells own
  | respBody len =>
    refine entered_tells _ fun s => ?_
    cases error with
    | aborted => exact resume_tells _ own
    | failed => exact cancel_tells.trans (failed_tells _ rfl _ own)
    | success => exact (cancel_tells.trans (recollectClient_tells _)).trans (failed_tells _ rfl _ own)

theorem cancelClient_tells (timeOut : TimeOut) (own : P timeOut.attempt) :
    Tells P s (cancelClient slot timeOut s) := by
  have about (event : Event) (told : event.attempt = some timeOut.attempt) : ∀ a, event.attempt = some a → P a :=
    fun a same => Option.some.inj (told.symm.trans same) ▸ own
  refine (emit_tells (.expired timeOut) (about _ rfl)).trans ?_
  unfold cancelClient
  dsimp only
  split
  · exact .of_eq rfl rfl rfl
  · refine (emit_tells (.cancelled timeOut _) (about _ rfl)).trans (.quiet ?_ (fun _ => id) (fun _ => Nat.le_refl _) rfl)
    intro other op member
    obtain ⟨old,here,rfl⟩ := List.mem_map.mp member
    rw [Operation.cancel_task]
    exact List.mem_map_of_mem here

theorem timeOutHandler_tells (timeOut : TimeOut) (error : ErrorCode) (own : P timeOut.attempt) :
    Tells P s (timeOutHandler slot error timeOut s) := by
  have shown (event : Event) (told : event.attempt = some timeOut.attempt) :
      Tells P s ((cancelClient slot timeOut s).emit event) :=
    (cancelClient_tells timeOut own).trans (emit_tells _ fun a same => Option.some.inj (told.symm.trans same) ▸ own)
  cases timeOut with
  | connectTimeOut attempt ip port =>
    simp only [timeOutHandler,onHandleConnectTimeOut]
    split
    · exact .of_eq rfl rfl rfl
    · exact shown _ rfl
  | timeOut attempt =>
    simp only [timeOutHandler,onHandleTimeOut]
    split
    · exact .of_eq rfl rfl rfl
    · exact shown _ rfl

theorem takeClient_tells (slot : Slot) (args : RunArgs) : Tells P s (takeClient slot args s) := by
  unfold takeClient
  dsimp only
  have pooled (pool : Pool) : Tells P s { s with pool := pool } := .of_eq rfl rfl rfl
  exact ((pooled _).trans (commit_tells _ _)).trans (setClient_tells _)

theorem openConnection_tells (ip : String) (port : UInt16) (args : RunArgs) (own : P a) :
    Tells P s (openConnection slot a ip port args s) := by
  have failed (s : State) : Tells P s (s.emit (.returned a modFailed)) :=
    emit_tells _ (by simpa [Event.attempt] using own)
  have armed : Tells P s (s.setTimer slot (.arm (.connectTimeOut a ip port))) := arm_tells _ own
  have created (s : State) (clients : Nat → TcpClient) (wire : Nat → Wire) (fresh : Nat) (client : Option Nat) :
      Tells P s ({ s with clients := clients, wire := wire, fresh := fresh }.setClient slot client) := by
    have stored : Tells P s { s with clients := clients, wire := wire, fresh := fresh } := .of_eq rfl rfl rfl
    exact stored.trans (setClient_tells _)
  unfold openConnection
  dsimp only
  split
  · exact failed s
  · exact failed s
  · exact (setTimer_tells _ fun _ all => all.cancel).trans (failed _)
  · exact armed.trans (failed _)
  · exact (armed.trans (created _ _ _ _ _)).trans (failed _)
  · exact ((armed.trans (created _ _ _ _ _)).trans (startOperation_tells _ own)).trans
      (emit_tells _ (by simpa [Event.attempt] using own))

/-- A call of `run` is counted, and acts for its own attempt from then on. -/
theorem run_tells (args : RunArgs) (new : P ⟨slot,(s.data slot).serial + 1⟩) :
    Tells P (counted s slot) (run slot args s) := by
  have told (s : State) (state : ModState) : Tells P s (s.emit (.returned _ state)) :=
    emit_tells _ (by simpa [Event.attempt] using new)
  rw [run_eq]
  split
  · exact told _ _
  · refine (takeClient_tells slot args).trans ?_
    unfold runTaken
    split
    · exact ((arm_tells (.timeOut _) new).trans (startOperation_tells _ new)).trans (told _ _)
    · split
      · exact told _ _
      · exact openConnection_tells _ _ args new

end Functions

/-- A step acts for the attempts it finds, and for the one it starts. -/
theorem step_tells (cfg : Config) (s : State) (a : Action)
    (new : ∀ slot args, a = .on slot (.run args) → P ⟨slot,(s.data slot).serial + 1⟩) : Tells P s (step cfg s a) := by
  cases a with
  | answer socket response =>
    change Tells P s (answer cfg socket response s)
    unfold answer
    split
    · exact .of_eq rfl rfl rfl
    · dsimp only
      split
      · exact (emit_tells _ (by simp [Event.attempt])).trans (.of_eq rfl rfl rfl)
      · exact .of_eq rfl rfl rfl
  | checkClients now error =>
    change Tells P s (sweepPool now error s)
    unfold sweepPool
    have pooled (pool : Pool) : Tells P s { s with pool := pool } := .of_eq rfl rfl rfl
    exact (pooled _).trans (commit_tells _ _)
  | on slot action =>
    cases action with
    | run args => exact counted_tells.trans (run_tells args (new slot args rfl))
    | complete index code =>
      change Tells P s (complete slot index code s)
      unfold complete
      split
      · exact .of_eq rfl rfl rfl
      · rename_i op found
        have member := List.mem_of_getElem? found
        split
        · have kept : Tells P s (s.setOps slot ((s.ops slot).set index (op.complete code))) := by
            refine setOps_tells slot _ fun op' here => ?_
            rcases List.mem_or_eq_of_mem_set here with old | rfl
            · exact List.mem_map_of_mem old
            · exact List.mem_map_of_mem (f := (·.task.attempt)) member
          refine fun names => kept.trans ?_ names
          unfold delivered
          split
          · refine emit_tells _ fun a told => ?_
            exact Option.some.inj told ▸ names.ops slot op member
          · exact .of_eq rfl rfl rfl
          · exact .of_eq rfl rfl rfl
        · exact .of_eq rfl rfl rfl
    | transfer index count =>
      change Tells P s (transfer slot index count s)
      unfold transfer
      split
      · exact .of_eq rfl rfl rfl
      · rename_i op found
        have member := List.mem_of_getElem? found
        split
        · refine (setOps_tells slot _ fun op' here => ?_).trans (.of_eq rfl rfl rfl)
          rcases List.mem_or_eq_of_mem_set here with old | rfl
          · exact List.mem_map_of_mem old
          · exact List.mem_map_of_mem (f := (·.task.attempt)) member
        · exact .of_eq rfl rfl rfl
    | handler index replies =>
      change Tells P s (runHandler cfg slot index replies s)
      unfold runHandler
      split
      · exact .of_eq rfl rfl rfl
      · rename_i op found
        split
        · exact .of_eq rfl rfl rfl
        · intro names
          refine ((setOps_tells slot _ ?_).trans (handler_tells cfg op _ replies ?_)) names
          · exact fun op' here => List.mem_map_of_mem (List.mem_of_mem_eraseIdx here)
          · exact names.ops slot op (List.mem_of_getElem? found)
    | expire => exact setTimer_tells _ fun _ all => all.expire
    | timeOutHandler index =>
      change Tells P s (runTimeOut slot index s)
      unfold runTimeOut
      split
      · exact .of_eq rfl rfl rfl
      · rename_i timeOut error found
        intro names
        refine ((setTimer_tells _ fun _ all => all.take index).trans (timeOutHandler_tells timeOut error ?_)) names
        exact (names.timers slot).queued _ (List.mem_of_getElem? found)

end Zerver.TcpModule
