import Zerver.TcpModuleAttempts

/-! What a call of `run` that fails leaves behind. Every other path that fails cancels the
timer before it goes on; the catch of `run` does not, and the wait of the connect's time-out
comes before the socket is opened and the connect is started. -/
namespace Zerver.TcpModule

open Zerver.Asio Zerver.TcpClientPool Zerver.Schedule

/-- `run` gets to its try block with no client from the pool, and the exception comes once
the timer has been armed. -/
def FailsArmed (args : RunArgs) (s : State) : Prop :=
  args.clientTypeId ≠ -1 ∧ (getClient args.error args.clientTypeId s.pool ⟨s.clients,[]⟩).1 = none ∧
    args.server.isSome = true ∧ (args.fault = some .socket ∨ args.fault = some .connect)

instance (args : RunArgs) (s : State) : Decidable (FailsArmed args s) :=
  inferInstanceAs (Decidable (_ ∧ _))

/-- What a call of `run` that fails does to the state. -/
structure Failed (args : RunArgs) (slot : Slot) (s next : State) : Prop where
  data : ∀ other ≠ slot, next.data other = s.data other
  serial : (next.data slot).serial = (s.data slot).serial + 1
  tasks : ∀ other, (next.ops other).map (·.task) = (s.ops other).map (·.task)
  log : next.log = s.log ++ [.returned ⟨slot,(s.data slot).serial + 1⟩ modFailed]
  timer : (FailsArmed args s ∧ ∃ ip port, (next.data slot).timer =
      (s.data slot).timer.arm (.connectTimeOut ⟨slot,(s.data slot).serial + 1⟩ ip port)) ∨
    (¬ FailsArmed args s ∧ ((next.data slot).timer = (s.data slot).timer ∨
      (next.data slot).timer = (s.data slot).timer.cancel))

/-- Any other call of `run` starts an operation of its attempt. -/
structure Started (slot : Slot) (s next : State) : Prop where
  ops : next.ops slot ≠ []
  log : next.log = s.log ++ [.returned ⟨slot,(s.data slot).serial + 1⟩ modAsync]

structure Asked (args : RunArgs) (slot : Slot) (s t : State) : Prop where
  data : ∀ other ≠ slot, t.data other = s.data other
  serial : (t.data slot).serial = (s.data slot).serial + 1
  timer : (t.data slot).timer = (s.data slot).timer
  client : (t.data slot).client = (getClient args.error args.clientTypeId s.pool ⟨s.clients,[]⟩).1
  tasks : ∀ other, (t.ops other).map (·.task) = (s.ops other).map (·.task)
  log : t.log = s.log

theorem takeClient_asked (s : State) (slot : Slot) (args : RunArgs) :
    Asked args slot s (takeClient slot args (counted s slot)) := by
  refine ⟨fun other apart => ?_,?_,?_,?_,fun other => ?_,?_⟩
  · simp [takeClient,counted,State.setClient,State.setData,apart]
  · simp [takeClient,counted,State.setClient,State.setData]
  · simp [takeClient,counted,State.setClient,State.setData]
  · simp [takeClient,counted,State.setClient,State.setData]
  · unfold takeClient
    dsimp only [State.setClient,State.setData]
    rw [commit_ops,List.map_map]
    exact List.map_congr_left fun op _ => Operation.cancelAll_task _ _ op
  · simp [takeClient,counted,State.setClient,State.setData]

section Outcome

variable {s t : State} {slot : Slot} {args : RunArgs}

theorem Asked.failed (asked : Asked args slot s t) (unarmed : ¬ FailsArmed args s) :
    Failed args slot s (t.emit (.returned ⟨slot,(s.data slot).serial + 1⟩ modFailed)) :=
  ⟨asked.data,asked.serial,asked.tasks,congrArg (· ++ _) asked.log,.inr ⟨unarmed,.inl asked.timer⟩⟩

theorem Asked.opened (asked : Asked args slot s t) (typed : args.clientTypeId ≠ -1)
    (none : (t.data slot).client = none) (server : args.server = some (ip,port)) :
    let next := openConnection slot ⟨slot,(s.data slot).serial + 1⟩ ip port args t
    Failed args slot s next ∨ Started slot s next := by
  have taken : (getClient args.error args.clientTypeId s.pool ⟨s.clients,[]⟩).1 = Option.none :=
    asked.client.symm.trans none
  have armed (fault : Fault) (given : args.fault = some fault) :
      FailsArmed args s ↔ fault = .socket ∨ fault = .connect := by
    simp [FailsArmed,typed,taken,server,given]
  cases given : args.fault with
  | none =>
    refine .inr ⟨?_,?_⟩
    all_goals
      simp [openConnection,given,startOperation,State.setClient,State.setTimer,State.setSocketEvent,
        State.setData,State.setOps,State.emit,asked.log]
  | some fault =>
    refine .inl ⟨fun other apart => ?_,?_,fun other => ?_,?_,?_⟩
    · rw [← asked.data other apart]
      cases fault <;> simp [openConnection,given,State.setClient,State.setTimer,State.setData,State.emit,apart]
    · rw [← asked.serial]
      cases fault <;> simp [openConnection,given,State.setClient,State.setTimer,State.setData,State.emit]
    · rw [← asked.tasks other]
      cases fault <;> simp [openConnection,given,State.setClient,State.setTimer,State.setData,State.emit]
    · rw [← asked.log]
      cases fault <;> simp [openConnection,given,State.setClient,State.setTimer,State.setData,State.emit]
    · rw [armed fault given,← asked.timer]
      cases fault with
      | address | expires => exact .inr ⟨by simp,.inl (by simp [openConnection,given,State.emit])⟩
      | wait =>
        refine .inr ⟨by simp,.inr ?_⟩
        simp [openConnection,given,State.emit,State.setTimer,Timer.expiresFromNow]
      | socket | connect =>
        refine .inl ⟨by simp,ip,port,?_⟩
        simp [openConnection,given,State.emit,State.setTimer,State.setClient,State.setData]

/-- A call of `run` fails and starts nothing, or returns that it goes on and starts an operation. -/
theorem run_outcome (s : State) (slot : Slot) (args : RunArgs) :
    Failed args slot s (run slot args s) ∨ Started slot s (run slot args s) := by
  rw [run_eq]
  split
  · rename_i untyped
    refine .inl ⟨fun other apart => ?_,?_,fun _ => rfl,rfl,.inr ⟨fun fails => fails.1 untyped,.inl ?_⟩⟩
    · simp [counted,State.emit,State.setData,apart]
    · simp [counted,State.emit]
    · simp [counted,State.emit]
  · rename_i typed
    have asked := takeClient_asked s slot args
    generalize takeClient slot args (counted s slot) = t at asked ⊢
    unfold runTaken
    split
    · rename_i c client
      refine .inr ⟨?_,?_⟩
      all_goals
        simp [sendRequest,startOperation,client,State.setTimer,State.setSocketEvent,State.setData,
          State.setOps,State.emit,asked.log]
    · rename_i client
      split
      · rename_i unserved
        exact .inl (asked.failed fun fails => by simpa [unserved] using fails.2.2.1)
      · rename_i ip port server
        exact asked.opened typed client server

end Outcome

def Begun (s : State) (a : Attempt) : Prop := a.serial ≤ (s.data a.slot).serial

structure Numbered (s : State) : Prop where
  names : Names (Begun s) s
  log : ∀ event ∈ s.log, ∀ a, event.attempt = some a → Begun s a

theorem names_true (s : State) : Names (fun _ => True) s := ⟨by simp,fun _ => ⟨by simp,by simp⟩⟩

theorem step_serial (cfg : Config) (s : State) (a : Action) (slot : Slot) :
    (s.data slot).serial ≤ ((step cfg s a).data slot).serial :=
  (step_tells cfg s a (fun _ _ _ => trivial) (names_true s)).serial slot

theorem run_serial (s : State) (slot : Slot) (args : RunArgs) :
    (s.data slot).serial + 1 ≤ ((run slot args s).data slot).serial := by
  have later := (run_tells args trivial (names_true (counted s slot))).serial slot
  simpa [counted] using later

theorem step_numbered (cfg : Config) (s : State) (a : Action) (valid : Numbered s) : Numbered (step cfg s a) := by
  have later (b : Attempt) (begun : Begun s b) : Begun (step cfg s a) b := begun.trans (step_serial cfg s a b.slot)
  have new : ∀ slot args, a = .on slot (.run args) → Begun (step cfg s a) ⟨slot,(s.data slot).serial + 1⟩ := by
    rintro slot args rfl
    exact run_serial s slot args
  obtain ⟨names,_,events,log,about⟩ := step_tells cfg s a new (valid.names.imp later)
  refine ⟨names,?_⟩
  intro event member b told
  rw [log] at member
  rcases List.mem_append.mp member with old | added
  · exact later b (valid.log event old b told)
  · exact about event added b told

theorem run_numbered (cfg : Config) (maxTimes : Int32) (checkTime : Int) (schedule : List Action) :
    Numbered (execute (step cfg) (initial maxTimes checkTime) schedule) :=
  execute_invariant (step_numbered cfg)
    ⟨⟨by simp [initial],fun _ => Timer.idle_all _⟩,by simp [initial]⟩ schedule

/-- Nothing of the attempt is outstanding anywhere, and its return is all it has shown: none
of its handlers has run. -/
structure Over (a : Attempt) (s : State) : Prop where
  ops : ∀ slot, ∀ op ∈ s.ops slot, op.task.attempt ≠ a
  timers : ∀ slot, (s.data slot).timer.All (·.attempt ≠ a)
  silent : ∀ event ∈ s.log, event.attempt = some a → event = .returned a modFailed

/-- The attempt is over, now and whatever comes. -/
def FailsCleanly (cfg : Config) (a : Attempt) (s : State) : Prop :=
  ∀ schedule, Over a (execute (step cfg) s schedule)

/-- An attempt that is over stays so, as its number is not given again. -/
theorem step_over (cfg : Config) (s : State) (a : Attempt) (action : Action) (begun : Begun s a) (ended : Over a s) :
    Begun (step cfg s action) a ∧ Over a (step cfg s action) := by
  have new : ∀ slot args, action = .on slot (.run args) → (⟨slot,(s.data slot).serial + 1⟩ : Attempt) ≠ a := by
    rintro slot args - rfl
    simp [Begun] at begun
  obtain ⟨names,serial,events,log,about⟩ := step_tells (P := (· ≠ a)) cfg s action new ⟨ended.ops,ended.timers⟩
  refine ⟨begun.trans (serial a.slot),names.ops,names.timers,?_⟩
  intro event member told
  rw [log] at member
  rcases List.mem_append.mp member with old | added
  · exact ended.silent event old told
  · exact absurd rfl (about event added a told)

theorem run_over (cfg : Config) (a : Attempt) (begun : Begun s a) (ended : Over a s) : FailsCleanly cfg a s := by
  intro schedule
  exact (execute_invariant (I := fun s => Begun s a ∧ Over a s)
    (fun s action both => step_over cfg s a action both.1 both.2) ⟨begun,ended⟩ schedule).2

section FailedRun

variable {s next : State} {slot : Slot} {args : RunArgs}

theorem unbegun (s : State) (slot : Slot) : ¬ Begun s ⟨slot,(s.data slot).serial + 1⟩ := by
  simp [Begun]

theorem Numbered.failed (valid : Numbered s)
    (returned : .returned ⟨slot,(s.data slot).serial + 1⟩ modFailed ∈ (run slot args s).log) :
    Failed args slot s (run slot args s) := by
  refine (run_outcome s slot args).resolve_right fun started => ?_
  rw [started.log] at returned
  rcases List.mem_append.mp returned with old | new
  · exact unbegun s slot (valid.log _ old _ rfl)
  · exact absurd (List.mem_singleton.mp new) (by simp [modFailed,modAsync])

theorem Failed.ended (failed : Failed args slot s next) (valid : Numbered s) (unarmed : ¬ FailsArmed args s) :
    Over ⟨slot,(s.data slot).serial + 1⟩ next := by
  have apart (a : Attempt) (begun : Begun s a) : a ≠ ⟨slot,(s.data slot).serial + 1⟩ := by
    rintro rfl
    exact unbegun s slot begun
  have old := valid.names.imp apart
  refine ⟨fun other op member => ?_,fun other => ?_,fun event member told => ?_⟩
  · have task : op.task ∈ (s.ops other).map (·.task) := by
      rw [← failed.tasks other]
      exact List.mem_map_of_mem member
    obtain ⟨earlier,here,same⟩ := List.mem_map.mp task
    rw [← same]
    exact old.ops other earlier here
  · by_cases own : other = slot
    · subst own
      rcases failed.timer with ⟨armed,_⟩ | ⟨_,same | cancelled⟩
      · exact absurd armed unarmed
      · rw [same]
        exact old.timers other
      · rw [cancelled]
        exact (old.timers other).cancel
    · rw [failed.data other own]
      exact old.timers other
  · rw [failed.log] at member
    rcases List.mem_append.mp member with earlier | new
    · exact absurd rfl (apart _ (valid.log event earlier _ told))
    · exact List.mem_singleton.mp new

end FailedRun

/-- A wait left armed expires, and its handler runs with no error. -/
theorem armed_fires (cfg : Config) (s : State) (slot : Slot) (a : Attempt) (ip : String) (port : UInt16)
    (armed : (s.data slot).timer.waiting = [.connectTimeOut a ip port]) :
    .onConnectFailed a ip port ∈ (execute (step cfg) s
      [.on slot .expire,.on slot (.timeOutHandler (s.data slot).timer.queued.length)]).log := by
  have last : ((s.setTimer slot .expire).data slot).timer.queued[(s.data slot).timer.queued.length]? =
      some (.connectTimeOut a ip port,.success) := by
    simp [State.setTimer,armed]
  simp only [execute_cons,execute_nil,step,localStep,runTimeOut,last,timeOutHandler,onHandleConnectTimeOut]
  simp [State.emit]

/-- In every reachable state, a call of `run` that fails leaves nothing of its attempt,
unless its exception comes after the timer has been armed; then `on_connect_failed` can
still come. -/
theorem failed_run_clean_iff (cfg : Config) (maxTimes : Int32) (checkTime : Int) (schedule : List Action)
    (slot : Slot) (args : RunArgs) :
    let s := execute (step cfg) (initial maxTimes checkTime) schedule
    let a : Attempt := ⟨slot,(s.data slot).serial + 1⟩
    let next := step cfg s (.on slot (.run args))
    .returned a modFailed ∈ next.log →
      (FailsCleanly cfg a next ↔ ¬ FailsArmed args s) ∧
      (FailsArmed args s → ∃ later ip port, .onConnectFailed a ip port ∈ (execute (step cfg) next later).log) := by
  intro s a next returned
  have valid : Numbered s := run_numbered cfg maxTimes checkTime schedule
  have failed : Failed args slot s next := valid.failed returned
  have fires (armed : FailsArmed args s) :
      ∃ later ip port, .onConnectFailed a ip port ∈ (execute (step cfg) next later).log := by
    rcases failed.timer with ⟨_,ip,port,timer⟩ | ⟨unarmed,_⟩
    · refine ⟨_,ip,port,armed_fires cfg next slot a ip port ?_⟩
      rw [timer]
      rfl
    · exact absurd armed unarmed
  refine ⟨⟨?_,fun unarmed => run_over cfg a failed.serial.ge (failed.ended valid unarmed)⟩,fires⟩
  intro clean armed
  obtain ⟨later,ip,port,called⟩ := fires armed
  exact absurd ((clean later).silent _ called rfl) (by simp)

section Example

def newConnection (fault : Option Fault) : RunArgs := ⟨0,fun _ => false,some ("10.0.0.1",80),fault,[],0⟩

theorem bad_address_clean :
    let cfg : Config := ⟨fun _ => 1,fun _ _ => 1⟩
    FailsCleanly cfg ⟨⟨0,0⟩,1⟩ (step cfg (initial 0 0) (.on ⟨0,0⟩ (.run (newConnection (some .address))))) := by
  intro cfg
  exact (failed_run_clean_iff cfg 0 0 [] ⟨0,0⟩ (newConnection (some .address)) (by decide)).1.mpr (by decide)

/-- The socket cannot be opened. The attempt has failed when its connect times out. -/
theorem no_socket_fires :
    let cfg : Config := ⟨fun _ => 1,fun _ _ => 1⟩
    let next := step cfg (initial 0 0) (.on ⟨0,0⟩ (.run (newConnection (some .socket))))
    .returned ⟨⟨0,0⟩,1⟩ modFailed ∈ next.log ∧
      .onConnectFailed ⟨⟨0,0⟩,1⟩ "10.0.0.1" 80 ∈
        (execute (step cfg) next [.on ⟨0,0⟩ .expire,.on ⟨0,0⟩ (.timeOutHandler 0)]).log ∧
      ¬ FailsCleanly cfg ⟨⟨0,0⟩,1⟩ next := by
  intro cfg next
  have called : .onConnectFailed ⟨⟨0,0⟩,1⟩ "10.0.0.1" 80 ∈
      (execute (step cfg) next [.on ⟨0,0⟩ .expire,.on ⟨0,0⟩ (.timeOutHandler 0)]).log := by decide
  refine ⟨by decide,called,fun clean => ?_⟩
  exact absurd ((clean _).silent _ called rfl) (by decide)

end Example

end Zerver.TcpModule
