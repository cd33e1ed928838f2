import Mathlib.Data.List.Count
import Zerver.ClientConnection

/-! Rejected requests. Every rejecting branch of the three read handlers sets `exit()`
and resumes the Fsm once. The length -1 that `get_body_len` returns for an illegal head
is the exception: `on_read_head` takes it for a length and reads on. -/
namespace Zerver.ClientConnection

open Zerver.Asio Zerver.Schedule

/-- `get_body_len` returning -1 through its unsigned type. -/
def illegalLen : UInt32 := 0xFFFFFFFF

def isRead : Stage → Bool
  | .resp _ => false
  | _ => true

/-- An accepted head for which `get_body_len` gives -1. -/
def illegalHead (op : Op) (error : ErrorCode) (replies : Replies) : Bool :=
  match op.task.stage, error with
  | .head _, .success => replies.ok && replies.len == illegalLen
  | _, _ => false

/-- The causes of a rejection: a read error, an abort, a false result of
`on_read_*_impl`, and an illegal head. -/
def rejects (op : Op) (error : ErrorCode) (replies : Replies) : Bool :=
  isRead op.task.stage && (error != .success || !replies.ok || illegalHead op error replies)

def isResumed (attempt : Attempt) : Event → Bool
  | .resumed other _ => other == attempt
  | _ => false

def resumes (attempt : Attempt) (log : List Event) : Nat := log.countP (isResumed attempt)

theorem resumes_append (attempt : Attempt) (first later : List Event) :
    resumes attempt (first ++ later) = resumes attempt first + resumes attempt later :=
  List.countP_append

/-- What a completion handler does: it resumes its run once and leaves the socket alone,
or it starts the next read of its run. -/
inductive Continued (s : State) (op : Op) (next : State) : Prop where
  | resumed (hooks : List Event) (state : ModState) : next.op = none →
      next.log = s.log ++ hooks ++ [.resumed op.task.attempt state] →
      (∀ attempt, resumes attempt hooks = 0) → Continued s op next
  | reads (stage : Stage) (hooks : List Event) : isRead op.task.stage = true → isRead stage = true →
      next.op = some (.start 0 ⟨op.task.attempt,stage⟩) → next.log = s.log ++ hooks →
      (∀ attempt, resumes attempt hooks = 0) → Continued s op next

theorem timedOut_log (s : State) (attempt : Attempt) :
    (timedOut attempt s).log = s.log ++ [.exited attempt.slot.context,.resumed attempt modTimeout] := by
  simp [timedOut,resume,State.exit,State.emit]

theorem failed_log (s : State) (attempt : Attempt) (hook : Event) :
    (failed attempt hook s).log =
      s.log ++ [hook] ++ [.exited attempt.slot.context,.resumed attempt modFailed] := by
  simp [failed,resume,cancelTimeOutTimer,State.setTimer,State.exit,State.emit]

theorem timedOut_continued (s : State) (op : Op) (idle : s.op = none) :
    Continued s op (timedOut op.task.attempt s) := by
  refine .resumed [.exited op.task.attempt.slot.context] modTimeout idle ?_ (fun _ => rfl)
  rw [timedOut_log]
  simp

theorem failed_continued (s : State) (op : Op) (hook : Event) (idle : s.op = none)
    (silent : ∀ attempt, isResumed attempt hook = false) :
    Continued s op (failed op.task.attempt hook s) := by
  refine .resumed [hook,.exited op.task.attempt.slot.context] modFailed idle ?_ ?_
  · rw [failed_log]
    simp
  · intro attempt
    have exits : isResumed attempt (.exited op.task.attempt.slot.context) = false := rfl
    simp [resumes,silent,exits]

theorem Continued.emitted (continued : Continued (s.emit event) op next)
    (silent : ∀ attempt, isResumed attempt event = false) : Continued s op next := by
  cases continued with
  | resumed hooks state idle log none =>
    refine .resumed (event :: hooks) state idle (by simpa [State.emit] using log) ?_
    intro attempt
    simpa [resumes,silent] using none attempt
  | reads stage hooks was read started log none =>
    refine .reads stage (event :: hooks) was read started (by simpa [State.emit] using log) ?_
    intro attempt
    simpa [resumes,silent] using none attempt

theorem onRead_continued (s : State) (op : Op) (error : ErrorCode) (ok : Bool) (impl hook : Event)
    (accepted : State → State) (idle : s.op = none)
    (implSilent : ∀ attempt, isResumed attempt impl = false)
    (hookSilent : ∀ attempt, isResumed attempt hook = false)
    (accepts : Continued (s.emit impl) op (accepted (s.emit impl))) :
    Continued s op (onRead op.task.attempt impl hook error ok accepted s) := by
  cases error with
  | aborted => exact timedOut_continued s op idle
  | failed => exact failed_continued s op hook idle hookSilent
  | success =>
    cases ok with
    | true => exact accepts.emitted implSilent
    | false => exact (failed_continued (s.emit impl) op hook idle hookSilent).emitted implSilent

theorem handler_continued (s : State) (op : Op) (error : ErrorCode) (replies : Replies)
    (idle : s.op = none) : Continued s op (handler op error replies s) := by
  unfold handler
  cases stage : op.task.stage with
  | version len =>
    refine onRead_continued s op error _ _ _ _ idle (fun _ => rfl) (fun _ => rfl) ?_
    exact .reads (.head replies.len) [] (by simp [stage,isRead]) rfl rfl
      (by simp [State.start,State.setTimer,cancelTimeOutTimer]) (fun _ => rfl)
  | head len =>
    refine onRead_continued s op error _ _ _ _ idle (fun _ => rfl) (fun _ => rfl) ?_
    exact .reads (.body replies.len) [] (by simp [stage,isRead]) rfl rfl (by simp [State.start])
      (fun _ => rfl)
  | body len =>
    refine onRead_continued s op error _ _ _ _ idle (fun _ => rfl) (fun _ => rfl) ?_
    exact .resumed [] replies.state idle
      (by simp [resume,cancelTimeOutTimer,State.setTimer,State.emit]) (fun _ => rfl)
  | resp bytes =>
    cases error with
    | aborted => exact timedOut_continued s op idle
    | failed => exact failed_continued s op _ idle (fun _ => rfl)
    | success =>
      exact .resumed [.onWriteRespSucceed op.task.attempt] modSucceed idle
        (by simp [onWriteResp,resume,cancelTimeOutTimer,State.setTimer,State.emit]) (fun _ => rfl)

/-- What a step does to the runs of modules on the connection. -/
inductive Turn (s next : State) : Prop where
  | quiet (hooks : List Event) : (∀ slot, (next.data slot).serial = (s.data slot).serial) →
      next.op.map (·.task) = s.op.map (·.task) → next.log = s.log ++ hooks →
      (∀ attempt, resumes attempt hooks = 0) → Turn s next
  | entered (attempt : Attempt) (hooks : List Event) : s.op = none →
      attempt.serial = (s.data attempt.slot).serial + 1 →
      (∀ slot, (next.data slot).serial =
        if slot = attempt.slot then attempt.serial else (s.data slot).serial) →
      (∀ op, next.op = some op → op.task.attempt = attempt) →
      next.log = s.log ++ hooks → (∀ attempt, resumes attempt hooks = 0) → Turn s next
  | continued (op : Op) : s.op = some op → (∀ slot, (next.data slot).serial = (s.data slot).serial) →
      Continued s op next → Turn s next

theorem setTimer_serial (s : State) (slot other : Slot) (f : Timer TimeOut → Timer TimeOut) :
    ((s.setTimer slot f).data other).serial = (s.data other).serial := by
  by_cases same : other = slot
  · simp [State.setTimer,same]
  · simp [State.setTimer,same]

theorem Turn.stay (s : State) : Turn s s :=
  .quiet [] (fun _ => rfl) rfl (by simp) (fun _ => rfl)

theorem called_serial (s : State) (module : Nat) (slot : Slot) :
    ((called module s).2.data slot).serial =
      if slot = ⟨s.context,module⟩ then (s.data ⟨s.context,module⟩).serial + 1 else (s.data slot).serial := by
  by_cases same : slot = ⟨s.context,module⟩
  · simp [called,same]
  · simp [called,same]

theorem free_idle (enabled : free s = true) : s.op = none := by
  simp only [free,Bool.and_eq_true,Option.isNone_iff_eq_none] at enabled
  exact enabled.1

theorem runRequest_turn (s : State) (module : Nat) (len : UInt32) (idle : s.op = none) :
    Turn s (runRequest module len s) := by
  refine .entered ⟨⟨s.context,module⟩,(s.data ⟨s.context,module⟩).serial + 1⟩
    [.returned ⟨⟨s.context,module⟩,(s.data ⟨s.context,module⟩).serial + 1⟩ modAsync] idle rfl ?_ ?_ rfl
    (fun _ => rfl)
  · intro slot
    exact (setTimer_serial _ _ _ _).trans (called_serial s module slot)
  · intro op started
    obtain rfl := Option.some.inj started
    rfl

theorem runResponse_turn (s : State) (module : Nat) (resp : Option (List UInt8)) (idle : s.op = none) :
    Turn s (runResponse module resp s) := by
  let attempt : Attempt := ⟨⟨s.context,module⟩,(s.data ⟨s.context,module⟩).serial + 1⟩
  cases resp with
  | none =>
    refine .entered attempt [.returned attempt modFailed] idle rfl ?_ ?_ rfl (fun _ => rfl)
    · exact called_serial s module
    · intro op started
      have none : (runResponse module none s).op = none := idle
      rw [none] at started
      contradiction
  | some bytes =>
    refine .entered attempt [.returned attempt modAsync] idle rfl ?_ ?_ rfl (fun _ => rfl)
    · intro slot
      exact (setTimer_serial _ _ _ _).trans (called_serial s module slot)
    · intro op started
      obtain rfl := Option.some.inj started
      rfl

theorem failed_serial (s : State) (attempt : Attempt) (hook : Event) (slot : Slot) :
    ((failed attempt hook s).data slot).serial = (s.data slot).serial :=
  setTimer_serial s attempt.slot slot .cancel

theorem onRead_serial (s : State) (attempt : Attempt) (impl hook : Event) (error : ErrorCode) (ok : Bool)
    (accepted : State → State)
    (accepts : ∀ slot, ((accepted (s.emit impl)).data slot).serial = (s.data slot).serial) (slot : Slot) :
    ((onRead attempt impl hook error ok accepted s).data slot).serial = (s.data slot).serial := by
  cases error with
  | aborted => rfl
  | failed => exact failed_serial s attempt hook slot
  | success =>
    cases ok with
    | true => exact accepts slot
    | false => exact failed_serial (s.emit impl) attempt hook slot

theorem handler_serial (s : State) (op : Op) (error : ErrorCode) (replies : Replies) (slot : Slot) :
    ((handler op error replies s).data slot).serial = (s.data slot).serial := by
  unfold handler
  cases op.task.stage with
  | version len =>
    apply onRead_serial
    intro slot
    simp only [State.start]
    rw [setTimer_serial]
    exact setTimer_serial _ _ _ _
  | head len => exact onRead_serial s _ _ _ error _ _ (fun _ => rfl) slot
  | body len =>
    apply onRead_serial
    intro slot
    exact setTimer_serial _ _ _ _
  | resp bytes =>
    cases error with
    | aborted => rfl
    | failed => exact failed_serial s _ _ slot
    | success => exact setTimer_serial _ _ _ _

theorem handler_turn (s : State) (op : Op) (error : ErrorCode) (replies : Replies) (busy : s.op = some op) :
    Turn s (handler op error replies { s with op := none }) := by
  refine .continued op busy (handler_serial { s with op := none } op error replies) ?_
  have continued := handler_continued { s with op := none } op error replies rfl
  cases continued with
  | resumed hooks state idle log none => exact .resumed hooks state idle log none
  | reads stage hooks was read started log none => exact .reads stage hooks was read started log none

theorem runTimeOut_turn (s : State) (slot : Slot) (index : Nat) :
    Turn s (runTimeOut slot index s) := by
  unfold runTimeOut
  split
  · exact .stay s
  · rename_i h error queued
    have kept (hook : Event) (cancelled : TimeOut) (silent : ∀ attempt, isResumed attempt hook = false) :
        Turn s
          (cancelSocket cancelled ((s.setTimer slot (.take index)).emit hook)) := by
      refine .quiet [hook,.cancelled cancelled (s.op.map (·.task))] (setTimer_serial s slot · _) ?_ ?_ ?_
      · simp [cancelSocket,State.emit,State.setTimer,Function.comp_def]
      · simp [cancelSocket,State.emit,State.setTimer]
      · intro attempt
        have other : isResumed attempt (.cancelled cancelled (s.op.map (·.task))) = false := rfl
        simp [resumes,silent,other]
    have skipped : Turn s (s.setTimer slot (.take index)) :=
      .quiet [] (setTimer_serial s slot · _) rfl (by simp [State.setTimer]) (fun _ => rfl)
    cases h with
    | readTimeOut flag attempt =>
      simp only [timeOutHandler,onReadTimeOut]
      split
      · exact skipped
      · refine kept _ _ ?_
        intro other
        split <;> rfl
    | writeTimeOut attempt =>
      simp only [timeOutHandler,onWriteTimeOut]
      split
      · exact skipped
      · exact kept _ _ (fun _ => rfl)

theorem step_turn (s : State) (a : Action) : Turn s (step s a) := by
  cases a with
  | runRequest module len =>
    simp only [step]
    split
    · rename_i enabled
      exact runRequest_turn s module len (free_idle enabled)
    · exact .stay s
  | runResponse module resp =>
    simp only [step]
    split
    · rename_i enabled
      exact runResponse_turn s module resp (free_idle enabled)
    · exact .stay s
  | endRequest =>
    simp only [step]
    split
    · unfold endRequest
      dsimp only
      split
      · exact .quiet [.endRequest s.context] (fun _ => rfl) rfl rfl (fun _ => rfl)
      · exact .quiet [.endRequest s.context] (fun _ => rfl) rfl rfl (fun _ => rfl)
    · exact .stay s
  | send bytes => exact .quiet [] (fun _ => rfl) rfl (by simp [step]) (fun _ => rfl)
  | transfer count =>
    simp only [step,transfer]
    split
    · exact .stay s
    · rename_i op busy
      split
      · exact .quiet [] (fun _ => rfl) (by simp [busy]) (by simp) (fun _ => rfl)
      · exact .stay s
  | complete code =>
    simp only [step,complete]
    split
    · exact .stay s
    · rename_i op busy
      split
      · exact .quiet [] (fun _ => rfl) (by simp [busy,Operation.complete]) (by simp) (fun _ => rfl)
      · exact .stay s
  | handler replies =>
    simp only [step,runHandler]
    split
    · exact .stay s
    · rename_i op busy
      split
      · exact .stay s
      · rename_i error done
        exact handler_turn s op error replies busy
  | expire slot =>
    exact .quiet [] (setTimer_serial s slot · _) rfl (by simp [step,State.setTimer]) (fun _ => rfl)
  | timeOutHandler slot index => exact runTimeOut_turn s slot index

/-- A run of a module resumes at most once, and not while its operation is outstanding. -/
structure Once (s : State) : Prop where
  fresh : ∀ attempt, (s.data attempt.slot).serial < attempt.serial → resumes attempt s.log = 0
  held : ∀ op, s.op = some op → resumes op.task.attempt s.log = 0 ∧
    op.task.attempt.serial ≤ (s.data op.task.attempt.slot).serial
  atMost : ∀ attempt, resumes attempt s.log ≤ 1

theorem initial_once : Once initial := by
  constructor <;> simp [initial,resumes]

theorem resumes_log (attempt other : Attempt) (hooks : List Event) (state : ModState)
    (silent : ∀ attempt, resumes attempt hooks = 0) (log : List Event) :
    resumes attempt (log ++ hooks ++ [.resumed other state]) =
      resumes attempt log + if other = attempt then 1 else 0 := by
  rw [resumes_append,resumes_append,silent]
  simp [resumes,isResumed,List.countP_cons]

theorem resumes_unchanged {log log' hooks : List Event} (grown : log' = log ++ hooks)
    (silent : ∀ attempt, resumes attempt hooks = 0) (attempt : Attempt) :
    resumes attempt log' = resumes attempt log := by
  rw [grown,resumes_append,silent,Nat.add_zero]

theorem Turn.once (turn : Turn s next) (once : Once s) : Once next := by
  cases turn with
  | quiet hooks serials tasks log silent =>
    have same := resumes_unchanged log silent
    refine ⟨?_,?_,?_⟩
    · intro attempt later
      rw [same]
      exact once.fresh attempt (by rwa [serials] at later)
    · intro op busy
      rw [busy,Option.map_some,eq_comm,Option.map_eq_some_iff] at tasks
      obtain ⟨before,was,task⟩ := tasks
      rw [same,serials,← task]
      exact once.held before was
    · intro attempt
      rw [same]
      exact once.atMost attempt
  | entered own hooks idle serial serials started log silent =>
    have same := resumes_unchanged log silent
    refine ⟨?_,?_,?_⟩
    · intro attempt later
      rw [same]
      apply once.fresh
      rw [serials] at later
      split at later
      · rename_i slot
        rw [slot]
        omega
      · exact later
    · intro op busy
      rw [same,serials,started op busy]
      refine ⟨once.fresh own (by omega),by simp⟩
    · intro attempt
      rw [same]
      exact once.atMost attempt
  | continued op busy serials continued =>
    obtain ⟨none,bound⟩ := once.held op busy
    cases continued with
    | resumed hooks state idle log silent =>
      have count (attempt : Attempt) := resumes_log attempt op.task.attempt hooks state silent s.log
      rw [← log] at count
      refine ⟨?_,by simp [idle],?_⟩
      · intro attempt later
        rw [serials] at later
        have other : op.task.attempt ≠ attempt := by
          rintro rfl
          omega
        rw [count,if_neg other,Nat.add_zero]
        exact once.fresh attempt later
      · intro attempt
        rw [count]
        split
        · rename_i same
          rw [← same]
          omega
        · exact once.atMost attempt
    | reads stage hooks was read started log silent =>
      have same := resumes_unchanged log silent
      refine ⟨?_,?_,?_⟩
      · intro attempt later
        rw [same]
        exact once.fresh attempt (by rwa [serials] at later)
      · intro current busy'
        rw [started] at busy'
        obtain rfl := Option.some.inj busy'
        rw [same,serials]
        exact ⟨none,bound⟩
      · intro attempt
        rw [same]
        exact once.atMost attempt

theorem Turn.resumes_le (turn : Turn s next) (attempt : Attempt) :
    resumes attempt s.log ≤ resumes attempt next.log := by
  cases turn with
  | quiet hooks serials tasks log silent =>
    rw [log,resumes_append]
    omega
  | entered own hooks idle serial serials started log silent =>
    rw [log,resumes_append]
    omega
  | continued op busy serials continued =>
    cases continued with
    | resumed hooks state idle log silent =>
      rw [log,resumes_append,resumes_append]
      omega
    | reads stage hooks was read started log silent =>
      rw [log,resumes_append]
      omega

/-- A rejection other than an illegal head exits, resumes and leaves the socket idle. -/
theorem rejected_exits (s : State) (op : Op) (error : ErrorCode) (replies : Replies) (idle : s.op = none)
    (rejected : rejects op error replies = true) (legal : illegalHead op error replies = false) :
    let next := handler op error replies s
    next.op = none ∧ next.exits op.task.attempt.slot.context = true ∧ ∃ hooks, next.log = s.log ++ hooks ++
      [.exited op.task.attempt.slot.context,
        .resumed op.task.attempt (if error = .aborted then modTimeout else modFailed)] := by
  simp only [rejects,legal,Bool.or_false,Bool.and_eq_true] at rejected
  obtain ⟨read,cause⟩ := rejected
  have ends (impl hook : Event) (accepted : State → State) :
      let t := onRead op.task.attempt impl hook error replies.ok accepted s
      t.op = none ∧ t.exits op.task.attempt.slot.context = true ∧ ∃ hooks, t.log = s.log ++ hooks ++ [.exited op.task.attempt.slot.context,
        .resumed op.task.attempt (if error = .aborted then modTimeout else modFailed)] := by
    cases error with
    | aborted => exact ⟨idle,Function.update_self ..,[],by simp [onRead,timedOut_log]⟩
    | failed => exact ⟨idle,Function.update_self ..,[hook],by simp [onRead,failed_log]⟩
    | success =>
      have no : replies.ok = false := by simpa using cause
      simp only [onRead,no]
      exact ⟨idle,Function.update_self ..,[impl,hook],by simp [failed_log,State.emit]⟩
  unfold handler
  cases stage : op.task.stage with
  | version len => exact ends _ _ _
  | head len => exact ends _ _ _
  | body len => exact ends _ _ _
  | resp bytes => simp [stage,isRead] at read

theorem illegalHead_reads (s : State) (op : Op) (error : ErrorCode) (replies : Replies)
    (illegal : illegalHead op error replies = true) :
    (handler op error replies s).op = some (.start 0 ⟨op.task.attempt,.body illegalLen⟩) := by
  unfold illegalHead at illegal
  split at illegal
  · rename_i len stage
    simp only [Bool.and_eq_true,beq_iff_eq] at illegal
    simp [handler,stage,onReadHead,onRead,illegal.1,illegal.2,State.start]
  · contradiction

end Zerver.ClientConnection
