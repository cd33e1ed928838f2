import Mathlib.Data.List.Chain
import Mathlib.Data.List.Perm.Basic
import Zerver.ClientConnectionRejects

/-! Runs of the two modules that overlap on one connection. Nothing keeps a run from
starting, in any context, while operations of others are outstanding. What keeps its
continuations to one is the shape of the handlers alone: each starts the next operation
of its run or resumes it, and a time-out handler does neither. -/
namespace Zerver.ClientConnection

open Zerver.Asio Zerver.Schedule

/-- The history of the runs: an operation that was started, and a completion handler
with the events it emitted. -/
inductive Entry where
  | started (task : Task)
  | finished (task : Task) (error : ErrorCode) (replies : Replies) (events : List Event)
  deriving DecidableEq, Repr

namespace Entry

def attempt : Entry → Attempt
  | .started task | .finished task _ _ _ => task.attempt

def events : Entry → List Event
  | .started _ => []
  | .finished _ _ _ events => events

end Entry

/-- `shared` is all but the outstanding operations `ops`; `trace` is not in the source. -/
structure Connection where
  shared : State
  idle : shared.op = none
  ops : List Op
  trace : List Entry

namespace Connection

def initial : Connection := ⟨ClientConnection.initial,rfl,[],[]⟩

/-- The operation that `next` was left with is outstanding beside the others. -/
def settle (c : Connection) (next : State) (others : List Op) (entries : List Entry) : Connection where
  shared := { next with op := none }
  idle := rfl
  ops := next.op.toList ++ others
  trace := c.trace ++ entries

def starts (next : State) : List Entry := next.op.toList.map fun op => .started op.task

/-- A call of the Fsm in any context. -/
def enter (context : Nat) (run : State → State) (c : Connection) : Connection :=
  let next := run { c.shared with context := context }
  c.settle next c.ops (starts next)

/-- One of the operations moves on. -/
def advance (index : Nat) (move : State → State) (c : Connection) : Connection :=
  match c.ops[index]? with
  | none => c
  | some op => c.settle (move { c.shared with op := some op }) (c.ops.eraseIdx index) []

def runHandler (index : Nat) (replies : Replies) (c : Connection) : Connection :=
  match c.ops[index]? with
  | none => c
  | some op =>
    match op.result with
    | none => c
    | some error =>
      let next := ClientConnection.handler op error replies c.shared
      c.settle next (c.ops.eraseIdx index)
        (.finished op.task error replies (next.log.drop c.shared.log.length) :: starts next)

/-- `socket().cancel()` reaches all that is outstanding. -/
def runTimeOut (slot : Slot) (index : Nat) (c : Connection) : Connection :=
  match (c.shared.data slot).timer.queued[index]? with
  | none => c
  | some (timeOut,error) =>
    c.settle (timeOutHandler error timeOut (c.shared.setTimer slot (.take index)))
      (if error ≠ .success then c.ops else c.ops.map (·.cancel 0 timeOut)) []

inductive Action where
  | runRequest (context module : Nat) (versionLen : UInt32)
  | runResponse (context module : Nat) (resp : Option (List UInt8))
  | endRequest (context : Nat)
  | send (bytes : List UInt8)
  | transfer (index count : Nat)
  | complete (index : Nat) (code : ErrorCode)
  | handler (index : Nat) (replies : Replies)
  | expire (slot : Slot)
  | timeOutHandler (slot : Slot) (index : Nat)
  deriving DecidableEq, Repr

def step (c : Connection) : Action → Connection
  | .runRequest context module versionLen => c.enter context (runRequest module versionLen)
  | .runResponse context module resp => c.enter context (runResponse module resp)
  | .endRequest context => c.enter context endRequest
  | .send bytes => c.settle { c.shared with inbound := c.shared.inbound ++ bytes } c.ops []
  | .transfer index count => c.advance index (transfer count)
  | .complete index code => c.advance index (complete code)
  | .handler index replies => c.runHandler index replies
  | .expire slot => c.settle (c.shared.setTimer slot .expire) c.ops []
  | .timeOutHandler slot index => c.runTimeOut slot index

def tasks (c : Connection) : List Task := c.ops.map (·.task)

def outstanding (attempt : Attempt) (c : Connection) : Nat := c.tasks.countP (·.attempt = attempt)

def entries (attempt : Attempt) (c : Connection) : List Entry := c.trace.filter (·.attempt = attempt)

end Connection

/-- The branches of a completion handler for an error and for a read that is not accepted. -/
def refuses (stage : Stage) (error : ErrorCode) (replies : Replies) : Bool :=
  error != .success || (isRead stage && !replies.ok)

def Entry.refused : Entry → Bool
  | .started _ => false
  | .finished task error replies _ => refuses task.stage error replies

/-- The operation that an accepted one leads to. -/
def nextStage (replies : Replies) : Stage → Option Stage
  | .version _ => some (.head replies.len)
  | .head _ => some (.body replies.len)
  | .body _ | .resp _ => none

def opens : Stage → Bool
  | .version _ | .resp _ => true
  | .head _ | .body _ => false

/-- An event other than a resume, an `exit()` and the asynchronous return of a `run`. -/
def plain : Event → Bool
  | .resumed _ _ | .exited _ => false
  | .returned _ state => state != modAsync
  | _ => true

def Plain (events : List Event) : Prop := ∀ event ∈ events, plain event = true

/-- The events of a completion handler and the operation it starts. -/
inductive Answers (task : Task) (error : ErrorCode) (replies : Replies) : List Event → Option Stage → Prop where
  | reads (hooks : List Event) (stage : Stage) : refuses task.stage error replies = false →
      nextStage replies task.stage = some stage → Plain hooks → Answers task error replies hooks (some stage)
  | resumed (hooks : List Event) (state : ModState) :
      (refuses task.stage error replies = true ∨ nextStage replies task.stage = none) → Plain hooks →
      Answers task error replies (hooks ++ (if refuses task.stage error replies
        then [.exited task.attempt.slot.context] else []) ++ [.resumed task.attempt state]) none

/-- What a completion handler does to a state without operations. -/
structure Answered (s : State) (task : Task) (error : ErrorCode) (replies : Replies) (next : State)
    (events : List Event) (later : Option Stage) : Prop where
  answers : Answers task error replies events later
  log : next.log = s.log ++ events
  op : next.op = later.map fun stage => .start 0 ⟨task.attempt,stage⟩
  exits : next.exits = if refuses task.stage error replies
    then Function.update s.exits task.attempt.slot.context true else s.exits

theorem Plain.nil : Plain [] := by simp [Plain]

theorem Plain.cons (first : plain event = true) (rest : Plain events) : Plain (event :: events) := by
  intro other member
  rcases List.mem_cons.mp member with rfl | later
  · exact first
  · exact rest other later

theorem timedOut_answered (s : State) (task : Task) (replies : Replies) (idle : s.op = none) :
    ∃ events, Answered s task .aborted replies (timedOut task.attempt s) events none := by
  have refused : refuses task.stage .aborted replies = true := rfl
  refine ⟨_,.resumed [] modTimeout (.inl refused) .nil,?_,idle,?_⟩
  · rw [timedOut_log,refused]
    rfl
  · rw [refused]
    rfl

theorem failed_answered (s : State) (task : Task) (error : ErrorCode) (replies : Replies) (hook : Event)
    (idle : s.op = none) (refused : refuses task.stage error replies = true) (silent : plain hook = true) :
    ∃ events, Answered s task error replies (failed task.attempt hook s) events none := by
  refine ⟨_,.resumed [hook] modFailed (.inl refused) (.cons silent .nil),?_,idle,?_⟩
  · rw [failed_log,refused]
    simp
  · rw [refused]
    rfl

theorem Answers.emitted (answers : Answers task error replies events later) (silent : plain event = true) :
    Answers task error replies (event :: events) later := by
  cases answers with
  | reads hooks stage accepted next rest => exact .reads _ stage accepted next (.cons silent rest)
  | resumed hooks state branch rest => exact .resumed (event :: hooks) state branch (.cons silent rest)

theorem Answered.emitted {later : Option Stage}
    (answered : Answered (s.emit event) task error replies next events later) (silent : plain event = true) :
    Answered s task error replies next (event :: events) later where
  answers := answered.answers.emitted silent
  log := by rw [answered.log,State.emit,List.append_assoc]; rfl
  op := answered.op
  exits := answered.exits

theorem onRead_answered (s : State) (task : Task) (error : ErrorCode) (replies : Replies) (impl hook : Event)
    (accepted : State → State) (idle : s.op = none) (read : isRead task.stage = true)
    (implPlain : plain impl = true) (hookPlain : plain hook = true)
    (accepts : replies.ok = true → ∃ events later,
      Answered (s.emit impl) task .success replies (accepted (s.emit impl)) events later) :
    ∃ events later, Answered s task error replies
      (onRead task.attempt impl hook error replies.ok accepted s) events later := by
  cases error with
  | aborted =>
    obtain ⟨events,answered⟩ := timedOut_answered s task replies idle
    exact ⟨events,none,answered⟩
  | failed =>
    obtain ⟨events,answered⟩ := failed_answered s task .failed replies hook idle rfl hookPlain
    exact ⟨events,none,answered⟩
  | success =>
    cases ok : replies.ok with
    | true =>
      obtain ⟨events,later,answered⟩ := accepts ok
      exact ⟨_,later,answered.emitted implPlain⟩
    | false =>
      have refused : refuses task.stage .success replies = true := by simp [refuses,read,ok]
      obtain ⟨events,answered⟩ := failed_answered (s.emit impl) task .success replies hook idle refused hookPlain
      exact ⟨_,none,answered.emitted implPlain⟩

theorem handler_answered (s : State) (op : Op) (error : ErrorCode) (replies : Replies) (idle : s.op = none) :
    ∃ events later, Answered s op.task error replies (handler op error replies s) events later := by
  unfold handler
  cases stage : op.task.stage with
  | version len =>
    refine onRead_answered s op.task error replies _ _ _ idle (by rw [stage]; rfl) rfl rfl fun ok => ?_
    have accepted : refuses op.task.stage .success replies = false := by simp [refuses,ok]
    refine ⟨[],_,.reads [] (.head replies.len) accepted (by rw [stage]; rfl) .nil,?_,rfl,?_⟩
    · simp [State.start,State.setTimer,cancelTimeOutTimer]
    · rw [accepted]
      rfl
  | head len =>
    refine onRead_answered s op.task error replies _ _ _ idle (by rw [stage]; rfl) rfl rfl fun ok => ?_
    have accepted : refuses op.task.stage .success replies = false := by simp [refuses,ok]
    refine ⟨[],_,.reads [] (.body replies.len) accepted (by rw [stage]; rfl) .nil,?_,rfl,?_⟩
    · simp [State.start]
    · rw [accepted]
      rfl
  | body len =>
    refine onRead_answered s op.task error replies _ _ _ idle (by rw [stage]; rfl) rfl rfl fun ok => ?_
    have accepted : refuses op.task.stage .success replies = false := by simp [refuses,ok]
    refine ⟨_,none,.resumed [] replies.state (.inr (by rw [stage]; rfl)) .nil,?_,idle,?_⟩
    · rw [accepted]
      rfl
    · rw [accepted]
      rfl
  | resp bytes =>
    cases error with
    | aborted =>
      obtain ⟨events,answered⟩ := timedOut_answered s op.task replies idle
      exact ⟨events,none,answered⟩
    | failed =>
      obtain ⟨events,answered⟩ := failed_answered s op.task .failed replies
        (.onWriteRespFailed op.task.attempt) idle rfl rfl
      exact ⟨events,none,answered⟩
    | success =>
      have accepted : refuses op.task.stage .success replies = false := by simp [refuses,stage,isRead]
      have none : nextStage replies op.task.stage = none := by rw [stage]; rfl
      refine ⟨_,_,.resumed [.onWriteRespSucceed op.task.attempt] modSucceed (.inr none)
        (.cons rfl .nil),?_,idle,?_⟩
      · rw [accepted]
        simp [onWriteResp,resume,cancelTimeOutTimer,State.setTimer,State.emit]
      · rw [accepted]
        rfl

namespace Connection

/-- What a step does to the runs of modules. -/
inductive Moved (c next : Connection) : Prop where
  | quiet (hooks : List Event) : (∀ slot, (c.shared.data slot).serial ≤ (next.shared.data slot).serial) →
      next.tasks.Perm c.tasks → next.trace = c.trace → next.shared.log = c.shared.log ++ hooks →
      Plain hooks → next.shared.exits = c.shared.exits → Moved c next
  | entered (attempt : Attempt) (stage : Stage) : opens stage = true →
      attempt.serial = (c.shared.data attempt.slot).serial + 1 →
      (∀ slot, (next.shared.data slot).serial =
        if slot = attempt.slot then attempt.serial else (c.shared.data slot).serial) →
      next.tasks = ⟨attempt,stage⟩ :: c.tasks → next.trace = c.trace ++ [.started ⟨attempt,stage⟩] →
      next.shared.log = c.shared.log ++ [.returned attempt modAsync] →
      next.shared.exits = c.shared.exits → Moved c next
  | handled (task : Task) (error : ErrorCode) (replies : Replies) (others : List Task)
      (events : List Event) (later : Option Stage) : Answers task error replies events later →
      (∀ slot, (next.shared.data slot).serial = (c.shared.data slot).serial) →
      (task :: others).Perm c.tasks →
      next.tasks = later.toList.map (⟨task.attempt,·⟩) ++ others →
      next.trace = c.trace ++ .finished task error replies events ::
        later.toList.map (.started ⟨task.attempt,·⟩) →
      next.shared.log = c.shared.log ++ events →
      (next.shared.exits = if refuses task.stage error replies
        then Function.update c.shared.exits task.attempt.slot.context true else c.shared.exits) → Moved c next

theorem Moved.stay (c : Connection) : Moved c c :=
  .quiet [] (fun _ => le_rfl) .rfl rfl (by simp) .nil rfl

theorem settle_tasks (c : Connection) (next : State) (others : List Op) (entries : List Entry) :
    (c.settle next others entries).tasks = next.op.toList.map (·.task) ++ others.map (·.task) := by
  simp [tasks,settle]

theorem settle_moved (c : Connection) (next : State) (hooks : List Event) (idle : next.op = none)
    (serials : ∀ slot, (c.shared.data slot).serial ≤ (next.data slot).serial)
    (log : next.log = c.shared.log ++ hooks) (silent : Plain hooks) (exits : next.exits = c.shared.exits) :
    Moved c (c.settle next c.ops []) := by
  refine .quiet hooks serials ?_ (by simp [settle]) log silent exits
  rw [settle_tasks,idle]
  exact .rfl

theorem runRequest_moved (c : Connection) (context module : Nat) (versionLen : UInt32) :
    Moved c (c.step (.runRequest context module versionLen)) := by
  refine .entered ⟨⟨context,module⟩,(c.shared.data ⟨context,module⟩).serial + 1⟩ (.version versionLen)
    rfl rfl ?_ rfl rfl rfl rfl
  intro slot
  exact (setTimer_serial _ _ _ _).trans (called_serial { c.shared with context := context } module slot)

theorem runResponse_moved (c : Connection) (context module : Nat) (resp : Option (List UInt8)) :
    Moved c (c.step (.runResponse context module resp)) := by
  let attempt : Attempt := ⟨⟨context,module⟩,(c.shared.data ⟨context,module⟩).serial + 1⟩
  cases resp with
  | none =>
    refine .quiet [.returned attempt modFailed] ?_ ?_ ?_ rfl (.cons rfl .nil) rfl
    · intro slot
      refine le_of_le_of_eq ?_ (called_serial { c.shared with context := context } module slot).symm
      split
      · rename_i same
        rw [same]
        exact Nat.le_succ _
      · exact le_rfl
    · simp [step,enter,tasks,settle,runResponse,called,State.emit,c.idle]
    · simp [step,enter,starts,settle,runResponse,called,State.emit,c.idle]
  | some bytes =>
    refine .entered attempt (.resp bytes) rfl rfl ?_ rfl rfl rfl rfl
    intro slot
    exact (setTimer_serial _ _ _ _).trans (called_serial { c.shared with context := context } module slot)

theorem advance_moved (c : Connection) (index : Nat) (move : State → State)
    (keeps : ∀ s op, s.op = some op → ∃ later, (move s).op = some later ∧ later.task = op.task ∧
      (move s).data = s.data ∧ (move s).log = s.log ∧ (move s).exits = s.exits) :
    Moved c (c.advance index move) := by
  unfold advance
  split
  · exact .stay c
  · rename_i op here
    obtain ⟨inside,rfl⟩ := List.getElem?_eq_some_iff.mp here
    obtain ⟨later,left,task,data,log,exits⟩ := keeps { c.shared with op := some c.ops[index] } _ rfl
    refine .quiet [] (fun slot => ?_) ?_ (by simp [settle]) ?_ .nil exits
    · simp only [settle,data]
      exact le_rfl
    · rw [settle_tasks,left]
      simp only [Option.toList_some,List.map_cons,List.map_nil,task]
      exact (List.getElem_cons_eraseIdx_perm inside).map (·.task)
    · simp only [settle,log,List.append_nil]

theorem transfer_moved (c : Connection) (index count : Nat) : Moved c (c.step (.transfer index count)) := by
  refine c.advance_moved index _ fun s op busy => ?_
  simp only [transfer,busy]
  split
  · exact ⟨_,rfl,rfl,rfl,rfl,rfl⟩
  · exact ⟨_,busy,rfl,rfl,rfl,rfl⟩

theorem complete_moved (c : Connection) (index : Nat) (code : ErrorCode) :
    Moved c (c.step (.complete index code)) := by
  refine c.advance_moved index _ fun s op busy => ?_
  simp only [complete,busy]
  split
  · exact ⟨_,rfl,rfl,rfl,rfl,rfl⟩
  · exact ⟨_,busy,rfl,rfl,rfl,rfl⟩

theorem runHandler_moved (c : Connection) (index : Nat) (replies : Replies) :
    Moved c (c.step (.handler index replies)) := by
  simp only [step,runHandler]
  split
  · exact .stay c
  · rename_i op here
    obtain ⟨inside,rfl⟩ := List.getElem?_eq_some_iff.mp here
    split
    · exact .stay c
    · rename_i error done
      obtain ⟨events,later,answered⟩ := handler_answered c.shared c.ops[index] error replies c.idle
      have recorded : (handler c.ops[index] error replies c.shared).log.drop c.shared.log.length = events := by
        rw [answered.log,List.drop_left]
      refine .handled c.ops[index].task error replies ((c.ops.eraseIdx index).map (·.task)) events later
        answered.answers (handler_serial c.shared _ error replies) ?_ ?_ ?_ answered.log answered.exits
      · exact (List.getElem_cons_eraseIdx_perm inside).map (·.task)
      · rw [settle_tasks,answered.op]
        cases later <;> rfl
      · simp only [settle,recorded,starts,answered.op]
        cases later <;> rfl

theorem runTimeOut_moved (c : Connection) (slot : Slot) (index : Nat) :
    Moved c (c.step (.timeOutHandler slot index)) := by
  simp only [step,runTimeOut]
  split
  · exact .stay c
  · rename_i timeOut error queued
    have spared : (if error ≠ .success then c.ops else c.ops.map (·.cancel 0 timeOut)).map (·.task) = c.tasks := by
      split
      · rfl
      · simp [tasks,Function.comp_def]
    have left (next : State) (hooks : List Event) (idle : next.op = none)
        (data : next.data = (c.shared.setTimer slot (.take index)).data)
        (log : next.log = c.shared.log ++ hooks) (silent : Plain hooks) (exits : next.exits = c.shared.exits) :
        Moved c (c.settle next (if error ≠ .success then c.ops else c.ops.map (·.cancel 0 timeOut)) []) := by
      refine .quiet hooks (fun other => ?_) ?_ (by simp [settle]) log silent exits
      · simp only [settle,data,setTimer_serial]
        exact le_rfl
      · rw [settle_tasks,idle,spared]
        exact .rfl
    have idle : (c.shared.setTimer slot (.take index)).op = none := c.idle
    have fired (hook : Event) (silent : plain hook = true) :
        Moved c (c.settle (cancelSocket timeOut ((c.shared.setTimer slot (.take index)).emit hook))
          (if error ≠ .success then c.ops else c.ops.map (·.cancel 0 timeOut)) []) := by
      refine left _ [hook,.cancelled timeOut none] ?_ rfl ?_ (.cons silent (.cons rfl .nil)) rfl
      · simp [cancelSocket,State.emit,idle]
      · simp [cancelSocket,State.emit,State.setTimer,c.idle]
    have ignored := left (c.shared.setTimer slot (.take index)) [] idle rfl (by simp [State.setTimer]) .nil rfl
    cases timeOut with
    | readTimeOut flag attempt =>
      simp only [timeOutHandler,onReadTimeOut]
      split
      · rename_i bad
        rwa [if_pos bad] at ignored
      · rename_i fine
        simp only [if_neg fine] at fired
        exact fired _ (by split <;> rfl)
    | writeTimeOut attempt =>
      simp only [timeOutHandler,onWriteTimeOut]
      split
      · rename_i bad
        rwa [if_pos bad] at ignored
      · rename_i fine
        simp only [if_neg fine] at fired
        exact fired _ rfl

theorem step_moved (c : Connection) (a : Action) : Moved c (c.step a) := by
  cases a with
  | runRequest context module versionLen => exact c.runRequest_moved context module versionLen
  | runResponse context module resp => exact c.runResponse_moved context module resp
  | endRequest context =>
    have ends (next : State) (data : next.data = c.shared.data) (idle : next.op = none)
        (log : next.log = c.shared.log ++ [.endRequest context]) (exits : next.exits = c.shared.exits) :
        Moved c (c.settle next c.ops (starts next)) := by
      have unstarted : starts next = [] := by simp [starts,idle]
      rw [unstarted]
      exact c.settle_moved next _ idle (fun slot => by rw [data]) log (.cons rfl .nil) exits
    simp only [step,enter,endRequest]
    split
    · exact ends _ rfl c.idle rfl rfl
    · exact ends _ rfl c.idle rfl rfl
  | send bytes => exact c.settle_moved _ [] c.idle (fun _ => le_rfl) (by simp) .nil rfl
  | transfer index count => exact c.transfer_moved index count
  | complete index code => exact c.complete_moved index code
  | handler index replies => exact c.runHandler_moved index replies
  | expire slot =>
    refine c.settle_moved _ [] c.idle (fun other => ?_) (by simp [State.setTimer]) .nil rfl
    rw [setTimer_serial]
  | timeOutHandler slot index => exact c.runTimeOut_moved slot index

/-- Every flag set by `exit()` was set by a completion handler of the context that refused. -/
theorem exits_iff (actions : List Action) (context : Nat) :
    (execute step initial actions).shared.exits context = true ↔
      ∃ entry ∈ (execute step initial actions).trace,
        entry.refused = true ∧ entry.attempt.slot.context = context := by
  refine execute_invariant (I := fun c : Connection => c.shared.exits context = true ↔
    ∃ entry ∈ c.trace, entry.refused = true ∧ entry.attempt.slot.context = context) ?_ ?_ actions
  · intro c a iff
    cases c.step_moved a with
    | quiet hooks serials tasks trace log silent exits => rw [exits,trace,iff]
    | entered attempt stage first serial serials tasks trace log exits =>
      rw [exits,trace,iff]
      simp [Entry.refused]
    | handled task error replies others events later answers serials tasks left trace log exits =>
      have unstarted : ¬∃ entry ∈ later.toList.map fun stage => Entry.started ⟨task.attempt,stage⟩,
          entry.refused = true ∧ entry.attempt.slot.context = context := by
        rintro ⟨entry,member,refused,_⟩
        obtain ⟨stage,_,rfl⟩ := List.mem_map.mp member
        contradiction
      rw [exits,trace]
      simp only [List.mem_append,List.mem_cons,or_and_right,exists_or,exists_eq_left,unstarted,or_false]
      rw [← iff]
      simp only [Entry.refused,Entry.attempt]
      by_cases refused : refuses task.stage error replies = true
      · by_cases here : task.attempt.slot.context = context
        · simp [refused,here]
        · simp [refused,here,Function.update_of_ne (Ne.symm here)]
      · simp [refused]
  · simp [initial,ClientConnection.initial]

end Connection

/-- The history of one run and the operation it has outstanding. -/
inductive History (attempt : Attempt) : List Entry → Option Stage → Prop where
  | unstarted : History attempt [] none
  | opened (stage : Stage) : opens stage = true → History attempt [.started ⟨attempt,stage⟩] (some stage)
  | handled (stage : Stage) (error : ErrorCode) (replies : Replies) : History attempt entries (some stage) →
      Answers ⟨attempt,stage⟩ error replies events later →
      History attempt (entries ++ .finished ⟨attempt,stage⟩ error replies events ::
        later.toList.map (.started ⟨attempt,·⟩)) later

namespace History

theorem of_nil (history : History attempt [] later) : later = none := by
  generalize empty : ([] : List Entry) = entries at history
  cases history with
  | unstarted => rfl
  | opened stage first => contradiction
  | handled stage error replies before answers => simp at empty

theorem ne_nil (history : History attempt entries (some stage)) : entries ≠ [] := by
  rintro rfl
  exact absurd history.of_nil (by simp)

end History

theorem Plain.resumes (silent : Plain events) (attempt : Attempt) : resumes attempt events = 0 := by
  refine List.countP_eq_zero.mpr fun event member => ?_
  have quiet := silent event member
  cases event <;> simp_all [plain,isResumed]

theorem Plain.exited (silent : Plain events) (context : Nat) : .exited context ∉ events := fun member =>
  absurd (silent _ member) (by simp [plain])

theorem Plain.returned (silent : Plain events) (attempt : Attempt) : .returned attempt modAsync ∉ events :=
  fun member => absurd (silent _ member) (by simp [plain])

theorem Answers.resumes_of_ne (answers : Answers task error replies events later) (apart : task.attempt ≠ attempt) :
    events.filter (isResumed attempt) = [] := by
  refine List.filter_eq_nil_iff.mpr fun event member resumed => ?_
  cases answers with
  | reads hooks stage accepted next silent =>
    have quiet := List.countP_eq_zero.mp (silent.resumes attempt) event member
    contradiction
  | resumed hooks state branch silent =>
    rcases List.mem_append.mp member with before | last
    · rcases List.mem_append.mp before with hook | exit
      · exact List.countP_eq_zero.mp (silent.resumes attempt) event hook resumed
      · split at exit
        · rw [List.mem_singleton.mp exit] at resumed
          contradiction
        · contradiction
    · rw [List.mem_singleton.mp last] at resumed
      exact apart (by simpa [isResumed] using resumed)

theorem Answers.returned (answers : Answers task error replies events later) (attempt : Attempt) :
    .returned attempt modAsync ∉ events := by
  cases answers with
  | reads hooks stage accepted next silent => exact silent.returned attempt
  | resumed hooks state branch silent =>
    have unexited : .returned attempt modAsync ∉ if refuses task.stage error replies
        then [Event.exited task.attempt.slot.context] else [] := by
      split <;> simp
    simp [silent.returned attempt,unexited]

/-- The history of a run, its operation and its resumes agree. -/
structure Tracked (c : Connection) (attempt : Attempt) (later : Option Stage) : Prop where
  history : History attempt (c.entries attempt) later
  tasks : (c.tasks.filter (·.attempt = attempt)).Perm (later.toList.map (⟨attempt,·⟩))
  returned : .returned attempt modAsync ∈ c.shared.log ↔ c.entries attempt ≠ []
  fresh : (c.shared.data attempt.slot).serial < attempt.serial → c.entries attempt = []
  recorded : c.shared.log.filter (isResumed attempt) =
    ((c.entries attempt).flatMap Entry.events).filter (isResumed attempt)

namespace Connection

theorem initial_tracked (attempt : Attempt) : Tracked initial attempt none where
  history := .unstarted
  tasks := .rfl
  returned := by simp [initial,ClientConnection.initial,entries]
  fresh := fun _ => rfl
  recorded := rfl

theorem Moved.tracked (moved : Moved c next) (tracked : Tracked c attempt later) :
    ∃ later, Tracked next attempt later := by
  cases moved with
  | quiet hooks serials tasks trace log silent exits =>
    have same : next.entries attempt = c.entries attempt := by rw [entries,trace,entries]
    refine ⟨later,?_,(tasks.filter _).trans tracked.tasks,?_,?_,?_⟩
    · rw [same]
      exact tracked.history
    · rw [same,log,← tracked.returned]
      simp [silent.returned attempt]
    · intro early
      rw [same]
      exact tracked.fresh (Nat.lt_of_le_of_lt (serials _) early)
    · have none : hooks.filter (isResumed attempt) = [] :=
        List.filter_eq_nil_iff.mpr (List.countP_eq_zero.mp (silent.resumes attempt))
      rw [same,log,List.filter_append,none,List.append_nil]
      exact tracked.recorded
  | entered own stage first serial serials tasks trace log exits =>
    by_cases mine : own = attempt
    · subst mine
      have unstarted : c.entries own = [] := tracked.fresh (by omega)
      obtain rfl : later = none := by
        have history := tracked.history
        rw [unstarted] at history
        exact history.of_nil
      have here : next.entries own = [.started ⟨own,stage⟩] := by
        rw [entries,trace,List.filter_append]
        change c.entries own ++ _ = _
        simp [unstarted,Entry.attempt]
      refine ⟨some stage,?_,?_,?_,?_,?_⟩
      · rw [here]
        exact .opened stage first
      · rw [tasks,List.filter_cons_of_pos (by simp)]
        exact tracked.tasks.cons _
      · simp [here,log]
      · intro early
        rw [serials,if_pos rfl] at early
        exact absurd early (Nat.lt_irrefl _)
      · have before := tracked.recorded
        rw [unstarted] at before
        rw [here,log,List.filter_append,before]
        rfl
    · have same : next.entries attempt = c.entries attempt := by
        rw [entries,trace,List.filter_append,entries]
        simp [Entry.attempt,mine]
      refine ⟨later,?_,?_,?_,?_,?_⟩
      · rw [same]
        exact tracked.history
      · rw [tasks,List.filter_cons_of_neg (by simpa using mine)]
        exact tracked.tasks
      · rw [same,log,← tracked.returned]
        simp [Ne.symm mine]
      · intro early
        rw [same]
        refine tracked.fresh (Nat.lt_of_le_of_lt ?_ early)
        rw [serials]
        split
        · rename_i slot
          rw [slot]
          omega
        · exact le_rfl
      · rw [same,log,List.filter_append]
        simpa [isResumed] using tracked.recorded
  | handled task error replies others events started answers serials tasks left trace log exits =>
    by_cases mine : task.attempt = attempt
    · obtain ⟨own,current⟩ := task
      obtain rfl : own = attempt := mine
      have handled : (⟨own,current⟩ :: others.filter (·.attempt = own)).Perm (later.toList.map (⟨own,·⟩)) := by
        have filtered := (tasks.filter (·.attempt = own)).trans tracked.tasks
        rwa [List.filter_cons_of_pos (by simp)] at filtered
      cases later with
      | none => exact absurd handled.eq_nil (by simp)
      | some stage =>
        obtain ⟨same,rest⟩ := List.cons.inj (List.perm_singleton.mp handled)
        obtain rfl : current = stage := congrArg Task.stage same
        have grown : next.entries own = c.entries own ++ .finished ⟨own,current⟩ error replies events ::
            started.toList.map (.started ⟨own,·⟩) := by
          rw [entries,trace,List.filter_append]
          cases started <;> simp [entries,Entry.attempt]
        refine ⟨started,?_,?_,?_,?_,?_⟩
        · rw [grown]
          exact .handled current error replies tracked.history answers
        · rw [left,List.filter_append,rest]
          cases started <;> simp
        · simp [grown,log,tracked.returned.mpr tracked.history.ne_nil]
        · intro early
          rw [serials] at early
          exact absurd (tracked.fresh early) tracked.history.ne_nil
        · rw [grown,log,List.filter_append,tracked.recorded]
          cases started <;> simp [Entry.events]
    · have same : next.entries attempt = c.entries attempt := by
        rw [entries,trace,List.filter_append,entries]
        cases started <;> simp [Entry.attempt,mine]
      refine ⟨later,?_,?_,?_,?_,?_⟩
      · rw [same]
        exact tracked.history
      · have others' : (others.filter (·.attempt = attempt)).Perm (later.toList.map (⟨attempt,·⟩)) := by
          have filtered := (tasks.filter (·.attempt = attempt)).trans tracked.tasks
          rwa [List.filter_cons_of_neg (by simpa using mine)] at filtered
        rw [left,List.filter_append]
        cases started <;> simpa [mine] using others'
      · rw [same,log,← tracked.returned]
        simp [answers.returned attempt]
      · intro early
        rw [same]
        exact tracked.fresh (by rwa [serials] at early)
      · rw [same,log,List.filter_append,answers.resumes_of_ne mine,List.append_nil]
        exact tracked.recorded

theorem execute_tracked (actions : List Action) (attempt : Attempt) :
    ∃ later, Tracked (execute step initial actions) attempt later := by
  refine execute_invariant (I := fun c => ∃ later, Tracked c attempt later) ?_
    ⟨none,initial_tracked attempt⟩ actions
  rintro c a ⟨later,tracked⟩
  exact (c.step_moved a).tracked tracked

end Connection

inductive Part where
  | version
  | head
  | body
  | resp
  deriving DecidableEq, Repr

def Stage.part : Stage → Part
  | .version _ => .version
  | .head _ => .head
  | .body _ => .body
  | .resp _ => .resp

/-- The operations that a run starts up to one of them. -/
def Stage.upTo : Stage → List Part
  | .version _ => [.version]
  | .head _ => [.version,.head]
  | .body _ => [.version,.head,.body]
  | .resp _ => [.resp]

def Entry.part : Entry → Option Part
  | .started task => some task.stage.part
  | .finished _ _ _ _ => none

/-- What one entry of a run leads to: an operation to its handler, and an accepted read
to the next one. -/
inductive Leads : Entry → Entry → Prop where
  | handled (task : Task) (error : ErrorCode) (replies : Replies) (events : List Event) :
      Leads (.started task) (.finished task error replies events)
  | accepted (task : Task) (replies : Replies) (events : List Event) (stage : Stage) :
      replies.ok = true → nextStage replies task.stage = some stage →
      Leads (.finished task .success replies events) (.started ⟨task.attempt,stage⟩)

theorem Answers.continues (answers : Answers task error replies events later) :
    later.toList.length + resumes task.attempt events = 1 := by
  cases answers with
  | reads hooks stage accepted next silent => simp [silent.resumes]
  | resumed hooks state branch silent =>
    have unexited : resumes task.attempt (if refuses task.stage error replies
        then [.exited task.attempt.slot.context] else []) = 0 := by
      split <;> rfl
    rw [resumes_append,resumes_append,silent.resumes,unexited]
    simp [resumes,isResumed]

theorem Answers.accepts (answers : Answers task error replies events (some stage)) :
    error = .success ∧ replies.ok = true ∧ nextStage replies task.stage = some stage := by
  obtain ⟨hooks,_,accepted,next,silent⟩ := answers
  have read : isRead task.stage = true := by
    cases here : task.stage with
    | resp bytes => simp [here,nextStage] at next
    | _ => rfl
  simp only [refuses,read,Bool.true_and,Bool.or_eq_false_iff,Bool.not_eq_false',bne_eq_false_iff_eq] at accepted
  exact ⟨accepted.1,accepted.2,next⟩

namespace History

theorem last (history : History attempt entries (some stage)) :
    entries.getLast? = some (.started ⟨attempt,stage⟩) := by
  cases history with
  | opened stage first => rfl
  | handled before error replies earlier answers => simp

/-- A run that has been entered has one operation outstanding or has resumed once. -/
theorem continues (history : History attempt entries later) (entered : entries ≠ []) :
    later.toList.length + resumes attempt (entries.flatMap Entry.events) = 1 := by
  induction history with
  | unstarted => contradiction
  | opened stage first => rfl
  | @handled entries events later stage error replies before answers ih =>
    have none : resumes attempt (entries.flatMap Entry.events) = 0 := by simpa using ih before.ne_nil
    have once := answers.continues
    cases later <;> simpa [resumes_append,none,Entry.events] using once

theorem parts_some (history : History attempt entries (some stage)) :
    entries.filterMap Entry.part = stage.upTo := by
  generalize open' : some stage = later at history
  induction history generalizing stage with
  | unstarted => contradiction
  | opened first opens =>
    obtain rfl := Option.some.inj open'
    cases stage <;> first | rfl | contradiction
  | handled before error replies earlier answers ih =>
    subst open'
    obtain ⟨_,_,next⟩ := answers.accepts
    rw [List.filterMap_append,ih rfl]
    cases before <;> simp only [nextStage,Option.some.injEq,reduceCtorEq] at next <;> subst next <;> rfl

theorem order (history : History attempt entries later) :
    entries.filterMap Entry.part <+: [.version,.head,.body] ∨ entries.filterMap Entry.part = [.resp] := by
  have upTo (stage : Stage) : stage.upTo <+: [.version,.head,.body] ∨ stage.upTo = [.resp] := by
    cases stage <;> simp [Stage.upTo]
  cases later with
  | some stage =>
    rw [history.parts_some]
    exact upTo stage
  | none =>
    cases history with
    | unstarted => exact .inl (List.nil_prefix)
    | @handled entries events _ stage error replies before answers =>
      have unstarted : [Entry.finished ⟨attempt,stage⟩ error replies events].filterMap Entry.part = [] := rfl
      rw [List.filterMap_append,before.parts_some]
      simpa only [Option.toList_none,List.map_nil,unstarted,List.append_nil] using upTo stage

theorem leads (history : History attempt entries later) : entries.IsChain Leads := by
  induction history with
  | unstarted => exact .nil
  | opened stage first => exact .singleton _
  | @handled entries events later stage error replies before answers ih =>
    refine List.isChain_append.mpr ⟨ih,?_,?_⟩
    · cases later with
      | none => exact .singleton _
      | some next =>
        obtain ⟨rfl,ok,follows⟩ := answers.accepts
        exact List.isChain_pair.mpr (.accepted ⟨attempt,stage⟩ replies events next ok follows)
    · intro first member second member'
      rw [before.last] at member
      obtain rfl := Option.some.inj member
      obtain rfl := Option.some.inj member'
      exact .handled ⟨attempt,stage⟩ error replies events

/-- A completion handler does nothing but go on, or it resumes last of all, after an
`exit()` if it refused. -/
theorem events (history : History attempt entries later) : ∀ entry ∈ entries,
    Plain entry.events ∨ ∃ hooks state, Plain hooks ∧ entry.events = hooks ++
      (if entry.refused then [.exited attempt.slot.context] else []) ++ [.resumed attempt state] := by
  induction history with
  | unstarted => simp
  | opened stage first => simp [Entry.events,Plain.nil]
  | @handled entries events later stage error replies before answers ih =>
    intro entry member
    rcases List.mem_append.mp member with old | new
    · exact ih entry old
    · rcases List.mem_cons.mp new with rfl | started
      · cases answers with
        | reads hooks next accepted follows silent => exact .inl silent
        | resumed hooks state branch silent => exact .inr ⟨hooks,state,silent,rfl⟩
      · obtain ⟨next,_,rfl⟩ := List.mem_map.mp started
        exact .inl .nil

end History

theorem before_resume {first hooks after : List Event} (silent : resumes attempt first = 0)
    (same : first ++ [.resumed attempt last] = hooks ++ .resumed attempt state :: after) : hooks = first := by
  have none : ∀ event ∈ first, isResumed attempt event = false := by
    simpa [resumes,List.countP_eq_zero] using silent
  rcases List.append_eq_append_iff.mp same with ⟨more,rfl,rest⟩ | ⟨more,rfl,rest⟩
  · cases more with
    | nil => simp
    | cons event tail => simp at rest
  · cases more with
    | nil => simp
    | cons event tail =>
      obtain ⟨rfl,_⟩ := List.cons.inj rest
      exact absurd (none (.resumed attempt state) (by simp)) (by simp [isResumed])

/-- A run of a module on the connection, in a state of the system. -/
structure ContinuesOnce (c : Connection) (attempt : Attempt) : Prop where
  single : c.outstanding attempt + resumes attempt c.shared.log = 1
  recorded : c.shared.log.filter (isResumed attempt) =
    ((c.entries attempt).flatMap Entry.events).filter (isResumed attempt)
  order : (c.entries attempt).filterMap Entry.part <+: [.version,.head,.body] ∨
    (c.entries attempt).filterMap Entry.part = [.resp]
  accepted : (c.entries attempt).IsChain Leads
  exits : ∀ before entry rest hooks state after, c.entries attempt = before ++ entry :: rest →
    entry.events = hooks ++ .resumed attempt state :: after →
    ((∃ earlier ∈ before, .exited attempt.slot.context ∈ earlier.events) ∨
      .exited attempt.slot.context ∈ hooks ↔ entry.refused = true)
  flag : c.shared.exits attempt.slot.context = true ↔
    ∃ entry ∈ c.trace, entry.refused = true ∧ entry.attempt.slot.context = attempt.slot.context

theorem History.exits (history : History attempt (before ++ entry :: rest) later)
    (resumed : entry.events = hooks ++ .resumed attempt state :: after) :
    (∃ earlier ∈ before, .exited attempt.slot.context ∈ earlier.events) ∨
      .exited attempt.slot.context ∈ hooks ↔ entry.refused = true := by
  have once := history.continues (by simp)
  have own : 1 ≤ resumes attempt entry.events := by
    have own : 1 ≤ resumes attempt (.resumed attempt state :: after) := by simp [resumes,isResumed]
    rw [resumed,resumes_append]
    omega
  have none : resumes attempt (before.flatMap Entry.events) = 0 := by
    simp only [List.flatMap_append,List.flatMap_cons,resumes_append] at once
    omega
  have early : ¬∃ earlier ∈ before, .exited attempt.slot.context ∈ earlier.events := by
    rintro ⟨earlier,member,exited⟩
    rcases history.events earlier (List.mem_append_left _ member) with silent | ⟨hooks,state,_,ends⟩
    · exact silent.exited _ exited
    · have inside : .resumed attempt state ∈ before.flatMap Entry.events :=
        List.mem_flatMap.mpr ⟨earlier,member,by simp [ends]⟩
      exact absurd (List.countP_eq_zero.mp none _ inside) (by simp [isResumed])
  rcases history.events entry (by simp) with silent | ⟨first,last,silent,ends⟩
  · have quiet := silent.resumes attempt
    omega
  · have unresumed : resumes attempt (first ++ if entry.refused then [.exited attempt.slot.context] else []) = 0 := by
      rw [resumes_append,silent.resumes]
      split <;> rfl
    rw [before_resume unresumed (ends.symm.trans resumed)]
    by_cases refused : entry.refused = true
    · simp [refused]
    · simp [refused,early,silent.exited]

namespace Connection

/-- Every run that returned asynchronously continues exactly once, whatever overlaps with it. -/
theorem continues_once (actions : List Action) (attempt : Attempt)
    (returned : Event.returned attempt modAsync ∈ (execute step initial actions).shared.log) :
    ContinuesOnce (execute step initial actions) attempt := by
  obtain ⟨later,tracked⟩ := execute_tracked actions attempt
  have entered := tracked.returned.mp returned
  have outstanding : (execute step initial actions).outstanding attempt = later.toList.length := by
    rw [Connection.outstanding,List.countP_eq_length_filter,tracked.tasks.length_eq,List.length_map]
  refine ⟨?_,tracked.recorded,tracked.history.order,tracked.history.leads,?_,exits_iff actions _⟩
  · rw [outstanding,resumes,List.countP_eq_length_filter,tracked.recorded,← List.countP_eq_length_filter]
    exact tracked.history.continues entered
  · intro before entry rest hooks state after split resumed
    have history := tracked.history
    rw [split] at history
    exact history.exits resumed

/-- An expiry that was queued while the version was read cancels the read of the head. -/
theorem late_expiry_continues :
    ContinuesOnce (execute step initial
      [.runRequest 0 0 1,.send [7],.transfer 0 1,.complete 0 .success,.expire ⟨0,0⟩,
        .handler 0 ⟨true,4,modSucceed⟩,.timeOutHandler ⟨0,0⟩ 0,.handler 0 ⟨true,1,modSucceed⟩]) ⟨⟨0,0⟩,1⟩ :=
  continues_once _ _ (by decide)

end Connection

end Zerver.ClientConnection
