import Mathlib.Tactic.Ring
import Zerver.TcpModule

/-! Exactly-once continuation of TcpModule attempts: the socket event says whether
an operation is outstanding, and every attempt that returned `Mod_async` has either
one outstanding operation or one resume. No assumption on timers or results is made. -/
namespace Zerver.TcpModule.Control

open Zerver.Asio Zerver.TcpClientPool Zerver.Schedule

def outstanding (s : State) (a : Attempt) : Nat :=
  (s.ops a.slot).countP (fun op => op.task.attempt = a)

def isResume (a : Attempt) : Event → Bool
  | .resumed attempt _ => attempt = a
  | _ => false

def isAsync (a : Attempt) : Event → Bool
  | .returned attempt state => attempt = a ∧ state = modAsync
  | _ => false

def resumes (s : State) (a : Attempt) : Nat := s.log.countP (isResume a)

def started (s : State) (a : Attempt) : Nat := s.log.countP (isAsync a)

/-- What the handlers keep of an operation they did not start. -/
def key (op : Op) : Task × Nat := (op.task,op.socket)

/-- The flag of a `ModuleData` against its outstanding operations. -/
structure Flagged (s : State) (slot : Slot) : Prop where
  opened : (s.data slot).socketEvent = .opened → ∃ op, s.ops slot = [op] ∧
    op.task.attempt = ⟨slot,(s.data slot).serial⟩ ∧ (s.data slot).client = some op.socket
  quiet : (s.data slot).socketEvent ≠ .opened → s.ops slot = []

def due (owed : Option Attempt) (a : Attempt) : Nat := if owed = some a then 1 else 0

/-- `owed` is the attempt whose handler is running: its operation has been taken and
its continuation is still to come. -/
structure Balanced (owed : Option Attempt) (s : State) : Prop where
  flagged : ∀ slot, Flagged s slot
  balance : ∀ a, outstanding s a + resumes s a + due owed a = started s a
  unborn : ∀ a, (s.data a.slot).serial < a.serial → started s a = 0
  once : ∀ a, started s a ≤ 1

theorem initial_balanced (maxTimes : Int32) (checkTime : Int) : Balanced none (initial maxTimes checkTime) := by
  constructor
  · intro slot
    constructor <;> simp [initial]
  all_goals simp [initial,outstanding,resumes,started,due]

/-- Steps that neither take nor start nor continue anything. -/
structure Same (s next : State) : Prop where
  event : ∀ slot, (next.data slot).socketEvent = (s.data slot).socketEvent
  client : ∀ slot, (next.data slot).client = (s.data slot).client
  serial : ∀ slot, (next.data slot).serial = (s.data slot).serial
  keys : ∀ slot, (next.ops slot).map key = (s.ops slot).map key
  resumes : ∀ a, resumes next a = resumes s a
  started : ∀ a, started next a = started s a

theorem Same.refl (s : State) : Same s s := ⟨by simp,by simp,by simp,by simp,by simp,by simp⟩

theorem Same.trans (first : Same s middle) (later : Same middle next) : Same s next where
  event slot := (later.event slot).trans (first.event slot)
  client slot := (later.client slot).trans (first.client slot)
  serial slot := (later.serial slot).trans (first.serial slot)
  keys slot := (later.keys slot).trans (first.keys slot)
  resumes a := (later.resumes a).trans (first.resumes a)
  started a := (later.started a).trans (first.started a)

theorem Same.outstanding (same : Same s next) (a : Attempt) :
    outstanding next a = outstanding s a := by
  have count (ops : List Op) : ops.countP (fun op => op.task.attempt = a) =
      (ops.map key).countP (fun k => k.1.attempt = a) := by
    rw [List.countP_map]
    rfl
  rw [Control.outstanding,count,same.keys,← count,Control.outstanding]

theorem Balanced.same (valid : Balanced owed s) (same : Same s next) : Balanced owed next where
  flagged slot := by
    constructor
    · intro opened
      obtain ⟨op,only,attempt,client⟩ := (valid.flagged slot).opened (same.event slot ▸ opened)
      have keys := same.keys slot
      rw [only,List.map_singleton,List.map_eq_singleton_iff] at keys
      obtain ⟨op',only',eq⟩ := keys
      obtain ⟨task,socket⟩ := Prod.mk.inj eq
      exact ⟨op',only',by rw [task,same.serial,attempt],by rw [same.client,client,socket]⟩
    · intro closed
      have none := (valid.flagged slot).quiet (same.event slot ▸ closed)
      simpa [none] using same.keys slot
  balance a := by rw [same.outstanding,same.resumes,same.started]; exact valid.balance a
  unborn a later := by rw [same.started]; exact valid.unborn a (same.serial a.slot ▸ later)
  once a := by rw [same.started]; exact valid.once a

/-- Events that continue no attempt and start none. -/
def neutral : Event → Bool
  | .returned _ state => state ≠ modAsync
  | .resumed _ _ => false
  | _ => true

theorem same_emit (s : State) (event : Event) (quiet : neutral event = true) :
    Same s (s.emit event) := by
  refine ⟨fun _ => rfl,fun _ => rfl,fun _ => rfl,fun _ => rfl,?_,?_⟩
  · intro a
    cases event <;> simp_all [neutral,resumes,State.emit,isResume]
  · intro a
    cases event <;> simp_all [neutral,started,State.emit,isAsync]

theorem same_setTimer (s : State) (slot : Slot) (f : Timer TimeOut → Timer TimeOut) :
    Same s (s.setTimer slot f) := by
  refine ⟨?_,?_,?_,fun _ => rfl,fun _ => rfl,fun _ => rfl⟩
  all_goals
    intro other
    by_cases eq : other = slot
    · subst other; simp [State.setTimer]
    · simp [State.setTimer,setData_other,eq]

theorem same_ops (s : State) (ops : Slot → List Op)
    (keys : ∀ slot, (ops slot).map key = (s.ops slot).map key) : Same s { s with ops := ops } :=
  ⟨fun _ => rfl,fun _ => rfl,fun _ => rfl,keys,fun _ => rfl,fun _ => rfl⟩

theorem same_cancelSocket (s : State) (socket : Nat) (issuer : Issuer) :
    Same s (s.cancelSocket socket issuer) :=
  same_ops s _ fun slot => by simp [key,Function.comp_def]

theorem same_commit (s : State) (issuer : Issuer) (h : Heap) : Same s (s.commit issuer h) := by
  refine ⟨by simp,by simp,by simp,?_,by simp [resumes],by simp [started]⟩
  intro slot
  simp [commit_ops,key,Function.comp_def]

theorem keys_set (ops : List Op) (index : Nat) (op op' : Op) (found : ops[index]? = some op)
    (same : key op' = key op) : (ops.set index op').map key = ops.map key := by
  obtain ⟨bound,rfl⟩ := List.getElem?_eq_some_iff.mp found
  have mapped : index < (ops.map key).length := by simpa using bound
  have kept : key op' = (ops.map key)[index] := by simpa using same
  rw [List.map_set,kept,List.set_getElem_self]

theorem same_setOps (s : State) (slot : Slot) (ops : List Op)
    (keys : ops.map key = (s.ops slot).map key) : Same s (s.setOps slot ops) := by
  apply same_ops s _
  intro other
  by_cases eq : other = slot
  · subst other; simpa using keys
  · simp [eq]

theorem same_complete (s : State) (slot : Slot) (index : Nat) (code : ErrorCode) :
    Same s (complete slot index code s) := by
  unfold complete
  split
  · exact .refl s
  · rename_i op found
    split
    · apply (same_setOps s slot _ (keys_set _ index op (op.complete code) found rfl)).trans
      unfold delivered
      split
      · exact same_emit _ _ rfl
      · exact ⟨fun _ => rfl,fun _ => rfl,fun _ => rfl,fun _ => rfl,fun _ => rfl,fun _ => rfl⟩
      · exact .refl _
    · exact .refl s

theorem same_transfer (s : State) (slot : Slot) (index count : Nat) :
    Same s (transfer slot index count s) := by
  unfold transfer
  split
  · exact .refl s
  · rename_i op found
    split
    · refine (same_setOps s slot _ (keys_set _ index op
        { op with received := op.received ++ (s.wire op.socket).inbound.take (min count (wants op)) }
        found rfl)).trans ?_
      exact ⟨fun _ => rfl,fun _ => rfl,fun _ => rfl,fun _ => rfl,fun _ => rfl,fun _ => rfl⟩
    · exact .refl s

theorem same_cancelClient (s : State) (slot : Slot) (timeOut : TimeOut) :
    Same s (cancelClient slot timeOut s) := by
  apply (same_emit s (.expired timeOut) rfl).trans
  simp only [cancelClient]
  split
  · exact .refl _
  · exact (same_emit _ _ rfl).trans (same_cancelSocket _ _ _)

theorem same_runTimeOut (s : State) (slot : Slot) (index : Nat) :
    Same s (runTimeOut slot index s) := by
  unfold runTimeOut
  split
  · exact .refl s
  · rename_i timeOut error found
    apply (same_setTimer s slot (.take index)).trans
    cases timeOut with
    | connectTimeOut attempt ip port =>
      simp only [timeOutHandler,onHandleConnectTimeOut]
      split
      · exact .refl _
      · exact (same_cancelClient _ slot _).trans (same_emit _ _ rfl)
    | timeOut attempt =>
      simp only [timeOutHandler,onHandleTimeOut]
      split
      · exact .refl _
      · exact (same_cancelClient _ slot _).trans (same_emit _ _ rfl)

theorem same_answer (cfg : Config) (s : State) (socket : Nat) (response : List UInt8) :
    Same s (answer cfg socket response s) := by
  simp only [answer]
  split
  · exact .refl s
  · rename_i request rest waiting
    split
    · apply (same_emit s (.answered request response) rfl).trans
      exact ⟨fun _ => rfl,fun _ => rfl,fun _ => rfl,fun _ => rfl,fun _ => rfl,fun _ => rfl⟩
    · exact .refl s

theorem same_sweepPool (s : State) (now : Int) (error : Int → Nat → Bool) :
    Same s (sweepPool now error s) := by
  unfold sweepPool
  refine Same.trans ?_ (same_commit _ _ _)
  exact ⟨fun _ => rfl,fun _ => rfl,fun _ => rfl,fun _ => rfl,fun _ => rfl,fun _ => rfl⟩

theorem Balanced.quietData (valid : Balanced owed s) (slot : Slot) (data : ModuleData)
    (shut : data.socketEvent ≠ .opened) (idle : s.ops slot = [])
    (serial : (s.data slot).serial ≤ data.serial) : Balanced owed (s.setData slot data) where
  flagged other := by
    by_cases eq : other = slot
    · subst other
      exact ⟨fun opened => absurd (by simpa using opened) shut,fun _ => idle⟩
    · have old := valid.flagged other
      constructor
      · rw [setData_other _ _ _ _ eq]; exact old.opened
      · rw [setData_other _ _ _ _ eq]; exact old.quiet
  balance := valid.balance
  unborn a later := by
    apply valid.unborn a
    by_cases eq : a.slot = slot
    · rw [eq,setData_same] at later
      rw [eq]
      omega
    · rwa [setData_other _ _ _ _ eq] at later
  once := valid.once

theorem Balanced.taken (valid : Balanced none s) (slot : Slot) (op : Op)
    (only : s.ops slot = [op]) (attempt : op.task.attempt.slot = slot) :
    Balanced (some op.task.attempt) ((s.setOps slot []).setSocketEvent slot .closed) where
  flagged other := by
    by_cases eq : other = slot
    · subst other
      constructor <;> simp [State.setSocketEvent,State.setData]
    · have old := valid.flagged other
      constructor
      · simpa [State.setSocketEvent,eq,State.setData,State.setOps] using old.opened
      · simpa [State.setSocketEvent,eq,State.setData,State.setOps] using old.quiet
  balance a := by
    have old := valid.balance a
    have sum : outstanding s a =
        outstanding ((s.setOps slot []).setSocketEvent slot .closed) a + due (some op.task.attempt) a := by
      by_cases eq : a.slot = slot
      · by_cases same : op.task.attempt = a <;>
          simp [outstanding,due,State.setSocketEvent,State.setData,State.setOps,eq,only,same]
      · have differ : op.task.attempt ≠ a := by rintro rfl; exact eq attempt
        simp [outstanding,due,State.setSocketEvent,State.setData,State.setOps,eq,differ]
    simp only [due,reduceCtorEq,↓reduceIte,Nat.add_zero] at old
    change _ + resumes s a + _ = started s a
    omega
  unborn a later := by
    apply valid.unborn a
    by_cases eq : a.slot = slot
    · simpa [State.setSocketEvent,State.setData,State.setOps,eq] using later
    · simpa [State.setSocketEvent,State.setData,State.setOps,eq] using later
  once := valid.once

theorem Balanced.resume (valid : Balanced (some a) s) (state : ModState) :
    Balanced none (resume a state s) where
  flagged := fun slot => ⟨(valid.flagged slot).opened,(valid.flagged slot).quiet⟩
  balance b := by
    have old := valid.balance b
    have paid : resumes (TcpModule.resume a state s) b = resumes s b + due (some a) b := by
      by_cases same : a = b <;>
        simp [resumes,TcpModule.resume,State.emit,isResume,due,same]
    have kept : started (TcpModule.resume a state s) b = started s b := by
      simp [started,TcpModule.resume,State.emit,isAsync]
    rw [paid,kept]
    simp only [due,reduceCtorEq,↓reduceIte,Nat.add_zero] at old ⊢
    change outstanding s b + _ = _
    omega
  unborn b later := by simpa [started,TcpModule.resume,State.emit,isAsync] using valid.unborn b later
  once b := by simpa [started,TcpModule.resume,State.emit,isAsync] using valid.once b

theorem Balanced.start (valid : Balanced (some ⟨slot,(s.data slot).serial⟩) s) (stage : Stage)
    (shut : (s.data slot).socketEvent ≠ .opened) (held : (s.data slot).client ≠ none) :
    Balanced none (startOperation slot ⟨slot,(s.data slot).serial⟩ stage s) := by
  obtain ⟨c,client⟩ := Option.ne_none_iff_exists'.mp held
  have idle := (valid.flagged slot).quiet shut
  simp only [startOperation,client,idle,List.nil_append]
  constructor
  · intro other
    by_cases eq : other = slot
    · subst other
      constructor
      · intro _
        refine ⟨.start c ⟨⟨slot,(s.data slot).serial⟩,stage⟩,?_,?_,?_⟩ <;>
          simp [State.setSocketEvent,State.setData,State.setOps,client,Operation.start]
      · simp [State.setSocketEvent,State.setData]
    · have old := valid.flagged other
      constructor
      · simpa [State.setSocketEvent,State.setData,State.setOps,eq] using old.opened
      · simpa [State.setSocketEvent,State.setData,State.setOps,eq] using old.quiet
  · intro a
    have old := valid.balance a
    have paid : outstanding ((s.setOps slot [.start c ⟨⟨slot,(s.data slot).serial⟩,stage⟩]).setSocketEvent slot .opened) a =
        outstanding s a + due (some ⟨slot,(s.data slot).serial⟩) a := by
      by_cases eq : a.slot = slot
      · by_cases same : (⟨slot,(s.data slot).serial⟩ : Attempt) = a <;>
          simp [outstanding,due,State.setSocketEvent,State.setData,State.setOps,Operation.start,eq,idle,same]
      · have differ : (⟨slot,(s.data slot).serial⟩ : Attempt) ≠ a := by rintro rfl; exact eq rfl
        simp [outstanding,due,State.setSocketEvent,State.setData,State.setOps,eq,differ]
    rw [paid]
    change outstanding s a + _ + resumes s a + _ = started s a
    simp only [due,reduceCtorEq,↓reduceIte,Nat.add_zero] at old ⊢
    omega
  · intro a later
    apply valid.unborn a
    by_cases eq : a.slot = slot
    · simpa [State.setSocketEvent,State.setData,State.setOps,eq] using later
    · simpa [State.setSocketEvent,State.setData,State.setOps,eq] using later
  · exact valid.once

/-- The state in which a handler runs: its operation taken, its flag shut. -/
structure Handling (s : State) (a : Attempt) : Prop where
  balanced : Balanced (some a) s
  current : a = ⟨a.slot,(s.data a.slot).serial⟩
  shut : (s.data a.slot).socketEvent ≠ .opened

theorem Handling.same (handling : Handling s a) (same : Same s next) : Handling next a where
  balanced := handling.balanced.same same
  current := by rw [same.serial]; exact handling.current
  shut := by rw [same.event]; exact handling.shut

theorem Handling.start (handling : Handling s a) (stage : Stage)
    (held : (s.data a.slot).client ≠ none) : Balanced none (startOperation a.slot a stage s) := by
  have current := handling.current
  have balanced := handling.balanced
  rw [current] at balanced ⊢
  exact balanced.start stage handling.shut held

theorem same_closeClient (s : State) (slot : Slot) (a : Attempt) :
    Same s (closeClient slot a s) := by
  unfold closeClient
  split
  · exact same_emit _ _ rfl
  · exact same_commit _ _ _

theorem Handling.onReadHeadFailed (handling : Handling s a) :
    Balanced none (onReadHeadFailed a.slot a s) := by
  have closed := handling.same ((same_setTimer s a.slot .cancel).trans (same_closeClient _ a.slot a))
  exact (closed.balanced.same (same_emit _ _ rfl)).resume _

/-- `client_` is dropped only while no operation is outstanding. -/
theorem Handling.recollectClient (handling : Handling s a) (now : Int) :
    Balanced (some a) (recollectClient a.slot now s) := by
  let collected := recollect now (s.data a.slot).client s.pool ⟨s.clients,[]⟩
  have pooled : Same s { s with pool := collected.1 } :=
    ⟨fun _ => rfl,fun _ => rfl,fun _ => rfl,fun _ => rfl,fun _ => rfl,fun _ => rfl⟩
  have committed := handling.same (pooled.trans (same_commit _ (.slot a.slot)
    (((s.data a.slot).client.map (release · collected.2)).getD collected.2)))
  refine committed.balanced.quietData a.slot _ (by simpa using handling.shut) ?_ (le_refl _)
  exact (committed.balanced.flagged a.slot).quiet committed.shut

theorem handler_balanced (cfg : Config) (s : State) (op : Op) (error : ErrorCode)
    (replies : Replies) (valid : Balanced none s) (only : s.ops op.task.attempt.slot = [op])
    (opened : (s.data op.task.attempt.slot).socketEvent = .opened) :
    Balanced none (handler cfg op.task.attempt.slot op error replies
      (s.setOps op.task.attempt.slot [])) := by
  obtain ⟨found,same,attempt,client⟩ := (valid.flagged op.task.attempt.slot).opened opened
  obtain rfl : op = found := by simpa [only] using same
  set slot := op.task.attempt.slot with slotEq
  have flag : ((s.setOps slot []).data slot).socketEvent = .opened := opened
  have handling : Handling ((s.setOps slot []).setSocketEvent slot .closed) op.task.attempt :=
    ⟨valid.taken slot op only rfl,by
      simpa [State.setSocketEvent,State.setOps,← slotEq] using attempt,by
      simp [State.setSocketEvent,← slotEq]⟩
  have held : (((s.setOps slot []).setSocketEvent slot .closed).data slot).client ≠ none := by
    simp [State.setSocketEvent,State.setOps,client]
  have enter (body : State → State) : entered slot body (s.setOps slot []) =
      body ((s.setOps slot []).setSocketEvent slot .closed) := by simp [entered,flag]
  have cancelled (middle : State) (event : Event) (quiet : neutral event = true) :
      Same middle ((cancelTimeOutTimer slot middle).emit event) :=
    (same_setTimer middle slot .cancel).trans (same_emit _ event quiet)
  unfold handler
  cases stage : op.task.stage with
  | connect ip port =>
    simp only [onConnect,enter]
    cases error with
    | aborted => exact handling.balanced.resume _
    | failed => exact (handling.balanced.same (cancelled _ _ rfl)).resume _
    | success =>
      have armed (middle : State) : Same middle
          ((cancelTimeOutTimer slot middle).setTimer slot (.arm (.timeOut op.task.attempt))) :=
        (same_setTimer middle slot .cancel).trans (same_setTimer _ slot _)
      exact (handling.same (armed _)).start _ (by rw [(armed _).client]; exact held)
  | writeReq request =>
    simp only [onWriteReq,enter]
    cases error with
    | aborted => exact handling.balanced.resume _
    | failed => exact (handling.balanced.same (cancelled _ _ rfl)).resume _
    | success => exact handling.start _ held
  | respHead len =>
    simp only [onRecvRespHead,enter]
    cases error with
    | aborted => exact handling.balanced.resume _
    | failed => exact handling.onReadHeadFailed
    | success =>
      have read := handling.same (same_emit _ (.onReadHeadImpl op.task.attempt op.received) rfl)
      dsimp only
      split
      · exact read.start _ held
      · exact read.onReadHeadFailed
  | respBody len =>
    simp only [onRecvRespBody,enter]
    cases error with
    | aborted => exact handling.balanced.resume _
    | failed => exact (handling.balanced.same (cancelled _ _ rfl)).resume _
    | success =>
      have pooled := (handling.same (same_setTimer _ slot .cancel)).recollectClient replies.now
      exact (pooled.same (same_emit _ _ rfl)).resume _

theorem runHandler_balanced (cfg : Config) (s : State) (slot : Slot) (index : Nat)
    (replies : Replies) (valid : Balanced none s) : Balanced none (runHandler cfg slot index replies s) := by
  unfold runHandler
  split
  · exact valid
  · rename_i op found
    split
    · exact valid
    · rename_i error done
      by_cases opened : (s.data slot).socketEvent = .opened
      · obtain ⟨only,eq,attempt,_⟩ := (valid.flagged slot).opened opened
        rw [eq,List.getElem?_singleton,Option.ite_none_right_eq_some] at found
        obtain ⟨rfl,same⟩ := found
        obtain rfl : only = op := Option.some.inj same
        have own : only.task.attempt.slot = slot := by rw [attempt]
        subst own
        simpa [eq] using handler_balanced cfg s only error replies valid eq opened
      · have idle := (valid.flagged slot).quiet opened
        simp [idle] at found

/-- A started attempt is owed a continuation from its first operation on. -/
theorem Balanced.begin (valid : Balanced none s) (a : Attempt) (stage : Stage)
    (current : a = ⟨a.slot,(s.data a.slot).serial⟩) (new : started s a = 0)
    (shut : (s.data a.slot).socketEvent ≠ .opened) (held : (s.data a.slot).client ≠ none) :
    Balanced none ((startOperation a.slot a stage s).emit (.returned a modAsync)) := by
  have counted (b : Attempt) :
      started (s.emit (.returned a modAsync)) b = started s b + due (some a) b := by
    by_cases same : a = b <;> simp [started,State.emit,isAsync,due,same]
  have owed : Balanced (some a) (s.emit (.returned a modAsync)) := by
    refine ⟨fun slot => ⟨(valid.flagged slot).opened,(valid.flagged slot).quiet⟩,?_,?_,?_⟩
    · intro b
      have old := valid.balance b
      have kept : resumes (s.emit (.returned a modAsync)) b = resumes s b := by
        simp [resumes,State.emit,isResume]
      rw [counted,kept]
      simp only [due,reduceCtorEq,↓reduceIte,Nat.add_zero] at old
      change outstanding s b + _ + _ = _
      omega
    · intro b later
      have differ : some a ≠ some b := by
        rintro ⟨⟩
        rw [current] at later
        exact absurd later (lt_irrefl _)
      rw [counted,valid.unborn b later]
      simp [due,differ]
    · intro b
      have old := valid.once b
      rw [counted]
      by_cases same : a = b
      · subst same; simp [new,due]
      · simpa [due,same] using old
  have handling : Handling (s.emit (.returned a modAsync)) a := ⟨owed,current,shut⟩
  have commutes : (startOperation a.slot a stage s).emit (.returned a modAsync) =
      startOperation a.slot a stage (s.emit (.returned a modAsync)) := by
    obtain ⟨c,client⟩ := Option.ne_none_iff_exists'.mp held
    simp [startOperation,State.emit,State.setSocketEvent,State.setData,State.setOps,client]
  rw [commutes]
  exact handling.start stage held

theorem takeClient_balanced (s : State) (slot : Slot) (args : RunArgs) (valid : Balanced none s)
    (idle : s.ops slot = []) : Balanced none (takeClient slot args s) := by
  have shut : (s.data slot).socketEvent ≠ .opened := by
    intro opened
    obtain ⟨op,only,_⟩ := (valid.flagged slot).opened opened
    simp [idle] at only
  let found := getClient args.error args.clientTypeId s.pool ⟨s.clients,[]⟩
  have pooled : Same s { s with pool := found.2.1 } :=
    ⟨fun _ => rfl,fun _ => rfl,fun _ => rfl,fun _ => rfl,fun _ => rfl,fun _ => rfl⟩
  have committed := valid.same (pooled.trans (same_commit _ (.slot slot)
    (((s.data slot).client.map (release · found.2.2)).getD found.2.2)))
  refine committed.quietData slot _ (by simpa using shut) ?_ (le_refl _)
  simp [commit_ops,idle]

/-- What `run` finds once it has counted itself and taken a client from the pool. -/
structure Starting (s : State) (a : Attempt) : Prop where
  balanced : Balanced none s
  current : a = ⟨a.slot,(s.data a.slot).serial⟩
  new : started s a = 0
  shut : (s.data a.slot).socketEvent ≠ .opened

theorem Starting.same (starting : Starting s a) (same : Same s next) : Starting next a where
  balanced := starting.balanced.same same
  current := by rw [same.serial]; exact starting.current
  new := by rw [same.started]; exact starting.new
  shut := by rw [same.event]; exact starting.shut

theorem Starting.begin (starting : Starting s a) (stage : Stage)
    (held : (s.data a.slot).client ≠ none) :
    Balanced none ((startOperation a.slot a stage s).emit (.returned a modAsync)) :=
  starting.balanced.begin a stage starting.current starting.new starting.shut held

theorem Starting.openConnection (starting : Starting s a) (ip : String) (port : UInt16)
    (args : RunArgs) : Balanced none (openConnection a.slot a ip port args s) := by
  have failed : neutral (.returned a modFailed) = true := rfl
  have armed := starting.same (same_setTimer s a.slot (.arm (.connectTimeOut a ip port)))
  have created : Starting ({ s.setTimer a.slot (.arm (.connectTimeOut a ip port)) with
      clients := Function.update s.clients s.fresh ⟨0,args.clientTypeId,false,args.now,1⟩
      wire := Function.update s.wire s.fresh ⟨[],[]⟩
      fresh := s.fresh + 1 }.setClient a.slot (some s.fresh)) a := by
    have idle := (armed.balanced.flagged a.slot).quiet armed.shut
    have stored : Balanced none { s.setTimer a.slot (.arm (.connectTimeOut a ip port)) with
        clients := Function.update s.clients s.fresh ⟨0,args.clientTypeId,false,args.now,1⟩
        wire := Function.update s.wire s.fresh ⟨[],[]⟩
        fresh := s.fresh + 1 } := armed.balanced.same
      ⟨fun _ => rfl,fun _ => rfl,fun _ => rfl,fun _ => rfl,fun _ => rfl,fun _ => rfl⟩
    refine ⟨stored.quietData a.slot _ armed.shut idle (le_refl _),?_,armed.new,?_⟩
    · simpa [State.setClient] using armed.current
    · simpa [State.setClient] using armed.shut
  simp only [TcpModule.openConnection]
  split
  · exact starting.balanced.same (same_emit s _ failed)
  · exact starting.balanced.same (same_emit s _ failed)
  · exact starting.balanced.same ((same_setTimer s a.slot _).trans (same_emit _ _ failed))
  · exact armed.balanced.same (same_emit _ _ failed)
  · exact created.balanced.same (same_emit _ _ failed)
  · exact created.begin _ (by simp [State.setClient])

theorem run_balanced (s : State) (slot : Slot) (args : RunArgs) (valid : Balanced none s)
    (idle : s.ops slot = []) : Balanced none (run slot args s) := by
  have shut : (s.data slot).socketEvent ≠ .opened := by
    intro opened
    obtain ⟨op,only,_⟩ := (valid.flagged slot).opened opened
    simp [idle] at only
  have counted := valid.quietData slot { s.data slot with serial := (s.data slot).serial + 1 }
    shut idle (Nat.le_succ _)
  have new : started s ⟨slot,(s.data slot).serial + 1⟩ = 0 := valid.unborn _ (Nat.lt_succ_self _)
  unfold run
  set entered := s.setData slot { s.data slot with serial := (s.data slot).serial + 1 } with enteredEq
  dsimp only
  split
  · exact counted.same (same_emit _ _ rfl)
  · have taken := takeClient_balanced entered slot args counted idle
    have starting : Starting (takeClient slot args entered) ⟨slot,(s.data slot).serial + 1⟩ := by
      refine ⟨taken,?_,?_,?_⟩
      · simp [takeClient,State.setClient,enteredEq]
      · simpa [takeClient,State.setClient,State.setData,started,enteredEq] using new
      · simpa [takeClient,State.setClient,enteredEq] using shut
    split
    · rename_i c client
      have armed := same_setTimer (takeClient slot args entered) slot (.arm (.timeOut ⟨slot,(s.data slot).serial + 1⟩))
      exact (starting.same armed).begin _ (by rw [armed.client]; simp [client])
    · split
      · exact taken.same (same_emit _ _ rfl)
      · exact starting.openConnection _ _ args

theorem step_balanced (cfg : Config) (s : State) (a : Action) (sequential : Sequential s a)
    (valid : Balanced none s) : Balanced none (step cfg s a) := by
  cases a with
  | answer socket response => exact valid.same (same_answer cfg s socket response)
  | checkClients now error => exact valid.same (same_sweepPool s now error)
  | on slot action =>
    cases action with
    | run args => exact run_balanced s slot args valid sequential
    | complete index code => exact valid.same (same_complete s slot index code)
    | transfer index count => exact valid.same (same_transfer s slot index count)
    | handler index replies => exact runHandler_balanced cfg s slot index replies valid
    | expire => exact valid.same (same_setTimer s slot _)
    | timeOutHandler index => exact valid.same (same_runTimeOut s slot index)

/-- An attempt that returned `Mod_async` has one outstanding operation or one resume, and
`socket_event_` tells whether there is an operation. -/
structure ContinuedOnce (s : State) (a : Attempt) : Prop where
  once : .returned a modAsync ∈ s.log → outstanding s a + resumes s a = 1
  opened : (s.data a.slot).socketEvent = .opened ↔ s.ops a.slot ≠ []

theorem Balanced.continuedOnce (valid : Balanced none s) (a : Attempt) : ContinuedOnce s a where
  once returned := by
    have positive : 0 < started s a := List.countP_pos_iff.mpr ⟨_,returned,by simp [isAsync]⟩
    have once := valid.once a
    have balance := valid.balance a
    simp only [due,reduceCtorEq,↓reduceIte,Nat.add_zero] at balance
    omega
  opened := by
    constructor
    · intro opened
      obtain ⟨op,only,_⟩ := (valid.flagged a.slot).opened opened
      simp [only]
    · intro busy
      by_contra shut
      exact busy ((valid.flagged a.slot).quiet shut)

/-- In every state of every run in which no two branches share a TcpModule, each attempt
is continued once. -/
theorem attempt_continued_once (cfg : Config) (maxTimes : Int32) (checkTime : Int) (schedule : List Action)
    (sequential : Along (step cfg) Sequential (initial maxTimes checkTime) schedule) (a : Attempt) :
    ContinuedOnce (execute (step cfg) (initial maxTimes checkTime) schedule) a :=
  (along_invariant (step_balanced cfg) (initial_balanced maxTimes checkTime) schedule sequential).continuedOnce a

def connecting : Action := .on ⟨0,0⟩ (.run ⟨0,fun _ => false,some ("10.0.0.1",80),none,[1],0⟩)

theorem connect_continued_once :
    ContinuedOnce (execute (step ⟨fun _ => 1,fun _ _ => 1⟩) (initial 0 0) [connecting,.on ⟨0,0⟩ (.complete 0 .success)])
      ⟨⟨0,0⟩,1⟩ :=
  attempt_continued_once ⟨fun _ => 1,fun _ _ => 1⟩ 0 0 [connecting,.on ⟨0,0⟩ (.complete 0 .success)]
    ⟨rfl,trivial,trivial⟩ _

/-- Two branches of a fork run the module. The connect of the first has failed when the
second runs, and its handler takes the event of the second. -/
def sharedConnect : List Action :=
  [connecting,.on ⟨0,0⟩ (.complete 0 .failed),connecting,.on ⟨0,0⟩ (.handler 0 ⟨[1],true,true,0⟩),
    .on ⟨0,0⟩ (.complete 0 .success),.on ⟨0,0⟩ (.handler 0 ⟨[1],true,true,0⟩)]

/-- The second attempt has neither an operation nor a resume. -/
theorem shared_connect_lost :
    let s := execute (step ⟨fun _ => 1,fun _ _ => 1⟩) (initial 0 0) sharedConnect
    .returned ⟨⟨0,0⟩,2⟩ modAsync ∈ s.log ∧ ¬ ContinuedOnce s ⟨⟨0,0⟩,2⟩ := by
  refine ⟨by decide,?_⟩
  intro continued
  exact absurd (continued.once (by decide)) (by decide)

end Zerver.TcpModule.Control
