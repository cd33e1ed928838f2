import Zerver.FsmConnection

/-! Where the Fsm goes once a request has been rejected. The handlers of the RequestModule
end the connection; whether the same context reads once more is a matter of the links that
lead on from the state they resume with. -/
namespace Zerver.FsmConnection

open Zerver.Asio Zerver.Fsm Zerver.Schedule
open Zerver.ClientConnection (Op Task Event isRead illegalHead rejects resumes)

/-- The states that a module may give to the Fsm. -/
def Produces (cfg : Config) (mod : Module) (state : ModState) : Prop :=
  match cfg.kind mod with
  | .request => state = modFailed ∨ state = modTimeout ∨ ∃ read, state = cfg.getSucceedState mod read
  | .response => state = modSucceed ∨ state = modFailed ∨ state = modTimeout
  | .other => True

/-- Those it may go on with as long as no response has been written, or whether one has. -/
def Passes (cfg : Config) (written : Bool) (mod : Module) (state : ModState) : Prop :=
  Produces cfg mod state ∧ (written = false → cfg.kind mod = .response → state ≠ modSucceed)

/-- From a module with its state, the links lead to a RequestModule. -/
inductive Reaches (cfg : Config) (fsm : Fsm) (written : Bool) : Module → ModState → Prop where
  | here : mod ≠ fsm.endMod → fsm.route mod state = some next → cfg.kind next = .request →
      Reaches cfg fsm written mod state
  | through : mod ≠ fsm.endMod → fsm.route mod state = some next → cfg.kind next ≠ .request →
      Passes cfg written next state' → Reaches cfg fsm written next state' → Reaches cfg fsm written mod state

section Reach

variable {cfg : Config} {fsm : Fsm} {written : Bool}

/-- No RequestModule is run in this context from here. -/
def Unreached (cfg : Config) (fsm : Fsm) (written : Bool) : Control → Prop
  | .calling (.handleRequest _) => False
  | .calling (.run mod _ _) =>
    cfg.kind mod ≠ .request ∧ ∀ state, Passes cfg written mod state → ¬Reaches cfg fsm written mod state
  | .calling (.resume mod state _) => ¬Reaches cfg fsm written mod state
  | .waiting mod _ => ∀ state, Passes cfg written mod state → ¬Reaches cfg fsm written mod state
  | .calling (.endRequest _) | .stopped | .crashed => True

structure Same (s next : State) : Prop where
  table : Extends s.fsm next.fsm
  context : next.conn.context = s.conn.context
  exits : s.conn.exits s.conn.context = true → next.conn.exits s.conn.context = true

theorem Continued.unreached (continued : Continued s mod state s.conn.context next) (table : Extends fsm s.fsm)
    (unreached : ¬Reaches cfg fsm written mod state) : Unreached cfg fsm written next.control ∧ Same s next := by
  cases continued with
  | atEnd atEnd => exact ⟨trivial,.refl _,rfl,id⟩
  | linked inner route =>
    rename_i after
    rw [table.endMod] at inner
    rw [table.route] at route
    have other : cfg.kind after ≠ .request := fun kind => unreached (.here inner route kind)
    exact ⟨⟨other,fun state' passed reaches => unreached (.through inner route other passed reaches)⟩,.refl _,rfl,id⟩
  | unlinked extended => exact ⟨trivial,extended,rfl,fun _ => Function.update_self ..⟩

theorem Move.produces (move : Move cfg s a next) (aligned : Aligned cfg s)
    (waiting : s.control = .waiting mod context) (resumed : next.control = .calling (.resume mod state context)) :
    Produces cfg mod state := by
  cases move with
  | stay quiet => simp [waiting] at resumed
  | io outer => simp [waiting] at resumed
  | exited => simp [waiting] at resumed
  | reads control busy done handling inbound same serial reading => simp [waiting] at resumed
  | handled control busy done handling inbound same serial idle log =>
    rename_i mod' _ op error ok conn before state'
    obtain ⟨rfl,rfl⟩ := Control.waiting.inj (control.symm.trans waiting)
    obtain ⟨_,rfl,_⟩ := Call.resume.inj (Control.calling.inj resumed)
    obtain ⟨_,here,kind,_⟩ := aligned.owner op busy
    obtain ⟨rfl,_⟩ := Control.waiting.inj (control.symm.trans here)
    have last {more : List Event} {other : ModState}
        (ends : conn.log = more ++ [.resumed op.task.attempt other]) : state' = other := by
      have same := (List.append_inj' (log.symm.trans ends) rfl).2
      simpa using same
    unfold Produces
    rw [kind]
    cases handling with
    | ended hooks state cause failing none flags ends silent =>
      rw [last ends]
      cases isRead op.task.stage with
      | true => exact cause.imp_right .inl
      | false => exact .inr cause
    | requestRead stage fine none flags ends =>
      rw [last ends]
      simp only [stage,isRead]
      exact .inr (.inr ⟨_,rfl⟩)
    | written stage fine none flags ends =>
      rw [last ends]
      simp [stage,isRead]
    | headRead stage fine started flags ends => simp [idle] at started
    | bodyRead stage fine started flags ends => simp [idle] at started
  | resumed control kind =>
    obtain ⟨rfl,rfl⟩ := Control.waiting.inj (control.symm.trans waiting)
    simp [Produces,kind]
  | renewed control | requested control | responded control | unanswered control | deferred control
  | returned control | continued control | finished control | crashed control | ended control =>
    rw [control] at waiting
    cases waiting

theorem Passes.other (kind : cfg.kind mod = .other) (state : ModState) : Passes cfg written mod state :=
  ⟨by simp [Produces,kind],by simp [kind]⟩

theorem Passes.null (kind : cfg.kind mod = .response) : Passes cfg written mod modFailed :=
  ⟨by simp [Produces,kind],fun _ _ => by decide⟩

theorem Move.entered (move : Move cfg s a next) (waiting : next.control = .waiting mod context) :
    s.control = .waiting mod context ∨ ∃ lastModState, s.control = .calling (.run mod context lastModState) := by
  have going {before : State} {mod' : Module} {state : ModState} {context' : Nat}
      (continued : Continued before mod' state context' next) : False := by
    cases continued <;> simp at waiting
  cases move with
  | stay quiet => exact .inl waiting
  | io outer => exact .inl waiting
  | exited => exact .inl waiting
  | reads control busy done handling inbound same serial reading => exact .inl waiting
  | requested control kind | responded control kind resp | deferred control kind =>
    obtain ⟨rfl,rfl⟩ := Control.waiting.inj waiting
    exact .inr ⟨_,control⟩
  | unanswered control kind resp continued => exact (going continued).elim
  | returned control kind continued => exact (going continued).elim
  | continued control continued => exact (going continued).elim
  | renewed control | finished control | crashed control | ended control
  | handled control busy done handling inbound same serial idle log | resumed control =>
    cases waiting

theorem Same.refl (s : State) : Same s s := ⟨.refl _,rfl,id⟩

/-- As long as the context does not end without `exit()`, nor goes on from a written
response that does not count, no RequestModule is run in it. -/
theorem Move.unreached (move : Move cfg s a next) (aligned : Aligned cfg s) (table : Extends fsm s.fsm)
    (ends : ∀ choice context, a = .call choice → s.control = .calling (.endRequest context) →
      s.conn.exits context = true)
    (counts : written = false → ∀ mod context, s.control = .waiting mod context → cfg.kind mod = .response →
      next.control ≠ .calling (.resume mod modSucceed context))
    (unreached : Unreached cfg fsm written s.control) : Unreached cfg fsm written next.control ∧ Same s next := by
  have resumes (mod : Module) (context : Nat) (state : ModState) (waiting : s.control = .waiting mod context)
      (resumed : next.control = .calling (.resume mod state context)) : ¬Reaches cfg fsm written mod state := by
    rw [waiting] at unreached
    refine unreached state ⟨move.produces aligned waiting resumed,fun off kind same => ?_⟩
    exact counts off mod context waiting kind (same ▸ resumed)
  cases move with
  | stay quiet => exact ⟨unreached,.refl s⟩
  | io outer =>
    have kept := io_kept s.conn _ outer
    exact ⟨unreached,.refl _,kept.context,fun exits => kept.exits ▸ exits⟩
  | exited => exact ⟨unreached,.refl _,rfl,fun _ => Function.update_self ..⟩
  | renewed control =>
    rw [control] at unreached
    exact unreached.elim
  | requested control kind =>
    rw [control] at unreached
    exact absurd kind unreached.1
  | responded control kind resp =>
    rw [control] at unreached
    exact ⟨unreached.2,.refl _,rfl,id⟩
  | unanswered control kind resp continued =>
    have here := aligned.here control
    subst here
    rw [control] at unreached
    obtain ⟨later,same⟩ := continued.unreached table (unreached.2 _ (.null kind))
    exact ⟨later,same.table,same.context,same.exits⟩
  | deferred control kind =>
    rw [control] at unreached
    exact ⟨unreached.2,.refl _,rfl,id⟩
  | returned control kind continued =>
    have here := aligned.here control
    subst here
    rw [control] at unreached
    obtain ⟨later,same⟩ := continued.unreached table (unreached.2 _ (.other kind _))
    exact ⟨later,same.table,same.context,same.exits⟩
  | continued control continued =>
    have here := aligned.here control
    subst here
    rw [control] at unreached
    exact continued.unreached table unreached
  | finished control flag =>
    have here := aligned.here control
    subst here
    obtain ⟨_,_,_,_,count⟩ := endRequest_fields s.conn
    rw [if_pos flag] at count
    exact ⟨trivial,.refl _,count,id⟩
  | crashed control stays =>
    rw [ends _ _ rfl control] at stays
    contradiction
  | ended control stays =>
    rw [ends _ _ rfl control] at stays
    contradiction
  | reads control busy done handling inbound context serial reading =>
    refine ⟨unreached,.refl _,context,fun exits => ?_⟩
    cases handling with
    | headRead stage fine started flags log => exact flags ▸ exits
    | bodyRead stage fine started flags log => exact flags ▸ exits
    | ended hooks state cause failing none flags log silent => exact absurd none reading
    | requestRead stage fine none flags log => exact absurd none reading
    | written stage fine none flags log => exact absurd none reading
  | handled control busy done handling inbound context serial idle log =>
    refine ⟨resumes _ _ _ control rfl,.refl _,context,fun exits => ?_⟩
    obtain ⟨_,_,_,attempt⟩ := aligned.owner _ busy
    cases handling with
    | ended hooks state cause failing none flags ends silent =>
      rw [flags,attempt]
      exact Function.update_self ..
    | requestRead stage fine none flags ends => exact flags ▸ exits
    | written stage fine none flags ends => exact flags ▸ exits
    | headRead stage fine started flags ends => simp [idle] at started
    | bodyRead stage fine started flags ends => simp [idle] at started
  | resumed control kind => exact ⟨resumes _ _ _ control rfl,.refl _,rfl,id⟩

end Reach

section Resumes

variable {cfg : Config}

theorem turn_exits {conn next : ClientConnection.State} (turn : ClientConnection.Turn conn next) (exits : Nat → Bool) :
    ClientConnection.Turn conn { next with exits := exits } := by
  cases turn with
  | quiet hooks serials task log silent => exact .quiet hooks serials task log silent
  | entered attempt hooks idle serial serials started log silent =>
    exact .entered attempt hooks idle serial serials started log silent
  | continued op busy serials continued =>
    refine .continued op busy serials ?_
    cases continued with
    | resumed hooks state idle log none => exact .resumed hooks state idle log none
    | reads stage hooks was read started log none => exact .reads stage hooks was read started log none

theorem run_turn (s : State) (choice : Choice) (mod : Module) (context : Nat) (idle : s.conn.op = none) :
    ClientConnection.Turn s.conn (run cfg choice mod context s).conn := by
  have after (s : State) (state : ModState) : ∃ exits, (s.afterRun mod state context).conn = { s.conn with exits := exits } := by
    unfold State.afterRun
    split
    · exact ⟨_,rfl⟩
    · exact ⟨_,rfl⟩
  unfold run
  split
  · exact ClientConnection.runRequest_turn s.conn mod.id _ idle
  · obtain ⟨exits,same⟩ := after { s with conn := ClientConnection.runResponse mod.id choice.resp s.conn }
      (if choice.resp.isNone then modFailed else modAsync)
    rw [same]
    exact turn_exits (ClientConnection.runResponse_turn s.conn mod.id choice.resp idle) exits
  · obtain ⟨exits,same⟩ := after s choice.state
    rw [same]
    exact turn_exits (.stay s.conn) exits

theorem step_turn (s : State) (a : Action) (aligned : Aligned cfg s) :
    ClientConnection.Turn s.conn (step cfg s a).conn := by
  cases a with
  | call choice =>
    simp only [step,call]
    split
    · exact turn_exits (.stay s.conn) _
    · rename_i mod context lastModState control
      exact run_turn s choice mod context (aligned.idle control)
    · exact turn_exits (.stay s.conn) _
    · obtain ⟨op,_,data,log,_⟩ := endRequest_fields s.conn
      refine turn_exits (.quiet [.endRequest s.conn.context] (fun slot => ?_) ?_ log fun _ => rfl) _
      · rw [data]
      · rw [op]
    · exact .stay s.conn
  | handler ok =>
    simp only [step,handler]
    split
    · rename_i mod context op control busy
      split
      · exact .stay s.conn
      · rename_i error done
        have turn := ClientConnection.handler_turn s.conn op error (replies cfg ok mod s op) busy
        split
        · exact turn
        · exact turn
    · exact .stay s.conn
  | resume state =>
    simp only [step,resume]
    split
    · split <;> exact .stay s.conn
    · exact .stay s.conn
  | exit => exact .quiet [.exited s.conn.context] (fun _ => rfl) rfl rfl fun _ => rfl
  | io a =>
    simp only [step]
    split
    · exact ClientConnection.step_turn s.conn a
    · exact .stay s.conn

end Resumes

/-- The rejection of the request whose read `op` is handled in `s`, seen after more of the
run: `exit()` and then the only resume, with the state of its cause, and no read is
outstanding on the connection any more. -/
structure EndsConnection (cfg : Config) (s : State) (op : Op) (error : ErrorCode) (ok : Bool) (later : List Action) :
    Prop where
  exits : ∃ hooks, (step cfg s (.handler ok)).conn.log = s.conn.log ++ hooks ++
    [.exited op.task.attempt.slot.context,
      .resumed op.task.attempt (if error = .aborted then modTimeout else modFailed)]
  single : resumes op.task.attempt (execute (step cfg) s (.handler ok :: later)).conn.log = 1
  silent : ∀ next, (execute (step cfg) s (.handler ok :: later)).conn.op = some next → isRead next.task.stage = false

section Ends

variable {cfg : Config} {fsm : Fsm} {s : State} {mod : Module} {op : Op} {error : ErrorCode} {ok : Bool}

/-- The connection is past its last read. -/
structure Past (cfg : Config) (fsm : Fsm) (context : Nat) (s : State) : Prop where
  aligned : Aligned cfg s
  table : Extends fsm s.fsm
  here : s.conn.context = context
  exits : s.conn.exits context = true
  unreached : Unreached cfg fsm true s.control
  other : ∀ mod, s.control = .waiting mod context → cfg.kind mod ≠ .request

theorem Past.silent (past : Past cfg fsm context s) (op : Op) (busy : s.conn.op = some op) :
    isRead op.task.stage = false := by
  obtain ⟨mod,waiting,kind,_⟩ := past.aligned.owner op busy
  have unlike := past.other mod (past.here ▸ waiting)
  cases read : isRead op.task.stage with
  | false => rfl
  | true =>
    rw [read] at kind
    exact absurd kind unlike

theorem step_past (past : Past cfg fsm context s) (a : Action) : Past cfg fsm context (step cfg s a) := by
  have move := step_moves cfg s a
  have ends (choice : Choice) (other : Nat) (_ : a = .call choice) (control : s.control = .calling (.endRequest other)) :
      s.conn.exits other = true := by
    obtain rfl : other = s.conn.context := past.aligned.here control
    rw [past.here]
    exact past.exits
  obtain ⟨unreached,same⟩ := move.unreached past.aligned past.table ends (by simp) past.unreached
  have here := past.here
  subst here
  refine ⟨move.aligned past.aligned,past.table.trans same.table,same.context,same.exits past.exits,unreached,?_⟩
  intro mod waiting kind
  rcases move.entered waiting with already | ⟨lastModState,running⟩
  · exact past.other mod already kind
  · have unreached := past.unreached
    rw [running] at unreached
    exact unreached.1 kind

theorem Continued.table (continued : Continued s mod state context next) : Extends s.fsm next.fsm := by
  cases continued with
  | atEnd atEnd => exact .refl _
  | linked inner route => exact .refl _
  | unlinked extended => exact extended

theorem Move.table (move : Move cfg s a next) : Extends s.fsm next.fsm := by
  cases move with
  | unanswered control kind resp continued => exact continued.table
  | returned control kind continued => exact continued.table
  | continued control continued => exact continued.table
  | _ => exact .refl _

structure Reached (cfg : Config) (fsm : Fsm) (s : State) : Prop where
  aligned : Aligned cfg s
  once : ClientConnection.Once s.conn
  table : Extends fsm s.fsm

theorem step_reached (s : State) (a : Action) (reached : Reached cfg fsm s) : Reached cfg fsm (step cfg s a) :=
  ⟨(step_moves cfg s a).aligned reached.aligned,(step_turn s a reached.aligned).once reached.once,
    reached.table.trans (step_moves cfg s a).table⟩

theorem run_reached (cfg : Config) (fsm : Fsm) (schedule : List Action) :
    Reached cfg fsm (execute (step cfg) (initial fsm) schedule) :=
  execute_invariant step_reached ⟨initial_aligned cfg fsm,ClientConnection.initial_once,.refl fsm⟩ schedule

theorem handler_rejected (waiting : s.control = .waiting mod context) (busy : s.conn.op = some op)
    (done : op.result = some error) (rejected : rejects op error (replies cfg ok mod s op) = true)
    (legal : illegalHead op error (replies cfg ok mod s op) = false) :
    let state := if error = .aborted then modTimeout else modFailed
    let next := step cfg s (.handler ok)
    next.control = .calling (.resume mod state context) ∧ next.conn.exits op.task.attempt.slot.context = true ∧
      next.conn.context = s.conn.context ∧
      ∃ hooks, next.conn.log = s.conn.log ++ hooks ++
        [.exited op.task.attempt.slot.context,.resumed op.task.attempt state] := by
  intro state next
  obtain ⟨_,exits,hooks,log⟩ := ClientConnection.rejected_exits { s.conn with op := none } op error
    (replies cfg ok mod s op) rfl rejected legal
  have frame := handler_frame { s.conn with op := none } op error (replies cfg ok mod s op)
  have last : (ClientConnection.handler op error (replies cfg ok mod s op) { s.conn with op := none }).log.getLast? =
      some (.resumed op.task.attempt state) := by
    rw [log]
    simp [state]
  have goes : next = { s with
      conn := ClientConnection.handler op error (replies cfg ok mod s op) { s.conn with op := none }
      control := .calling (.resume mod state context) } := by
    simp only [next,step,handler,waiting,busy,done,last]
  rw [goes]
  exact ⟨rfl,exits,frame.2,hooks,log⟩

theorem handler_illegal (waiting : s.control = .waiting mod context) (busy : s.conn.op = some op)
    (done : op.result = some error) (illegal : illegalHead op error (replies cfg ok mod s op) = true) :
    (step cfg s (.handler ok)).conn.op = some (.start 0 ⟨op.task.attempt,.body ClientConnection.illegalLen⟩) := by
  have reads := ClientConnection.illegalHead_reads { s.conn with op := none } op error (replies cfg ok mod s op) illegal
  simp only [step,handler,waiting,busy,done]
  split <;> exact reads

theorem Past.begun (reached : Reached cfg fsm s) (waiting : s.control = .waiting mod context)
    (busy : s.conn.op = some op) (done : op.result = some error)
    (rejected : rejects op error (replies cfg ok mod s op) = true)
    (legal : illegalHead op error (replies cfg ok mod s op) = false)
    (unreached : ¬Reaches cfg fsm true mod (if error = .aborted then modTimeout else modFailed)) :
    Past cfg fsm op.task.attempt.slot.context (step cfg s (.handler ok)) := by
  obtain ⟨control,exits,here,_⟩ := handler_rejected waiting busy done rejected legal
  obtain ⟨_,_,_,attempt⟩ := reached.aligned.owner op busy
  have next := step_reached s (.handler ok) reached
  refine ⟨next.aligned,next.table,?_,exits,?_,?_⟩
  · rw [here,attempt]
  · rw [control]
    exact unreached
  · intro other running
    rw [control] at running
    cases running

theorem resume_linked (cfg : Config) (choice : Choice) (control : s.control = .calling (.resume mod state context))
    (inner : mod ≠ s.fsm.endMod) (route : s.fsm.route mod state = some next) :
    step cfg s (.call choice) = { s with control := .calling (.run next context state) } := by
  have continued := s.world.resume_continued mod state context
  simp only [step,call,control]
  generalize s.world.resume mod state context = outcome at continued ⊢
  cases continued with
  | atEnd atEnd => exact absurd atEnd inner
  | linked _ route' =>
    obtain rfl := Option.some.inj (route.symm.trans route')
    rfl
  | unlinked table _ unrouted _ => exact absurd (route.symm.trans unrouted) (by simp)

def written : ErrorCode → ModState
  | .success => modSucceed
  | .aborted => modTimeout
  | .failed => modFailed

theorem response_handled (ok : Bool) (waiting : s.control = .waiting mod context) (busy : s.conn.op = some op)
    (done : op.result = some error) (stage : op.task.stage = .resp bytes) :
    let next := step cfg s (.handler ok)
    next.fsm = s.fsm ∧ next.control = .calling (.resume mod (written error) context) := by
  cases error with
  | success =>
    simp [step,handler,waiting,busy,done,ClientConnection.handler,stage,ClientConnection.onWriteResp,
      ClientConnection.resume,ClientConnection.State.emit,written]
  | aborted =>
    simp [step,handler,waiting,busy,done,ClientConnection.handler,stage,ClientConnection.onWriteResp,
      ClientConnection.timedOut_log,written]
  | failed =>
    simp [step,handler,waiting,busy,done,ClientConnection.handler,stage,ClientConnection.onWriteResp,
      ClientConnection.failed_log,written]

/-- A ResponseModule that is run may go on with each of its states. -/
theorem respond_schedule (control : s.control = .calling (.run mod context lastModState))
    (kind : cfg.kind mod = .response) (error : ErrorCode) :
    ∃ later, let next := execute (step cfg) s later
      next.fsm = s.fsm ∧ next.control = .calling (.resume mod (written error) context) := by
  let slot : Slot := ⟨s.conn.context,mod.id⟩
  let attempt : Attempt := ⟨slot,(s.conn.data slot).serial + 1⟩
  let running := step cfg s (.call ⟨some [],modAsync⟩)
  have waiting : running.control = .waiting mod context := by
    simp [running,step,call,control,run,kind,State.afterRun]
  have table : running.fsm = s.fsm := by
    simp [running,step,call,control,run,kind,State.afterRun]
  have conn : running.conn = ClientConnection.runResponse mod.id (some []) s.conn := by
    simp [running,step,call,control,run,kind,State.afterRun]
  have busy : running.conn.op = some (.start 0 ⟨attempt,.resp []⟩) := by
    rw [conn]
    rfl
  have ends (ios : List Action) (op : Op) (same : (execute (step cfg) running ios).control = running.control ∧
      (execute (step cfg) running ios).fsm = running.fsm)
      (operating : (execute (step cfg) running ios).conn.op = some op) (done : op.result = some error)
      (stage : op.task.stage = .resp []) :
      ∃ later, let next := execute (step cfg) s later
        next.fsm = s.fsm ∧ next.control = .calling (.resume mod (written error) context) := by
    refine ⟨.call ⟨some [],modAsync⟩ :: (ios ++ [.handler true]),?_⟩
    rw [execute_cons,execute_append]
    obtain ⟨fsm,resumed⟩ := response_handled true (same.1.trans waiting) operating done stage
    exact ⟨fsm.trans (same.2.trans table),resumed⟩
  cases error with
  | success =>
    refine ends [.io (.complete .success)] (Operation.complete .success (.start 0 ⟨attempt,.resp []⟩)) ⟨rfl,rfl⟩ ?_ rfl rfl
    simp [execute_cons,step,external,ClientConnection.step,ClientConnection.complete,busy,Operation.start,
      ClientConnection.mayComplete]
  | failed =>
    refine ends [.io (.complete .failed)] (Operation.complete .failed (.start 0 ⟨attempt,.resp []⟩)) ⟨rfl,rfl⟩ ?_ rfl rfl
    simp [execute_cons,step,external,ClientConnection.step,ClientConnection.complete,busy,Operation.start,
      ClientConnection.mayComplete]
  | aborted =>
    -- The write times out: its wait expires last, and the handler cancels it.
    let last := (running.conn.data slot).timer.queued.length
    have armed : (running.conn.data slot).timer.waiting = [.writeTimeOut attempt] := by
      rw [conn]
      simp [ClientConnection.runResponse,ClientConnection.called,ClientConnection.State.setTimer,
        ClientConnection.State.start,ClientConnection.State.emit,slot,attempt]
    have found : ((running.conn.setTimer slot .expire).data slot).timer.queued[last]? =
        some (.writeTimeOut attempt,.success) := by
      simp [ClientConnection.State.setTimer,armed,last]
    refine ends [.io (.expire slot),.io (.timeOutHandler slot last)]
      (Operation.cancel 0 (.writeTimeOut attempt) (.start 0 ⟨attempt,.resp []⟩)) ⟨rfl,rfl⟩ ?_ rfl rfl
    simp only [execute_cons,execute_nil,step,external,↓reduceIte,ClientConnection.step,ClientConnection.runTimeOut,found,
      ClientConnection.timeOutHandler,ClientConnection.onWriteTimeOut]
    simp [ClientConnection.cancelSocket,ClientConnection.State.emit,ClientConnection.State.setTimer,busy]

/-- What the links allow happens: the modules between answer so, and a read is started. -/
theorem Reaches.schedule (reaches : Reaches cfg fsm true mod state) :
    ∀ s : State, Extends fsm s.fsm → s.control = .calling (.resume mod state context) →
      ∃ later op, (execute (step cfg) s later).conn.op = some op ∧ isRead op.task.stage = true := by
  induction reaches with
  | @here mod state next inner route kind =>
    intro s table control
    rw [← table.endMod] at inner
    rw [← table.route] at route
    have goes := resume_linked cfg ⟨none,0⟩ control inner route
    let attempt : Attempt := ⟨⟨s.conn.context,next.id⟩,(s.conn.data ⟨s.conn.context,next.id⟩).serial + 1⟩
    refine ⟨[.call ⟨none,0⟩,.call ⟨none,0⟩],
      .start 0 ⟨attempt,.version (cfg.getVersionLen next (parts s.conn.log))⟩,?_,rfl⟩
    rw [execute_cons,goes]
    simp only [execute_cons,execute_nil,step,call,run,kind]
    rfl
  | @through mod state next state' inner route other passed rest ih =>
    intro s table control
    rw [← table.endMod] at inner
    rw [← table.route] at route
    have goes := resume_linked cfg ⟨none,0⟩ control inner route
    have run : ∃ later, let t := execute (step cfg) (step cfg s (.call ⟨none,0⟩)) later
        t.fsm = s.fsm ∧ t.control = .calling (.resume next state' context) := by
      rw [goes]
      cases kind : cfg.kind next with
      | request => exact absurd kind other
      | response =>
        have made := passed.1
        simp only [Produces,kind] at made
        rcases made with rfl | rfl | rfl
        · exact respond_schedule rfl kind .success
        · exact respond_schedule rfl kind .failed
        · exact respond_schedule rfl kind .aborted
      | other =>
        refine ⟨[.call ⟨none,modAsync⟩,.resume state'],?_⟩
        simp [execute_cons,step,call,FsmConnection.run,kind,State.afterRun,resume]
    obtain ⟨later,fsm,resumed⟩ := run
    obtain ⟨more,op,busy,read⟩ := ih _ (fsm ▸ table) resumed
    refine ⟨.call ⟨none,0⟩ :: (later ++ more),op,?_,read⟩
    rw [execute_cons,execute_append]
    exact busy

end Ends

/-- For every run and every rejected request in it: whatever comes, the rejection ends the
connection as documented exactly when it is not that of a head declared illegal by its body
length, and the links lead from the state of the RequestModule to no RequestModule. -/
theorem rejection_ends_iff (cfg : Config) (fsm : Fsm) (earlier : List Action) (mod : Module) (context : Nat) (op : Op)
    (error : ErrorCode) (ok : Bool) :
    let s := execute (step cfg) (initial fsm) earlier
    s.control = .waiting mod context → s.conn.op = some op → op.result = some error →
      rejects op error (replies cfg ok mod s op) = true →
      ((∀ later, EndsConnection cfg s op error ok later) ↔
        illegalHead op error (replies cfg ok mod s op) = false ∧
          ¬Reaches cfg fsm true mod (if error = .aborted then modTimeout else modFailed)) := by
  intro s waiting busy done rejected
  have reached : Reached cfg fsm s := run_reached cfg fsm earlier
  constructor
  · intro ends
    have legal : illegalHead op error (replies cfg ok mod s op) = false := by
      by_contra illegal
      have reading := handler_illegal waiting busy done (by simpa using illegal)
      exact absurd ((ends []).silent _ reading) (by simp [Operation.start,isRead])
    refine ⟨legal,fun reaches => ?_⟩
    obtain ⟨control,_⟩ := handler_rejected waiting busy done rejected legal
    obtain ⟨later,next,busy',read⟩ := reaches.schedule _ (step_reached s (.handler ok) reached).table control
    rw [(ends later).silent next busy'] at read
    contradiction
  · rintro ⟨legal,unreached⟩ later
    obtain ⟨_,_,_,hooks,log⟩ := handler_rejected waiting busy done rejected legal
    refine ⟨⟨hooks,log⟩,?_,?_⟩
    · have handled := step_reached s (.handler ok) reached
      have most := (execute_invariant step_reached handled later).once.atMost op.task.attempt
      have least : 1 ≤ resumes op.task.attempt (step cfg s (.handler ok)).conn.log := by
        rw [log,ClientConnection.resumes_append]
        simp [resumes,ClientConnection.isResumed]
      have kept : 1 ≤ resumes op.task.attempt (execute (step cfg) (step cfg s (.handler ok)) later).conn.log :=
        (execute_invariant (I := fun s => Reached cfg fsm s ∧ 1 ≤ resumes op.task.attempt s.conn.log)
          (fun s a both => ⟨step_reached s a both.1,
            Nat.le_trans both.2 ((step_turn s a both.1.aligned).resumes_le op.task.attempt)⟩) ⟨handled,least⟩ later).2
      exact Nat.le_antisymm most kept
    · have past := Past.begun reached waiting busy done rejected legal unreached
      exact (execute_invariant (I := Past cfg fsm op.task.attempt.slot.context)
        (fun _ a past => step_past past a) past later).silent

/-- A RequestModule r, and the end module behind all of its states. -/
def readToEnd : Fsm :=
  configure ⟨1,"r"⟩ ⟨2,"e"⟩ [.addModule ⟨1,"r"⟩,.addModule ⟨2,"e"⟩,.linkModule ⟨1,"r"⟩ ⟨2,"e"⟩ modElse]

def oneByteParts (bodyLen : UInt32) : Config where
  kind mod := if mod = ⟨1,"r"⟩ then .request else .other
  getVersionLen _ _ := 1
  getHeadLen _ _ := 1
  getBodyLen _ _ := bodyLen
  getSucceedState _ _ := modSucceed

theorem readToEnd_unreached (bodyLen : UInt32) : ¬Reaches (oneByteParts bodyLen) readToEnd true ⟨1,"r"⟩ modFailed := by
  have only : readToEnd.route ⟨1,"r"⟩ modFailed = some ⟨2,"e"⟩ := by decide
  intro reaches
  cases reaches with
  | here inner route kind =>
    obtain rfl := Option.some.inj (only.symm.trans route)
    simp [oneByteParts] at kind
  | through inner route other passed rest =>
    obtain rfl := Option.some.inj (only.symm.trans route)
    cases rest with
    | here inner' | through inner' => exact inner' rfl

/-- A request of which the first byte has been read. -/
def firstByte : List Action :=
  [.call ⟨none,0⟩,.call ⟨none,0⟩,.io (.send [7,8]),.io (.transfer 1),.io (.complete .success)]

/-- The version is read and not accepted; the context ends and with it the connection. -/
theorem refused_version_ends :
    EndsConnection (oneByteParts 1) (execute (step (oneByteParts 1)) (initial readToEnd) firstByte)
      ⟨0,⟨⟨⟨0,1⟩,1⟩,.version 1⟩,some .success,[7],[]⟩ .success false (List.replicate 4 (.call ⟨none,modSucceed⟩)) :=
  (rejection_ends_iff (oneByteParts 1) readToEnd firstByte ⟨1,"r"⟩ 0
    ⟨0,⟨⟨⟨0,1⟩,1⟩,.version 1⟩,some .success,[7],[]⟩ .success false (by decide) (by decide) rfl (by decide)).mpr
    ⟨by decide,readToEnd_unreached 1⟩ _

/-- The head is read and accepted, and `get_body_len` returns -1: the rejection reads on. -/
theorem illegal_head_reads_on :
    let cfg := oneByteParts 0xFFFFFFFF
    let s := execute (step cfg) (initial readToEnd)
      (firstByte ++ [.handler true,.io (.transfer 1),.io (.complete .success)])
    let op : Op := ⟨0,⟨⟨⟨0,1⟩,1⟩,.head 1⟩,some .success,[8],[]⟩
    s.control = .waiting ⟨1,"r"⟩ 0 ∧ s.conn.op = some op ∧
      rejects op .success (replies cfg true ⟨1,"r"⟩ s op) = true ∧
      (step cfg s (.handler true)).conn.op = some (.start 0 ⟨⟨⟨0,1⟩,1⟩,.body 0xFFFFFFFF⟩) ∧
      ¬EndsConnection cfg s op .success true [] := by
  intro cfg s op
  have reading : (step cfg s (.handler true)).conn.op = some (.start 0 ⟨⟨⟨0,1⟩,1⟩,.body 0xFFFFFFFF⟩) := by decide
  refine ⟨by decide,by decide,by decide,reading,?_⟩
  intro ends
  exact absurd (ends.silent _ reading) (by decide)

end Zerver.FsmConnection
