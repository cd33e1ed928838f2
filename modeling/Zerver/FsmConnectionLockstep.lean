import Zerver.FsmConnectionRejects

/-! Requests and responses of one connection. Each branch of the modules that leaves a
request without a complete response calls `exit()`, except the one for a null response
of `get_resp`: there the graph decides whether the connection goes on. So it does after
any failure within the context, for which the links may lead to a RequestModule again. -/
namespace Zerver.FsmConnection

open Zerver.Asio Zerver.Fsm Zerver.Schedule
open Zerver.ClientConnection (Op Event isRead)

/-- `on_write_resp` has run with no error in the context. -/
def Answered (log : List Event) (context : Nat) : Prop :=
  ∃ attempt : Attempt, attempt.slot.context = context ∧ .onWriteRespSucceed attempt ∈ log

/-- A ResponseModule has returned `Mod_Failed` in the context, for a null response. -/
def Unanswered (log : List Event) (context : Nat) : Prop :=
  ∃ attempt : Attempt, attempt.slot.context = context ∧ .returned attempt modFailed ∈ log

/-- The run whose response an event reports as written, and whose response was null. -/
def writtenBy : Event → Option Attempt
  | .onWriteRespSucceed attempt => some attempt
  | _ => none

def refusedBy : Event → Option Attempt
  | .returned attempt state => if state = modFailed then some attempt else none
  | _ => none

instance (log : List Event) (context : Nat) : Decidable (Answered log context) :=
  decidable_of_iff (∃ event ∈ log, ∃ attempt ∈ writtenBy event, attempt.slot.context = context) (by
    constructor
    · rintro ⟨event,member,attempt,written,here⟩
      cases event <;> simp [writtenBy] at written
      exact ⟨attempt,here,written ▸ member⟩
    · rintro ⟨attempt,here,member⟩
      exact ⟨_,member,attempt,rfl,here⟩)

instance (log : List Event) (context : Nat) : Decidable (Unanswered log context) :=
  decidable_of_iff (∃ event ∈ log, ∃ attempt ∈ refusedBy event, attempt.slot.context = context) (by
    constructor
    · rintro ⟨event,member,attempt,refused,here⟩
      cases event <;> simp [refusedBy] at refused
      obtain ⟨rfl,rfl⟩ := refused
      exact ⟨_,here,member⟩
    · rintro ⟨attempt,here,member⟩
      exact ⟨_,member,attempt,rfl,here⟩)

def Starts (cfg : Config) (s : State) : Prop :=
  ∃ mod context lastModState, s.control = .calling (.run mod context lastModState) ∧ cfg.kind mod = .request

/-- From the start of one request to that of any later one, the response of the former has
been written. -/
def Lockstep (cfg : Config) (fsm : Fsm) (schedule : List Action) : Prop :=
  ∀ earlier choice between later, schedule = earlier ++ .call choice :: (between ++ later) →
    let s := execute (step cfg) (initial fsm) earlier
    let next := execute (step cfg) s (.call choice :: between)
    Starts cfg s → Starts cfg next →
      ∃ events, next.conn.log = s.conn.log ++ events ∧ Answered events s.conn.context

def responses (cfg : Config) (mod : Module) : Nat := if cfg.kind mod = .response then 1 else 0

/-- A walk of the graph from a module with the state it produced to the end module,
with the number of ResponseModules it passes. -/
inductive Walk (cfg : Config) (fsm : Fsm) : Module → ModState → Nat → Prop where
  | stop : Walk cfg fsm fsm.endMod state 0
  | link : mod ≠ fsm.endMod → fsm.route mod state = some next → Walk cfg fsm next state' n →
      Walk cfg fsm mod state (n + responses cfg next)

/-- Every walk from a success state of a RequestModule passes exactly one ResponseModule. -/
def OneResponse (cfg : Config) (fsm : Fsm) : Prop :=
  ∀ mod read n, cfg.kind mod = .request → Walk cfg fsm mod (cfg.getSucceedState mod read) n → n = 1

/-- From no state of a RequestModule do the links lead to a RequestModule before a response
has been written. -/
def OneRequest (cfg : Config) (fsm : Fsm) : Prop :=
  ∀ mod state, cfg.kind mod = .request → Produces cfg mod state → ¬Reaches cfg fsm false mod state

/-- A context in which `get_resp` gave null has exited when it ends. -/
def Exits (s : State) : Action → Prop
  | .call _ => ∀ context, s.control = .calling (.endRequest context) → Unanswered s.conn.log context →
    s.conn.exits context = true
  | _ => True

instance (s : State) : (a : Action) → Decidable (Exits s a)
  | .call _ =>
    match control : s.control with
    | .calling (.endRequest context) =>
      decidable_of_iff (Unanswered s.conn.log context → s.conn.exits context = true) (by
        simp [Exits,control])
    | .calling (.handleRequest _) | .calling (.run _ _ _) | .calling (.resume _ _ _)
    | .waiting _ _ | .stopped | .crashed => isTrue (by simp [Exits,control])
  | .handler _ | .resume _ | .exit | .io _ => isTrue trivial

/-- The response is ahead on every walk from here, or was null and is on none. -/
def Owed (cfg : Config) (fsm : Fsm) (log : List Event) (context : Nat) (mod : Module) (state : ModState) :
    Prop :=
  (∀ n, Walk cfg fsm mod state n → n = 1) ∨
    (∀ n, Walk cfg fsm mod state n → n = 0) ∧ Unanswered log context

/-- The same before a module runs, which may itself be the ResponseModule. -/
def OwedBefore (cfg : Config) (fsm : Fsm) (log : List Event) (context : Nat) (mod : Module)
    (state : ModState) : Prop :=
  (∀ n, Walk cfg fsm mod state n → n + responses cfg mod = 1) ∨
    (∀ n, Walk cfg fsm mod state n → n + responses cfg mod = 0) ∧ Unanswered log context

/-- Where a request without a response is, as long as its context does not exit. -/
def Standing (cfg : Config) (fsm : Fsm) (log : List Event) (context : Nat) : Control → Prop
  | .calling (.run mod _ _) => ∀ state, OwedBefore cfg fsm log context mod state
  | .calling (.resume mod state _) => Owed cfg fsm log context mod state
  | .calling (.endRequest _) => Unanswered log context
  | .waiting mod _ =>
    match cfg.kind mod with
    | .request => True
    | .response => ∀ state n, Walk cfg fsm mod state n → n = 0
    | .other => ∀ state, Owed cfg fsm log context mod state
  | .calling (.handleRequest _) | .stopped | .crashed => True

/-- A request has been started in the context, and no response to it has been written. -/
structure Open (cfg : Config) (fsm : Fsm) (context : Nat) (s : State) : Prop where
  table : Extends fsm s.fsm
  here : s.conn.context = context
  unreached : Unreached cfg fsm false s.control
  standing : s.conn.exits context = false → Standing cfg fsm s.conn.log context s.control

section Log

variable {cfg : Config} {fsm : Fsm} {log : List Event} {context : Nat} {control : Control} {s next : State}

theorem Answered.grow (answered : Answered log context) (more : List Event) : Answered (log ++ more) context := by
  obtain ⟨attempt,here,member⟩ := answered
  exact ⟨attempt,here,List.mem_append_left _ member⟩

theorem Unanswered.grow (unanswered : Unanswered log context) (more : List Event) :
    Unanswered (log ++ more) context := by
  obtain ⟨attempt,here,member⟩ := unanswered
  exact ⟨attempt,here,List.mem_append_left _ member⟩

theorem Owed.grow (owed : Owed cfg fsm log context mod state) (more : List Event) :
    Owed cfg fsm (log ++ more) context mod state :=
  owed.imp_right fun ⟨behind,unanswered⟩ => ⟨behind,unanswered.grow more⟩

theorem Standing.grow (standing : Standing cfg fsm log context control) (more : List Event) :
    Standing cfg fsm (log ++ more) context control := by
  unfold Standing at standing ⊢
  split
  · exact fun state => (standing state).imp_right fun ⟨behind,unanswered⟩ => ⟨behind,unanswered.grow more⟩
  · exact standing.grow more
  · exact standing.grow more
  · dsimp only at standing ⊢
    split at standing
    · trivial
    · exact standing
    · exact fun state => (standing state).grow more
  all_goals trivial

theorem Move.grows (move : Move cfg s a next) : ∃ hooks, next.conn.log = s.conn.log ++ hooks := by
  have silent {t : State} {mod : Module} {state : ModState} {context : Nat} (continued : Continued t mod state context next) :
      next.conn.log = t.conn.log := by
    obtain ⟨exits,same⟩ := continued.conn_eq
    rw [same]
  have read {conn : ClientConnection.State} {op : Op} {error : ErrorCode} {answers : ClientConnection.Replies}
      (handling : Handling op error answers { s.conn with op := none } conn) :
      ∃ hooks, conn.log = s.conn.log ++ hooks := by
    cases handling with
    | ended hooks state cause failing none exits log silent => exact ⟨_,log.trans (List.append_assoc ..)⟩
    | headRead stage fine started exits log => exact ⟨_,log⟩
    | bodyRead stage fine started exits log => exact ⟨_,log⟩
    | requestRead stage fine none exits log => exact ⟨_,log.trans (List.append_assoc ..)⟩
    | written stage fine none exits log => exact ⟨_,log.trans (List.append_assoc ..)⟩
  cases move with
  | stay quiet => exact ⟨[],by simp⟩
  | io outer =>
    obtain ⟨hooks,log,_⟩ := (io_kept s.conn _ outer).log
    exact ⟨hooks,log⟩
  | exited => exact ⟨_,rfl⟩
  | renewed control => exact ⟨[],by simp⟩
  | requested control kind => exact ⟨_,rfl⟩
  | responded control kind resp => exact ⟨_,rfl⟩
  | unanswered control kind resp continued => exact ⟨_,silent continued⟩
  | deferred control kind => exact ⟨[],by simp⟩
  | returned control kind continued => exact ⟨[],by simp [silent continued]⟩
  | continued control continued => exact ⟨[],by simp [silent continued]⟩
  | finished control flag => exact ⟨_,(endRequest_fields s.conn).2.2.2.1⟩
  | crashed control stays => exact ⟨_,(endRequest_fields s.conn).2.2.2.1⟩
  | ended control stays => exact ⟨_,(endRequest_fields s.conn).2.2.2.1⟩
  | reads control busy done handling inbound same serial reading => exact read handling
  | handled control busy done handling inbound same serial idle log => exact read handling
  | resumed control kind => exact ⟨[],by simp⟩

end Log

section Steps

variable {cfg : Config} {fsm : Fsm} {s next : State} {mod : Module} {state : ModState} {context : Nat}

theorem OwedBefore.other (before : OwedBefore cfg fsm log context mod state) (kind : cfg.kind mod = .other) :
    Owed cfg fsm log context mod state := by
  have counted : responses cfg mod = 0 := by simp [responses,kind]
  unfold OwedBefore at before
  rw [counted] at before
  exact before

theorem OwedBefore.response (before : OwedBefore cfg fsm log context mod state)
    (kind : cfg.kind mod = .response) (walk : Walk cfg fsm mod state n) : n = 0 := by
  have counted : responses cfg mod = 1 := by simp [responses,kind]
  rcases before with ahead | ⟨behind,_⟩
  · have := ahead n walk
    omega
  · have := behind n walk
    omega

theorem Continued.standing (continued : Continued s mod state s.conn.context next) (table : Extends fsm s.fsm)
    (owed : s.conn.exits s.conn.context = false → Owed cfg fsm s.conn.log s.conn.context mod state)
    (stays : next.conn.exits s.conn.context = false) :
    Standing cfg fsm next.conn.log s.conn.context next.control := by
  cases continued with
  | atEnd atEnd =>
    rw [table.endMod] at atEnd
    subst atEnd
    rcases owed stays with ahead | ⟨_,unanswered⟩
    · exact absurd (ahead 0 .stop) (by decide)
    · exact unanswered
  | linked inner route =>
    intro state'
    rw [table.endMod] at inner
    rw [table.route] at route
    rcases owed stays with ahead | ⟨behind,unanswered⟩
    · exact .inl fun n walk => ahead _ (.link inner route walk)
    · exact .inr ⟨fun n walk => behind _ (.link inner route walk),unanswered⟩
  | unlinked extended => simp at stays

theorem Move.answered (move : Move cfg s a next) (aligned : Aligned cfg s) (waiting : s.control = .waiting mod context)
    (kind : cfg.kind mod = .response) (resumed : next.control = .calling (.resume mod modSucceed context)) :
    ∃ hooks, next.conn.log = s.conn.log ++ hooks ∧ Answered hooks s.conn.context := by
  cases move with
  | stay quiet => simp [waiting] at resumed
  | io outer => simp [waiting] at resumed
  | exited => simp [waiting] at resumed
  | reads control busy done handling inbound same serial reading => simp [waiting] at resumed
  | handled control busy done handling inbound same serial idle log =>
    rename_i mod' _ op error ok conn before state'
    obtain ⟨rfl,rfl⟩ := Control.waiting.inj (control.symm.trans waiting)
    obtain ⟨_,rfl,_⟩ := Call.resume.inj (Control.calling.inj resumed)
    obtain ⟨_,here,own,attempt⟩ := aligned.owner op busy
    obtain ⟨rfl,_⟩ := Control.waiting.inj (control.symm.trans here)
    cases handling with
    | ended hooks state cause failing none flags ends silent =>
      have same : modSucceed = state := by simpa using (List.append_inj' (log.symm.trans ends) rfl).2
      rw [← same] at cause
      exact absurd cause (by decide)
    | requestRead stage fine none flags ends => simp [stage,isRead,kind] at own
    | written stage fine none flags ends =>
      refine ⟨_,ends.trans (List.append_assoc ..),op.task.attempt,?_,by simp⟩
      rw [attempt]
    | headRead stage fine started flags ends => simp [idle] at started
    | bodyRead stage fine started flags ends => simp [idle] at started
  | resumed control other =>
    obtain ⟨rfl,rfl⟩ := Control.waiting.inj (control.symm.trans waiting)
    simp [kind] at other
  | renewed control | requested control | responded control | unanswered control | deferred control
  | returned control | continued control | finished control | crashed control | ended control =>
    rw [control] at waiting
    cases waiting

theorem Move.standing (move : Move cfg s a next) (aligned : Aligned cfg s) (one : OneResponse cfg fsm)
    (table : Extends fsm s.fsm)
    (ends : ∀ choice context, a = .call choice → s.control = .calling (.endRequest context) →
      s.conn.exits context = true)
    (silent : ¬∃ hooks, next.conn.log = s.conn.log ++ hooks ∧ Answered hooks s.conn.context)
    (unreached : Unreached cfg fsm false s.control)
    (standing : s.conn.exits s.conn.context = false → Standing cfg fsm s.conn.log s.conn.context s.control)
    (stays : next.conn.exits s.conn.context = false) :
    Standing cfg fsm next.conn.log s.conn.context next.control := by
  have entering {mod : Module} {context : Nat} {lastModState : ModState}
      (control : s.control = .calling (.run mod context lastModState))
      (stays : s.conn.exits s.conn.context = false) (state : ModState) :
      OwedBefore cfg fsm s.conn.log s.conn.context mod state := by
    have here := standing stays
    rw [control] at here
    exact here state
  cases move with
  | stay quiet => exact standing stays
  | io outer =>
    have kept := io_kept s.conn _ outer
    obtain ⟨hooks,log,_⟩ := kept.log
    rw [log]
    exact (standing (kept.exits ▸ stays)).grow hooks
  | exited => simp [ClientConnection.State.exit,ClientConnection.State.emit] at stays
  | renewed control =>
    rw [control] at unreached
    exact unreached.elim
  | requested control kind =>
    rw [control] at unreached
    exact absurd kind unreached.1
  | responded control kind resp =>
    simp only [Standing,kind]
    exact fun state n walk => (entering control stays state).response kind walk
  | unanswered control kind resp continued =>
    rename_i mod _ lastModState choice
    obtain rfl : _ = s.conn.context := aligned.here control
    refine continued.standing table (fun stays => .inr ⟨fun n walk => ?_,?_⟩) stays
    · exact (entering control stays modFailed).response kind walk
    · let attempt : Attempt := ⟨⟨s.conn.context,mod.id⟩,(s.conn.data ⟨s.conn.context,mod.id⟩).serial + 1⟩
      exact ⟨attempt,rfl,List.mem_append_right _ (List.mem_singleton_self _)⟩
  | deferred control kind =>
    simp only [Standing,kind]
    exact fun state => (entering control stays state).other kind
  | returned control kind continued =>
    obtain rfl : _ = s.conn.context := aligned.here control
    exact continued.standing table (fun stays => (entering control stays _).other kind) stays
  | continued control continued =>
    obtain rfl : _ = s.conn.context := aligned.here control
    refine continued.standing table (fun stays => ?_) stays
    have here := standing stays
    rw [control] at here
    exact here
  | finished control flag => trivial
  | crashed control left =>
    rw [ends _ _ rfl control] at left
    contradiction
  | ended control left =>
    rw [ends _ _ rfl control] at left
    contradiction
  | reads control busy done handling inbound same serial reading =>
    cases handling with
    | headRead stage fine started flags log =>
      rw [log]
      exact (standing (flags ▸ stays)).grow _
    | bodyRead stage fine started flags log =>
      rw [log]
      exact (standing (flags ▸ stays)).grow _
    | ended hooks state cause failing none flags log silent => exact absurd none reading
    | requestRead stage fine none flags log => exact absurd none reading
    | written stage fine none flags log => exact absurd none reading
  | handled control busy done handling inbound same serial idle log =>
    rename_i mod _ op error ok conn before state
    obtain ⟨_,here,own,attempt⟩ := aligned.owner op busy
    obtain ⟨rfl,_⟩ := Control.waiting.inj (control.symm.trans here)
    cases handling with
    | ended hooks last cause failing none flags ends quiet =>
      rw [flags,attempt] at stays
      simp at stays
    | requestRead stage fine none flags ends =>
      have last : state = (replies cfg ok mod s op).state := by
        simpa using (List.append_inj' (log.symm.trans ends) rfl).2
      refine .inl fun n walk => one mod _ n ?_ (last ▸ walk)
      simpa [stage,isRead] using own
    | written stage fine none flags ends =>
      refine (silent ⟨_,ends.trans (List.append_assoc ..),op.task.attempt,?_,by simp⟩).elim
      rw [attempt]
    | headRead stage fine started flags ends => simp [idle] at started
    | bodyRead stage fine started flags ends => simp [idle] at started
  | resumed control kind =>
    have here := standing stays
    simp only [Standing,control,kind] at here
    exact here _

/-- A step writes the response, or leaves the request open in its context. -/
theorem step_open (opened : Open cfg fsm context s) (aligned : Aligned cfg s) (one : OneResponse cfg fsm) (a : Action)
    (exits : Exits s a) :
    Open cfg fsm context (step cfg s a) ∨
      ∃ hooks, (step cfg s a).conn.log = s.conn.log ++ hooks ∧ Answered hooks context := by
  obtain ⟨table,rfl,unreached,standing⟩ := opened
  by_cases answered : ∃ hooks, (step cfg s a).conn.log = s.conn.log ++ hooks ∧ Answered hooks s.conn.context
  · exact .inr answered
  · have move := step_moves cfg s a
    have ends (choice : Choice) (context : Nat) (call : a = .call choice)
        (control : s.control = .calling (.endRequest context)) : s.conn.exits context = true := by
      subst call
      obtain rfl : context = s.conn.context := aligned.here control
      by_contra stays
      have left := standing (by simpa using stays)
      rw [control] at left
      exact stays (exits _ control left)
    obtain ⟨later,same⟩ := move.unreached aligned table ends
      (fun _ mod context waiting kind resumed => answered (move.answered aligned waiting kind resumed)) unreached
    exact .inl ⟨table.trans same.table,same.context,later,
      move.standing aligned one table ends answered unreached standing⟩

end Steps

section Run

variable {cfg : Config} {fsm : Fsm} {s : State}

structure Since (cfg : Config) (fsm : Fsm) (s next : State) : Prop where
  aligned : Aligned cfg next
  log : ∃ events, next.conn.log = s.conn.log ++ events ∧
    (Answered events s.conn.context ∨ Open cfg fsm s.conn.context next)

theorem Since.begun (reached : Reached cfg fsm s) (once : OneRequest cfg fsm) (starts : Starts cfg s) (choice : Choice) :
    Since cfg fsm s (step cfg s (.call choice)) := by
  obtain ⟨mod,context,lastModState,control,kind⟩ := starts
  obtain rfl : context = s.conn.context := reached.aligned.here control
  have aligned := (step_moves cfg s (.call choice)).aligned reached.aligned
  have goes : step cfg s (.call choice) = { s with
      conn := ClientConnection.runRequest mod.id (cfg.getVersionLen mod (parts s.conn.log)) s.conn
      control := .waiting mod s.conn.context } := by
    simp only [step,call,control,run,kind]
    rfl
  rw [goes] at aligned ⊢
  refine ⟨aligned,_,rfl,.inr ⟨reached.table,rfl,?_,?_⟩⟩
  · exact fun state passes => once mod state kind passes.1
  · intro _
    simp [Standing,kind]

theorem Since.step (since : Since cfg fsm s next) (one : OneResponse cfg fsm) (a : Action) (exits : Exits next a) :
    Since cfg fsm s (step cfg next a) := by
  obtain ⟨aligned,events,log,waits⟩ := since
  refine ⟨(step_moves cfg next a).aligned aligned,?_⟩
  rcases waits with answered | opened
  · obtain ⟨hooks,grown⟩ := (step_moves cfg next a).grows
    exact ⟨events ++ hooks,by rw [grown,log,List.append_assoc],.inl (answered.grow hooks)⟩
  · rcases step_open opened aligned one a exits with still | ⟨hooks,grown,attempt,here,written⟩
    · obtain ⟨hooks,grown⟩ := (step_moves cfg next a).grows
      exact ⟨events ++ hooks,by rw [grown,log,List.append_assoc],.inr still⟩
    · exact ⟨events ++ hooks,by rw [grown,log,List.append_assoc],
        .inl ⟨attempt,here,List.mem_append_right _ written⟩⟩

end Run

/-- In every run on a graph whose walks from a success state of a RequestModule pass one
ResponseModule and whose links lead from none of its states to another read, in which no
context with a null response ends without `exit()`, the next request is read only once the
response of the one before has been written. -/
theorem requests_in_lockstep (cfg : Config) (fsm : Fsm) (one : OneResponse cfg fsm) (once : OneRequest cfg fsm)
    (schedule : List Action) (exits : Along (step cfg) Exits (initial fsm) schedule) :
    Lockstep cfg fsm schedule := by
  rintro earlier choice between later rfl s next starts again
  have reached : Reached cfg fsm s := run_reached cfg fsm earlier
  have after := ((along_append _ _ _).mp exits).2.2
  have since : Since cfg fsm s next :=
    along_invariant (fun _ a exits since => since.step one a exits) (.begun reached once starts choice) between
      ((along_append _ _ _).mp after).1
  obtain ⟨events,log,answered | opened⟩ := since.log
  · exact ⟨events,log,answered⟩
  · obtain ⟨mod,context,lastModState,control,kind⟩ := again
    have unreached := opened.unreached
    rw [control] at unreached
    exact absurd kind unreached.1

/-- A RequestModule r, a ResponseModule p behind it, and the end module behind every
state of p. All parts of a request are empty. -/
def respondToEnd : Fsm :=
  configure ⟨1,"r"⟩ ⟨3,"e"⟩ [.addModule ⟨1,"r"⟩,.addModule ⟨2,"p"⟩,.addModule ⟨3,"e"⟩,
    .linkModule ⟨1,"r"⟩ ⟨2,"p"⟩ modSucceed,.linkModule ⟨2,"p"⟩ ⟨3,"e"⟩ modElse]

def emptyParts : Config where
  kind mod := if mod = ⟨1,"r"⟩ then .request else if mod = ⟨2,"p"⟩ then .response else .other
  getVersionLen _ _ := 0
  getHeadLen _ _ := 0
  getBodyLen _ _ := 0
  getSucceedState _ _ := modSucceed

theorem emptyParts_request (kind : emptyParts.kind mod = .request) : mod = ⟨1,"r"⟩ := by
  by_contra other
  by_cases second : mod = ⟨2,"p"⟩ <;> simp [emptyParts,other,second] at kind

theorem respondToEnd_second (state : ModState) : respondToEnd.route ⟨2,"p"⟩ state = some ⟨3,"e"⟩ := by
  by_cases exact : state = modElse
  · subst exact
    decide
  · have other : (state == modElse) = false := by simpa using exact
    simp [respondToEnd,configure,setup,addModule,linkModule,insertLink,route,getNextModule,entry,
      List.lookup_cons,other]

theorem respondToEnd_oneResponse : OneResponse emptyParts respondToEnd := by
  intro mod read n kind walk
  obtain rfl := emptyParts_request kind
  have first : respondToEnd.route ⟨1,"r"⟩ modSucceed = some ⟨2,"p"⟩ := by decide
  cases walk with
  | link inner route rest =>
    obtain rfl := Option.some.inj (first.symm.trans route)
    cases rest with
    | link inner' route' rest' =>
      obtain rfl := Option.some.inj ((respondToEnd_second _).symm.trans route')
      cases rest' with
      | stop => rfl
      | link end' => exact absurd rfl end'

theorem respondToEnd_oneRequest : OneRequest emptyParts respondToEnd := by
  intro mod state kind produced reaches
  obtain rfl := emptyParts_request kind
  have linked (next : Module) (route : respondToEnd.route ⟨1,"r"⟩ state = some next) : next = ⟨2,"p"⟩ := by
    have failed : respondToEnd.route ⟨1,"r"⟩ modFailed = none := by decide
    have timeout : respondToEnd.route ⟨1,"r"⟩ modTimeout = none := by decide
    have succeeded : respondToEnd.route ⟨1,"r"⟩ modSucceed = some ⟨2,"p"⟩ := by decide
    simp only [Produces,kind] at produced
    rcases produced with rfl | rfl | ⟨_,rfl⟩
    · exact absurd (failed.symm.trans route) (by simp)
    · exact absurd (timeout.symm.trans route) (by simp)
    · exact (Option.some.inj (succeeded.symm.trans route)).symm
  cases reaches with
  | here inner route kind' =>
    rw [linked _ route] at kind'
    exact absurd kind' (by decide)
  | through inner route other passed rest =>
    obtain rfl := linked _ route
    cases rest with
    | here inner' route' kind' =>
      obtain rfl := Option.some.inj ((respondToEnd_second _).symm.trans route')
      exact absurd kind' (by decide)
    | through inner' route' other' passed' rest' =>
      obtain rfl := Option.some.inj ((respondToEnd_second _).symm.trans route')
      cases rest' with
      | here end' | through end' => exact end' rfl

def firstRequest (resp : Option (List UInt8)) : List Action :=
  let read : List Action := [.io (.complete .success),.handler true]
  [.call ⟨none,0⟩,.call ⟨none,0⟩] ++ read ++ read ++ read ++ [.call ⟨none,0⟩,.call ⟨resp,0⟩]

def nextRequest : List Action := List.replicate 4 (.call ⟨none,modSucceed⟩)

theorem written_response_in_step :
    let first := firstRequest (some [1]) ++ [.io (.complete .success),.handler true,.call ⟨none,0⟩]
    Lockstep emptyParts respondToEnd (first ++ nextRequest) ∧
      Starts emptyParts (execute (step emptyParts) (initial respondToEnd) (first.take 1)) ∧
      Starts emptyParts (execute (step emptyParts) (initial respondToEnd) (first ++ nextRequest.take 3)) :=
  ⟨requests_in_lockstep emptyParts respondToEnd respondToEnd_oneResponse respondToEnd_oneRequest _ (by decide),
    ⟨⟨1,"r"⟩,0,modStart,by decide,rfl⟩,⟨⟨1,"r"⟩,1,modStart,by decide,rfl⟩⟩

/-- The response is null, p returns `Mod_Failed` without `exit()`, and the next request
is read. -/
theorem null_response_out_of_step :
    OneResponse emptyParts respondToEnd ∧ ¬Lockstep emptyParts respondToEnd (firstRequest none ++ nextRequest) := by
  refine ⟨respondToEnd_oneResponse,?_⟩
  intro lockstep
  obtain ⟨events,log,attempt,here,member⟩ := lockstep [.call ⟨none,0⟩] ⟨none,0⟩
    ((firstRequest none).drop 2 ++ nextRequest.take 3) [.call ⟨none,modSucceed⟩] rfl
    ⟨⟨1,"r"⟩,0,modStart,by decide,rfl⟩ ⟨⟨1,"r"⟩,1,modStart,by decide,rfl⟩
  have written := List.mem_append_right (execute (step emptyParts) (initial respondToEnd) [.call ⟨none,0⟩]).conn.log member
  rw [← log] at written
  have answered : Answered (execute (step emptyParts) (initial respondToEnd)
      (firstRequest none ++ nextRequest.take 3)).conn.log 0 := ⟨attempt,here,written⟩
  exact absurd answered (by decide)

end Zerver.FsmConnection
