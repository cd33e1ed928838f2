import Zerver.TcpModuleMoves

/-! Ownership of pooled clients in every run, and what follows: a cancel or close
reaches operations of its own `ModuleData` only, so an attempt that was not hit by
its own time-out is not told that it timed out. -/
namespace Zerver.TcpModule

open Zerver.Asio Zerver.TcpClientPool Zerver.Schedule

theorem Owned.reassign (owned : Owned s) (slot : Slot) (data : ModuleData) (pool : Pool)
    (dataEq : next.data = Function.update s.data slot data) (poolEq : next.pool = pool)
    (nodup : (pooled pool.freeClients).Nodup)
    (pooledFresh : ∀ c ∈ pooled pool.freeClients, c < next.fresh) (fresh : s.fresh ≤ next.fresh)
    (mine : ∀ c, data.client = some c → c < next.fresh ∧ c ∉ pooled pool.freeClients ∧
      ∀ other, other ≠ slot → (s.data other).client ≠ some c)
    (others : ∀ other c, other ≠ slot → (s.data other).client = some c →
      c ∉ pooled pool.freeClients) : Owned next := by
  have own : next.data slot = data := by rw [dataEq,Function.update_self]
  have kept (other : Slot) (eq : other ≠ slot) : next.data other = s.data other := by
    rw [dataEq,Function.update_of_ne eq]
  subst poolEq
  constructor
  · exact nodup
  · exact pooledFresh
  · intro other c held
    by_cases eq : other = slot
    · subst other
      exact (mine c (own ▸ held)).1
    · exact lt_of_lt_of_le (owned.heldFresh other c (kept other eq ▸ held)) fresh
  · intro other c held
    by_cases eq : other = slot
    · subst other
      exact (mine c (own ▸ held)).2.1
    · exact others other c eq (kept other eq ▸ held)
  · intro first second c held held'
    by_cases eq : first = slot
    · by_cases eq' : second = slot
      · rw [eq,eq']
      · subst first
        exact absurd (kept second eq' ▸ held') ((mine c (own ▸ held)).2.2 second eq')
    · by_cases eq' : second = slot
      · subst second
        exact absurd (kept first eq ▸ held) ((mine c (own ▸ held')).2.2 first eq)
      · exact owned.unique first second c (kept first eq ▸ held) (kept second eq' ▸ held')

theorem Owned.keep (owned : Owned s) (clients : ∀ slot, (next.data slot).client = (s.data slot).client)
    (pool : (pooled next.pool.freeClients).Sublist (pooled s.pool.freeClients))
    (fresh : next.fresh = s.fresh) : Owned next where
  nodup := pool.nodup owned.nodup
  pooledFresh c member := fresh ▸ owned.pooledFresh c (pool.subset member)
  heldFresh slot c held := fresh ▸ owned.heldFresh slot c (clients slot ▸ held)
  apart slot c held member := owned.apart slot c (clients slot ▸ held) (pool.subset member)
  unique slot other c held held' :=
    owned.unique slot other c (clients slot ▸ held) (clients other ▸ held')

theorem update_client (s : State) (slot : Slot) (data : ModuleData)
    (same : data.client = (s.data slot).client) (other : Slot) :
    (Function.update s.data slot data other).client = (s.data other).client := by
  by_cases eq : other = slot
  · subst other
    simpa using same
  · rw [Function.update_of_ne eq]

theorem Handled.client (handled : Handled cfg op replies d error data ops events) :
    data.client = d.client := by
  cases handled <;> rfl

theorem Ran.client (ran : Ran args slot d found data ops events) : data.client = found := by
  cases ran <;> rfl

theorem Opened.client (opened : Opened slot d fresh data ops events) : data.client = some fresh := by
  cases opened <;> rfl

theorem delivered_fields (op : Op) (code : ErrorCode) (s : State) :
    (delivered op code s).data = s.data ∧ (delivered op code s).pool = s.pool ∧
      (delivered op code s).fresh = s.fresh ∧ (delivered op code s).ops = s.ops := by
  unfold delivered
  split <;> exact ⟨rfl,rfl,rfl,rfl⟩

theorem Move.owned (sound : Sound none s) (move : Move cfg s a next) : Owned next := by
  have owned := sound.owned
  cases move with
  | stay => exact owned
  | rejected idle => exact owned.keep (update_client s _ _ rfl) (List.Sublist.refl _) rfl
  | ran dropped idle perm ran =>
    rename_i slot args found data ops events clients pool
    have nodup := perm.nodup_iff.mp owned.nodup
    have inPool (c : Nat) (member : c ∈ found.toList ++ pooled pool.freeClients) :
        c ∈ pooled s.pool.freeClients := perm.mem_iff.mpr (List.mem_append_right _ member)
    refine owned.reassign _ _ _ rfl rfl ((List.nodup_append.mp (List.nodup_append.mp nodup).2.1).2.1)
      (fun c member => owned.pooledFresh c (inPool c (List.mem_append_right _ member))) (le_refl _) ?_ ?_
    · intro c held
      rw [ran.client] at held
      subst held
      refine ⟨owned.pooledFresh c (inPool c (by simp)),?_,?_⟩
      · exact (List.nodup_cons.mp (List.nodup_append.mp nodup).2.1).1
      · intro other _ held
        exact owned.apart other c held (inPool c (by simp))
    · intro other c _ held member
      exact owned.apart other c held (inPool c (List.mem_append_right _ member))
  | opened dropped idle perm opened =>
    have inPool (c : Nat) (member : c ∈ _) : c ∈ pooled s.pool.freeClients :=
      perm.mem_iff.mpr (List.mem_append_right _ member)
    refine owned.reassign _ _ _ rfl rfl (List.nodup_append.mp (perm.nodup_iff.mp owned.nodup)).2.1
      (fun c member => Nat.lt_succ_of_lt (owned.pooledFresh c (inPool c member))) (Nat.le_succ _) ?_ ?_
    · intro c held
      rw [opened.client] at held
      obtain rfl := Option.some.inj held
      refine ⟨Nat.lt_succ_self _,?_,?_⟩
      · intro member
        exact absurd (owned.pooledFresh _ (inPool _ member)) (lt_irrefl _)
      · intro other _ held
        exact absurd (owned.heldFresh other _ held) (lt_irrefl _)
    · intro other c _ held member
      exact owned.apart other c held (inPool c member)
  | completed only idle enabled =>
    rename_i slot op code
    obtain ⟨data,pool,fresh,_⟩ := delivered_fields op code (s.setOps slot [op.complete code])
    exact owned.keep (fun other => by rw [data]; rfl) (by rw [pool]; exact List.Sublist.refl _) fresh
  | transferred only idle bound => exact owned.keep (fun _ => rfl) (List.Sublist.refl _) rfl
  | handled only done opened attempt client handled =>
    exact owned.keep (update_client s _ _ handled.client) (List.Sublist.refl _) rfl
  | bodyRead only done opened attempt client stage perm =>
    rename_i slot op len pool replies clients
    refine owned.reassign _ _ _ rfl rfl ?_ ?_ (le_refl _) ?_ ?_
    · exact perm.nodup_iff.mpr (List.nodup_cons.mpr ⟨owned.apart slot _ client,owned.nodup⟩)
    · intro c member
      rcases List.mem_cons.mp (perm.mem_iff.mp member) with rfl | old
      · exact owned.heldFresh slot _ client
      · exact owned.pooledFresh c old
    · intro c held
      simp at held
    · intro other c apart held member
      rcases List.mem_cons.mp (perm.mem_iff.mp member) with rfl | old
      · exact apart (owned.unique other slot _ held client)
      · exact owned.apart other c held old
  | expired => exact owned.keep (update_client s _ _ rfl) (List.Sublist.refl _) rfl
  | ignored queued other => exact owned.keep (update_client s _ _ rfl) (List.Sublist.refl _) rfl
  | fired queued fired => exact owned.keep (update_client s _ _ rfl) (List.Sublist.refl _) rfl
  | answered waiting length => exact owned.keep (fun _ => rfl) (List.Sublist.refl _) rfl
  | swept sub => exact owned.keep (fun _ => rfl) sub rfl

/-- A connect that completes with success is the only completion with an event. -/
def completion (op : Op) (code : ErrorCode) : List Event :=
  match code, op.task.stage with
  | .success, .connect _ _ => [.connected op.task.attempt]
  | _, _ => []

theorem delivered_log (op : Op) (code : ErrorCode) (s : State) :
    (delivered op code s).log = s.log ++ completion op code := by
  cases code <;> cases stage : op.task.stage <;> simp [delivered,completion,stage,State.emit]

/-- A move seen from its own `ModuleData`: what becomes of the data `d` and the
operations `ops`, and the events. -/
inductive Change (cfg : Config) (slot : Slot) (d : ModuleData) (ops : List Op) :
    LocalAction → ModuleData → List Op → List Event → Prop where
  | rejected : ops = [] → Change cfg slot d ops (.run args) { d with serial := d.serial + 1 } []
      [.returned ⟨slot,d.serial + 1⟩ modFailed]
  | ran : ops = [] → Ran args slot d found data ops' events →
      Change cfg slot d ops (.run args) data ops' events
  | opened : ops = [] → Opened slot d fresh data ops' events →
      Change cfg slot d ops (.run args) data ops' events
  | completed : ops = [op] → op.result = none → mayComplete op code = true →
      Change cfg slot d ops (.complete 0 code) d [op.complete code] (completion op code)
  | transferred : ops = [op] → op.result = none →
      Change cfg slot d ops (.transfer 0 count) d [{ op with received := bytes }] []
  | handled : ops = [op] → op.result = some error → op.task.attempt = ⟨slot,d.serial⟩ →
      Handled cfg op replies d error data ops' events →
      Change cfg slot d ops (.handler 0 replies) data ops' events
  | bodyRead : ops = [op] → op.result = some .success → op.task.attempt = ⟨slot,d.serial⟩ →
      op.task.stage = .respBody len → Change cfg slot d ops (.handler 0 replies)
        { d with client := none, socketEvent := .closed, timer := d.timer.cancel } []
        [.onReadBodyImpl op.task.attempt op.received,
          .resumed op.task.attempt (if replies.bodyOk then modSucceed else modFailed)]
  | expired : Change cfg slot d ops .expire { d with timer := d.timer.expire } ops []
  | ignored : d.timer.queued[index]? = some (timeOut,error) → error ≠ .success →
      Change cfg slot d ops (.timeOutHandler index) { d with timer := d.timer.take index } ops []
  | fired : d.timer.queued[index]? = some (timeOut,.success) →
      Fired slot timeOut ops d.client ops' events →
      Change cfg slot d ops (.timeOutHandler index) { d with timer := d.timer.take index } ops' events

theorem Move.change (move : Move cfg s (.on slot action) next) :
    next = s ∨ ∃ data ops events,
      Change cfg slot (s.data slot) (s.ops slot) action data ops events ∧
      next.data = Function.update s.data slot data ∧
      next.ops = Function.update s.ops slot ops ∧ next.log = s.log ++ events := by
  cases move with
  | stay => exact .inl rfl
  | rejected idle => exact .inr ⟨_,_,_,.rejected idle,rfl,rfl,rfl⟩
  | ran dropped idle perm ran => exact .inr ⟨_,_,_,.ran idle ran,rfl,rfl,rfl⟩
  | opened dropped idle perm opened => exact .inr ⟨_,_,_,.opened idle opened,rfl,rfl,rfl⟩
  | completed only idle enabled =>
    rename_i op code
    obtain ⟨data,_,_,ops⟩ := delivered_fields op code (s.setOps slot [op.complete code])
    refine .inr ⟨_,_,_,.completed only idle enabled,?_,ops,delivered_log _ _ _⟩
    rw [data,Function.update_eq_self]
    rfl
  | transferred only idle bound =>
    refine .inr ⟨_,_,_,.transferred only idle,?_,rfl,(List.append_nil _).symm⟩
    rw [Function.update_eq_self]
    rfl
  | handled only done opened attempt client handled =>
    exact .inr ⟨_,_,_,.handled only done attempt handled,rfl,rfl,rfl⟩
  | bodyRead only done opened attempt client stage perm =>
    exact .inr ⟨_,_,_,.bodyRead only done attempt stage,rfl,rfl,rfl⟩
  | expired =>
    exact .inr ⟨_,_,_,.expired,rfl,(Function.update_eq_self _ _).symm,(List.append_nil _).symm⟩
  | ignored queued other =>
    exact .inr ⟨_,_,_,.ignored queued other,rfl,(Function.update_eq_self _ _).symm,
      (List.append_nil _).symm⟩
  | fired queued fired => exact .inr ⟨_,_,_,.fired queued fired,rfl,rfl,rfl⟩

theorem Move.elsewhere (move : Move cfg s a next) (other : ∀ slot action, a ≠ .on slot action) :
    next.data = s.data ∧ next.ops = s.ops ∧
      (next.log = s.log ∨ ∃ request response, next.log = s.log ++ [.answered request response]) := by
  cases move with
  | stay => exact ⟨rfl,rfl,.inl rfl⟩
  | answered waiting length => exact ⟨rfl,rfl,.inr ⟨_,_,rfl⟩⟩
  | swept sub => exact ⟨rfl,rfl,.inl rfl⟩
  | _ => exact absurd rfl (other _ _)

theorem Change.serial (change : Change cfg slot d ops action data ops' events) : d.serial ≤ data.serial := by
  cases change with
  | ran idle ran => cases ran <;> exact Nat.le_succ _
  | opened idle opened => cases opened <;> exact Nat.le_succ _
  | handled only done attempt handled => cases handled <;> exact le_rfl
  | rejected idle => exact Nat.le_succ _
  | _ => exact le_rfl

theorem Change.timer_attempt {P : Attempt → Prop} (change : Change cfg slot d ops action data ops' events)
    (fresh : data.serial = d.serial + 1 → P ⟨slot,d.serial + 1⟩)
    (attempts : ∀ op ∈ ops, op.task.attempt = ⟨slot,d.serial⟩ → P op.task.attempt)
    (timers : d.timer.All (P ·.attempt)) : data.timer.All (P ·.attempt) := by
  cases change with
  | rejected idle => exact timers
  | ran idle ran =>
    cases ran with
    | reused => exact timers.arm (fresh rfl)
    | failed timer =>
      rcases timer with rfl | rfl | rfl
      · exact timers
      · exact timers.cancel
      · exact timers.arm (fresh rfl)
  | opened idle opened => cases opened <;> exact timers.arm (fresh rfl)
  | completed only idle enabled => exact timers
  | transferred only idle => exact timers
  | handled only done attempt handled =>
    cases handled with
    | failed => exact timers.cancel
    | connected stage => exact timers.cancel.arm (attempts _ (only_mem only) attempt)
    | headRejected stage => exact timers.cancel
    | _ => exact timers
  | bodyRead only done attempt stage => exact timers.cancel
  | expired => exact timers.expire
  | ignored queued other => exact timers.take _
  | fired queued fired => exact timers.take _

theorem Change.timers (change : Change cfg slot d ops action data ops' events)
    (bound : d.timer.All (Bound slot d.serial)) : data.timer.All (Bound slot data.serial) := by
  refine change.timer_attempt (P := fun a => a.slot = slot ∧ a.serial ≤ data.serial) ?_ ?_ ?_
  · exact fun serial => ⟨rfl,serial.ge⟩
  · intro op _ same
    rw [same]
    exact ⟨rfl,change.serial⟩
  · exact bound.imp fun h old => ⟨old.1,old.2.trans change.serial⟩

theorem Move.timers (sound : Sound none s) (move : Move cfg s a next) (slot : Slot) :
    (next.data slot).timer.All (Bound slot (next.data slot).serial) := by
  cases a with
  | on acting action =>
    rcases move.change with rfl | ⟨data,ops,events,change,dataEq,_⟩
    · exact sound.timers slot
    · rw [dataEq]
      by_cases eq : slot = acting
      · subst slot
        simpa using change.timers (sound.timers acting)
      · rw [Function.update_of_ne eq]
        exact sound.timers slot
  | _ =>
    obtain ⟨data,_⟩ := move.elsewhere (by simp)
    rw [data]
    exact sound.timers slot

theorem step_sound (cfg : Config) (s : State) (a : Action) (sequential : Sequential s a) (sound : Sound none s) :
    Sound none (step cfg s a) :=
  have move := step_moves cfg sound a sequential
  ⟨Control.step_balanced cfg s a sequential sound.balanced,move.owned sound,move.timers sound⟩

theorem initial_sound (maxTimes : Int32) (checkTime : Int) : Sound none (initial maxTimes checkTime) :=
  ⟨Control.initial_balanced maxTimes checkTime,initial_owned maxTimes checkTime,
    fun _ => Timer.idle_all _⟩

theorem run_sound (cfg : Config) (maxTimes : Int32) (checkTime : Int) (schedule : List Action)
    (sequential : Along (step cfg) Sequential (initial maxTimes checkTime) schedule) :
    Sound none (execute (step cfg) (initial maxTimes checkTime) schedule) :=
  along_invariant (step_sound cfg) (initial_sound maxTimes checkTime) schedule sequential

/-- The `ModuleData` an event of the code is about. -/
def Event.owner : Event → Option Slot
  | .returned a _ | .resumed a _ | .connected a | .onConnectFailed a _ _ | .onSendReqFailed a
  | .onReadHeadFailed a | .onReadBodyFailed a | .onHandleTimeOutImpl a | .onReadHeadImpl a _
  | .onReadBodyImpl a _ | .nullClient a => some a.slot
  | .expired timeOut | .cancelled timeOut _ => some timeOut.attempt.slot
  | .answered _ _ => none

/-- The attempt an event of the code is about. -/
def Event.attempt : Event → Option Attempt
  | .returned a _ | .resumed a _ | .connected a | .onConnectFailed a _ _ | .onSendReqFailed a
  | .onReadHeadFailed a | .onReadBodyFailed a | .onHandleTimeOutImpl a | .onReadHeadImpl a _
  | .onReadBodyImpl a _ | .nullClient a => some a
  | .expired timeOut | .cancelled timeOut _ => some timeOut.attempt
  | .answered _ _ => none

theorem failureHook_attempt (task : Task) : (failureHook task).attempt = some task.attempt := by
  unfold failureHook
  split <;> rfl

theorem timeOutHook_attempt (timeOut : TimeOut) : (timeOutHook timeOut).attempt = some timeOut.attempt := by
  cases timeOut <;> rfl

theorem Handled.attempt (handled : Handled cfg op replies d error data ops events) :
    ∀ event ∈ events, event.attempt = some op.task.attempt := by
  cases handled with
  | failed =>
    exact List.forall_mem_cons.mpr ⟨failureHook_attempt _,List.forall_mem_singleton.mpr rfl⟩
  | _ => simp [Event.attempt]

theorem Fired.attempt (fired : Fired slot timeOut ops client ops' events) :
    ∀ event ∈ events, event.attempt = some timeOut.attempt := by
  have hook : ∀ event ∈ [timeOutHook timeOut], event.attempt = some timeOut.attempt :=
    List.forall_mem_singleton.mpr (timeOutHook_attempt timeOut)
  cases fired with
  | cancelled => exact List.forall_mem_cons.mpr ⟨rfl,List.forall_mem_cons.mpr ⟨rfl,hook⟩⟩
  | missing => exact List.forall_mem_cons.mpr ⟨rfl,hook⟩

theorem Change.attempt (change : Change cfg slot d ops action data ops' events) :
    ∀ event ∈ events,
      (event.attempt = some ⟨slot,d.serial + 1⟩ ∧ data.serial = d.serial + 1) ∨
      (∃ op ∈ ops, event.attempt = some op.task.attempt) ∨
        ∃ entry ∈ d.timer.queued, event.attempt = some entry.1.attempt := by
  intro event member
  cases change with
  | rejected idle => exact .inl ⟨by rw [List.mem_singleton.mp member]; rfl,rfl⟩
  | ran idle ran => cases ran <;> exact .inl ⟨by rw [List.mem_singleton.mp member]; rfl,rfl⟩
  | opened idle opened => cases opened <;> exact .inl ⟨by rw [List.mem_singleton.mp member]; rfl,rfl⟩
  | completed only idle enabled =>
    refine .inr (.inl ⟨_,only_mem only,?_⟩)
    unfold completion at member
    split at member
    · rw [List.mem_singleton.mp member]
      rfl
    · simp at member
  | transferred only idle => simp at member
  | handled only done attempt handled => exact .inr (.inl ⟨_,only_mem only,handled.attempt event member⟩)
  | bodyRead only done attempt stage =>
    refine .inr (.inl ⟨_,only_mem only,?_⟩)
    rcases List.mem_pair.mp member with rfl | rfl <;> rfl
  | expired => simp at member
  | ignored queued other => simp at member
  | fired queued fired => exact .inr (.inr ⟨_,List.mem_of_getElem? queued,fired.attempt event member⟩)

theorem Event.owner_eq (event : Event) : event.owner = event.attempt.map (·.slot) := by
  cases event <;> rfl

theorem Change.owner (change : Change cfg slot d ops action data ops' events)
    (flagged : ∀ op ∈ ops, op.task.attempt = ⟨slot,d.serial⟩)
    (bound : d.timer.All (Bound slot d.serial)) : ∀ event ∈ events, event.owner = some slot := by
  intro event member
  rw [event.owner_eq]
  rcases change.attempt event member with ⟨fresh,_⟩ | ⟨op,here,told⟩ | ⟨entry,here,told⟩
  · rw [fresh]
    rfl
  · rw [told,flagged op here]
    rfl
  · rw [told]
    exact congrArg some (bound.queued entry here).1

/-- The invariant rule for what holds of every `ModuleData` and the log. -/
theorem step_each {P : List Event → Slot → ModuleData → List Op → Prop} (sound : Sound none s)
    (grow : ∀ log more slot d ops, (∀ event ∈ more, event.owner ≠ some slot) →
      P log slot d ops → P (log ++ more) slot d ops)
    (valid : ∀ slot, P s.log slot (s.data slot) (s.ops slot)) (a : Action) (sequential : Sequential s a)
    (changed : ∀ slot action data ops events, a = .on slot action →
      Change cfg slot (s.data slot) (s.ops slot) action data ops events →
      P (s.log ++ events) slot data ops) (slot : Slot) :
    P (step cfg s a).log slot ((step cfg s a).data slot) ((step cfg s a).ops slot) := by
  have move := step_moves cfg sound a sequential
  cases a with
  | on acting action =>
    rcases move.change with same | ⟨data,ops,events,change,dataEq,opsEq,logEq⟩
    · rw [same]
      exact valid slot
    · rw [dataEq,opsEq,logEq]
      by_cases eq : slot = acting
      · subst slot
        simpa using changed acting action data ops events rfl change
      · rw [Function.update_of_ne eq,Function.update_of_ne eq]
        refine grow _ _ _ _ _ ?_ (valid slot)
        intro event member
        have owner := change.owner (sound.attempt acting) (sound.timers acting) event member
        simpa [owner] using Ne.symm eq
  | _ =>
    obtain ⟨data,ops,log⟩ := move.elsewhere (by simp)
    rw [data,ops]
    rcases log with log | ⟨request,response,log⟩
    · rw [log]
      exact valid slot
    · rw [log]
      exact grow _ _ _ _ _ (by simp [Event.owner]) (valid slot)

/-- A time-out handler of this `ModuleData` has run with no error. -/
def TimedOut (log : List Event) (slot : Slot) : Prop :=
  ∃ timeOut, .expired timeOut ∈ log ∧ timeOut.attempt.slot = slot

theorem TimedOut.grow (timedOut : TimedOut log slot) (more : List Event) :
    TimedOut (log ++ more) slot := by
  obtain ⟨timeOut,member,own⟩ := timedOut
  exact ⟨timeOut,List.mem_append_left _ member,own⟩

/-- Only the operations' own `ModuleData` cancels or closes their socket. -/
def Unharmed (slot : Slot) (ops : List Op) : Prop := ∀ op ∈ ops, ∀ issuer ∈ op.hits, issuer = .slot slot

theorem Change.unharmed (change : Change cfg slot d ops action data ops' events)
    (valid : Unharmed slot ops) : Unharmed slot ops' := by
  cases change with
  | rejected idle => simp [Unharmed]
  | ran idle ran => cases ran <;> simp [Unharmed,Operation.start]
  | opened idle opened => cases opened <;> simp [Unharmed,Operation.start]
  | completed only idle enabled =>
    subst only
    simpa [Unharmed,Operation.complete] using valid
  | transferred only idle =>
    subst only
    simpa [Unharmed] using valid
  | handled only done attempt handled => cases handled <;> simp [Unharmed,Operation.start]
  | bodyRead only done attempt stage => simp [Unharmed]
  | expired => exact valid
  | ignored queued other => exact valid
  | fired queued fired =>
    generalize d.client = client at fired
    cases fired with
    | missing => exact valid
    | cancelled =>
      intro op member issuer hit
      obtain ⟨old,was,rfl⟩ := List.mem_map.mp member
      unfold Operation.cancel at hit
      split at hit
      · rcases List.mem_append.mp hit with before | new
        · exact valid old was issuer before
        · simpa using new
      · exact valid old was issuer hit

/-- As Asio documents, an operation reports `operation_aborted` only when its socket
was cancelled or closed. -/
def AbortsAreCancels (a : Action) : Prop :=
  ∀ slot index, a ≠ .on slot (.complete index .aborted)

/-- What an abort tells about the past of its `ModuleData`. -/
structure Explained (log : List Event) (slot : Slot) (ops : List Op) : Prop where
  aborted : ∀ op ∈ ops, op.result = some .aborted → TimedOut log slot
  resumed : ∀ a, a.slot = slot → .resumed a modTimeout ∈ log → TimedOut log slot

theorem Explained.quiet (valid : Explained log slot ops) (fresh : ∀ op ∈ ops', op.result ≠ some .aborted)
    (silent : ∀ a, .resumed a modTimeout ∉ events) : Explained (log ++ events) slot ops' where
  aborted op member aborted := absurd aborted (fresh op member)
  resumed a own member := by
    rcases List.mem_append.mp member with old | new
    · exact (valid.resumed a own old).grow events
    · exact absurd new (silent a)

theorem Change.explained (change : Change cfg slot d ops action data ops' events)
    (aborts : ∀ index, action ≠ .complete index .aborted) (bound : d.timer.All (Bound slot d.serial))
    (valid : Explained log slot ops) : Explained (log ++ events) slot ops' := by
  cases change with
  | rejected idle => exact valid.quiet (by simp) (by simp)
  | ran idle ran => cases ran <;> exact valid.quiet (by simp [Operation.start]) (by simp)
  | opened idle opened => cases opened <;> exact valid.quiet (by simp [Operation.start]) (by simp)
  | completed only idle enabled =>
    rename_i op code
    have code : code ≠ .aborted := by
      rintro rfl
      exact aborts 0 rfl
    refine valid.quiet ?_ ?_
    · simpa [Operation.complete,idle] using code
    · unfold completion
      split <;> simp
  | transferred only idle => exact valid.quiet (by simp [idle]) (by simp)
  | handled only done attempt handled =>
    cases handled with
    | aborted =>
      have timedOut := (valid.aborted _ (only_mem only) done).grow
      exact ⟨by simp,fun a _ _ => timedOut _⟩
    | failed =>
      rename_i op _
      apply valid.quiet (by simp)
      cases stage : op.task.stage <;> simp [failureHook,stage,modFailed,modTimeout]
    | _ => exact valid.quiet (by simp [Operation.start]) (by simp [modFailed,modTimeout])
  | bodyRead only done attempt stage =>
    apply valid.quiet (by simp)
    intro a
    split <;> simp [modSucceed,modFailed,modTimeout]
  | expired => simpa using valid
  | ignored queued other => simpa using valid
  | fired queued fired =>
    rename_i index timeOut
    -- The handler itself is the time-out that explains whatever it aborts.
    have timedOut : TimedOut (log ++ events) slot := by
      refine ⟨timeOut,List.mem_append_right _ ?_,(bound.queued _ (List.mem_of_getElem? queued)).1⟩
      generalize d.client = client at fired
      cases fired <;> simp
    exact ⟨fun _ _ _ => timedOut,fun _ _ _ => timedOut⟩

theorem run_explained (cfg : Config) (maxTimes : Int32) (checkTime : Int) (schedule : List Action)
    (sequential : Along (step cfg) Sequential (initial maxTimes checkTime) schedule)
    (aborts : ∀ a ∈ schedule, AbortsAreCancels a) (slot : Slot) :
    let s := execute (step cfg) (initial maxTimes checkTime) schedule
    Explained s.log slot (s.ops slot) := by
  have preserved : ∀ s a, Sequential s a ∧ AbortsAreCancels a →
      Sound none s ∧ (∀ slot, Explained s.log slot (s.ops slot)) →
      Sound none (step cfg s a) ∧ ∀ slot, Explained (step cfg s a).log slot ((step cfg s a).ops slot) := by
    rintro s a ⟨sequential,real⟩ ⟨sound,valid⟩
    refine ⟨step_sound cfg s a sequential sound,?_⟩
    refine step_each (P := fun log slot _ ops => Explained log slot ops) sound ?_ valid a sequential ?_
    · intro log more slot d ops foreign old
      refine ⟨fun op member aborted => (old.aborted op member aborted).grow more,?_⟩
      intro attempt own member
      rcases List.mem_append.mp member with before | new
      · exact (old.resumed attempt own before).grow more
      · exact absurd (congrArg some own) (foreign _ new)
    · rintro slot action data ops events rfl change
      refine change.explained ?_ (sound.timers slot) (valid slot)
      rintro index rfl
      exact real slot index rfl
  have started : ∀ slot, Explained (initial maxTimes checkTime).log slot ((initial maxTimes checkTime).ops slot) :=
    fun slot => ⟨by simp [initial],by simp [initial]⟩
  exact (along_invariant preserved ⟨initial_sound maxTimes checkTime,started⟩ schedule
    (along_and sequential (along_of_forall schedule aborts))).2 slot

theorem run_unharmed (cfg : Config) (maxTimes : Int32) (checkTime : Int) (schedule : List Action)
    (sequential : Along (step cfg) Sequential (initial maxTimes checkTime) schedule) (slot : Slot) :
    Unharmed slot ((execute (step cfg) (initial maxTimes checkTime) schedule).ops slot) := by
  have preserved : ∀ s a, Sequential s a → Sound none s ∧ (∀ slot, Unharmed slot (s.ops slot)) →
      Sound none (step cfg s a) ∧ ∀ slot, Unharmed slot ((step cfg s a).ops slot) := by
    rintro s a sequential ⟨sound,valid⟩
    refine ⟨step_sound cfg s a sequential sound,?_⟩
    refine step_each (P := fun _ slot _ ops => Unharmed slot ops) sound ?_ valid a sequential ?_
    · intro log more slot d ops foreign old
      exact old
    · rintro slot action data ops events rfl change
      exact change.unharmed (valid slot)
  have started : ∀ slot, Unharmed slot ((initial maxTimes checkTime).ops slot) := by
    simp [Unharmed,initial]
  exact (along_invariant preserved ⟨initial_sound maxTimes checkTime,started⟩ schedule sequential).2 slot

/-- Each client is in one place, no pooled client has an outstanding operation, and cancels
and closes stay within their own `ModuleData`. -/
structure Exclusive (s : State) : Prop where
  owned : Owned s
  unpooled : ∀ slot, ∀ op ∈ s.ops slot, op.socket ∉ pooled s.pool.freeClients
  unharmed : ∀ slot, Unharmed slot (s.ops slot)

/-- A module resumes with `Mod_Timeout` only after a timer it armed in this context has expired. -/
def TimeOutsExpired (s : State) : Prop := ∀ a, .resumed a modTimeout ∈ s.log → TimedOut s.log a.slot

/-- Both hold in every run in which no two branches share a TcpModule. -/
theorem clients_exclusive (cfg : Config) (maxTimes : Int32) (checkTime : Int) (schedule : List Action)
    (sequential : Along (step cfg) Sequential (initial maxTimes checkTime) schedule) :
    let s := execute (step cfg) (initial maxTimes checkTime) schedule
    Exclusive s ∧ ((∀ a ∈ schedule, AbortsAreCancels a) → TimeOutsExpired s) := by
  intro s
  have sound := run_sound cfg maxTimes checkTime schedule sequential
  refine ⟨⟨sound.owned,fun slot op member => sound.unpooled op member,?_⟩,?_⟩
  · exact run_unharmed cfg maxTimes checkTime schedule sequential
  · intro aborts a member
    exact (run_explained cfg maxTimes checkTime schedule sequential aborts a.slot).resumed a rfl member

def connectTimesOut : List Action :=
  let slot : Slot := ⟨0,0⟩
  [.on slot (.run ⟨0,fun _ => false,some ("10.0.0.1",80),none,[],0⟩),.on slot .expire,
    .on slot (.timeOutHandler 0),.on slot (.handler 0 ⟨[],true,true,0⟩)]

theorem connectTimesOut_exclusive :
    let s := execute (step ⟨fun _ => 1,fun _ _ => 1⟩) (initial 0 0) connectTimesOut
    .resumed ⟨⟨0,0⟩,1⟩ modTimeout ∈ s.log ∧ Exclusive s ∧ TimeOutsExpired s := by
  have both := clients_exclusive ⟨fun _ => 1,fun _ _ => 1⟩ 0 0 connectTimesOut ⟨rfl,trivial,trivial,trivial,trivial⟩
  exact ⟨by decide,both.1,both.2 (by simp [connectTimesOut,AbortsAreCancels])⟩

/-- A new connection and a response of one byte of head and one of body, up to the
completion of its last read. -/
def responseRead (slot : Slot) (socket : Nat) : List Action :=
  let replies : Replies := ⟨[1],true,true,0⟩
  [.on slot (.run ⟨0,fun _ => false,some ("10.0.0.1",80),none,[],0⟩),
    .on slot (.complete 0 .success),.on slot (.handler 0 replies),
    .on slot (.complete 0 .success),.on slot (.handler 0 replies),.answer socket [7,8],
    .on slot (.transfer 0 1),.on slot (.complete 0 .success),.on slot (.handler 0 replies),
    .on slot (.transfer 0 1),.on slot (.complete 0 .success)]

/-- A second branch runs the module before `on_recv_resp_body` of the first. -/
def sharedResponse : List Action :=
  let slot : Slot := ⟨0,0⟩
  responseRead slot 0 ++ [.on slot (.run ⟨0,fun _ => false,some ("10.0.0.1",80),none,[],0⟩),
    .on slot (.handler 0 ⟨[1],true,true,0⟩)]

/-- A second branch runs the module while the connect of the first is outstanding. -/
def sharedClose : List Action :=
  let slot : Slot := ⟨0,0⟩
  let run : Action := .on slot (.run ⟨0,fun _ => false,some ("10.0.0.1",80),none,[],0⟩)
  [run,run,.on slot (.handler 0 ⟨[1],true,true,0⟩)]

/-- The client of the second branch is pooled while it connects; and the first resumes with
`Mod_Timeout`, as its client has been dropped, with no timer expired. -/
theorem shared_clients_not_exclusive :
    (let s := execute (step ⟨fun _ => 1,fun _ _ => 1⟩) (initial 0 0) sharedResponse;
      .start 1 ⟨⟨⟨0,0⟩,2⟩,.connect "10.0.0.1" 80⟩ ∈ s.ops ⟨0,0⟩ ∧ 1 ∈ pooled s.pool.freeClients ∧ ¬ Exclusive s) ∧
    (let s := execute (step ⟨fun _ => 1,fun _ _ => 1⟩) (initial 0 0) sharedClose;
      (∀ a ∈ sharedClose, AbortsAreCancels a) ∧ .resumed ⟨⟨0,0⟩,1⟩ modTimeout ∈ s.log ∧ ¬ TimeOutsExpired s) := by
  constructor
  · intro s
    have outstanding : .start 1 ⟨⟨⟨0,0⟩,2⟩,.connect "10.0.0.1" 80⟩ ∈ s.ops ⟨0,0⟩ := by decide
    have free : 1 ∈ pooled s.pool.freeClients := by decide
    exact ⟨outstanding,free,fun exclusive => exclusive.unpooled _ _ outstanding free⟩
  · intro s
    have resumed : .resumed ⟨⟨0,0⟩,1⟩ modTimeout ∈ s.log := by decide
    refine ⟨by simp [sharedClose,AbortsAreCancels],resumed,?_⟩
    intro expired
    obtain ⟨timeOut,member,_⟩ := expired _ resumed
    have log : s.log = ([.returned ⟨⟨0,0⟩,1⟩ modAsync,.returned ⟨⟨0,0⟩,2⟩ modAsync,
      .resumed ⟨⟨0,0⟩,1⟩ modTimeout] : List Event) := by decide
    simp [log] at member

end Zerver.TcpModule
