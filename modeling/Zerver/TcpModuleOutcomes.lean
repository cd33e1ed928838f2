import Zerver.TcpModuleOwnership

/-! What the Fsm sees of a step of the TcpModules: the state that a call of `run` returns,
the state that a handler resumes with, or nothing. -/
namespace Zerver.TcpModule

open Zerver.Asio

/-- Events that are not the end of a call of `run`, nor of the attempt. -/
def Event.silent : Event → Bool
  | .returned _ _ | .resumed _ _ => false
  | _ => true

/-- How many calls of `run` with one `ModuleData` have returned. -/
def returnsOf (log : List Event) (slot : Slot) : Nat :=
  log.countP fun
    | .returned attempt _ => attempt.slot = slot
    | _ => false

/-- How many attempts with one `ModuleData` have resumed. -/
def resumesOf (log : List Event) (slot : Slot) : Nat :=
  log.countP fun
    | .resumed attempt _ => attempt.slot = slot
    | _ => false

@[simp] theorem returnsOf_append (log events : List Event) (slot : Slot) :
    returnsOf (log ++ events) slot = returnsOf log slot + returnsOf events slot := List.countP_append

@[simp] theorem resumesOf_append (log events : List Event) (slot : Slot) :
    resumesOf (log ++ events) slot = resumesOf log slot + resumesOf events slot := List.countP_append

@[simp] theorem returnsOf_returned (attempt : Attempt) (state : ModState) (slot : Slot) :
    returnsOf [.returned attempt state] slot = if attempt.slot = slot then 1 else 0 := by simp [returnsOf]

@[simp] theorem resumesOf_resumed (attempt : Attempt) (state : ModState) (slot : Slot) :
    resumesOf [.resumed attempt state] slot = if attempt.slot = slot then 1 else 0 := by simp [resumesOf]

@[simp] theorem returnsOf_resumed (attempt : Attempt) (state : ModState) (slot : Slot) :
    returnsOf [.resumed attempt state] slot = 0 := rfl

@[simp] theorem resumesOf_returned (attempt : Attempt) (state : ModState) (slot : Slot) :
    resumesOf [.returned attempt state] slot = 0 := rfl

theorem returnsOf_silent (events : List Event) (silent : ∀ event ∈ events, event.silent) (slot : Slot) :
    returnsOf events slot = 0 := by
  refine List.countP_eq_zero.mpr fun event member => ?_
  have quiet := silent event member
  cases event with
  | returned attempt state => cases quiet
  | _ => exact Bool.false_ne_true

theorem resumesOf_silent (events : List Event) (silent : ∀ event ∈ events, event.silent) (slot : Slot) :
    resumesOf events slot = 0 := by
  refine List.countP_eq_zero.mpr fun event member => ?_
  have quiet := silent event member
  cases event with
  | resumed attempt state => cases quiet
  | _ => exact Bool.false_ne_true

/-- What a step shows the Fsm, and which `ModuleData` are busy after it. -/
inductive Outcome (s s' : State) : Action → Prop where
  | silent (events : List Event) : s'.log = s.log ++ events → (∀ event ∈ events, event.silent) →
      (∀ slot, s'.ops slot = [] ↔ s.ops slot = []) → Outcome s s' a
  | returned (attempt : Attempt) (state : ModState) : attempt.slot = slot →
      s'.log = s.log ++ [.returned attempt state] → s.ops slot = [] →
      (state = modAsync ∧ s'.ops slot ≠ [] ∨ state = modFailed ∧ s'.ops slot = []) →
      (∀ other, other ≠ slot → s'.ops other = s.ops other) → Outcome s s' (.on slot (.run args))
  | resumed (events : List Event) (attempt : Attempt) (state : ModState) : attempt.slot = slot →
      s'.log = s.log ++ (events ++ [.resumed attempt state]) → (∀ event ∈ events, event.silent) →
      state = modSucceed ∨ state = modFailed ∨ state = modTimeout → s.ops slot ≠ [] → s'.ops slot = [] →
      (∀ other, other ≠ slot → s'.ops other = s.ops other) → Outcome s s' (.on slot (.handler 0 replies))

section Outcomes

variable {s s' : State} {slot : Slot}

theorem update_ops_nil (ops : List Op) (same : ops = [] ↔ s.ops slot = []) (other : Slot) :
    Function.update s.ops slot ops other = [] ↔ s.ops other = [] := by
  by_cases here : other = slot
  · subst here
    rw [Function.update_self]
    exact same
  · rw [Function.update_of_ne here]

theorem failureHook_silent (task : Task) : (failureHook task).silent := by
  unfold failureHook
  split <;> rfl

theorem timeOutHook_silent (timeOut : TimeOut) : (timeOutHook timeOut).silent := by
  cases timeOut <;> rfl

theorem Ran.outcome (ran : Ran args slot (s.data slot) found data ops events) (idle : s.ops slot = [])
    (clients : Nat → TcpClientPool.TcpClient) (pool : TcpClientPool.Pool) :
    Outcome s ((s.store clients pool).install slot data ops events) (.on slot (.run args)) := by
  cases ran with
  | reused =>
    exact .returned _ modAsync rfl rfl idle (.inl ⟨rfl,by simp [State.install]⟩)
      fun other apart => Function.update_of_ne apart ..
  | failed _ =>
    exact .returned _ modFailed rfl rfl idle (.inr ⟨rfl,by simp [State.install]⟩)
      fun other apart => Function.update_of_ne apart ..

theorem Opened.outcome (opened : Opened slot (s.data slot) s.fresh data ops events) (idle : s.ops slot = [])
    (clients : Nat → TcpClientPool.TcpClient) (pool : TcpClientPool.Pool) :
    Outcome s ((s.store clients pool).create.install slot data ops events) (.on slot (.run args)) := by
  cases opened with
  | connecting =>
    exact .returned _ modAsync rfl rfl idle (.inl ⟨rfl,by simp [State.install]⟩)
      fun other apart => Function.update_of_ne apart ..
  | failed =>
    exact .returned _ modFailed rfl rfl idle (.inr ⟨rfl,by simp [State.install]⟩)
      fun other apart => Function.update_of_ne apart ..

theorem Handled.outcome (handled : Handled cfg op replies (s.data slot) error data ops events)
    (only : s.ops slot = [op]) (own : op.task.attempt = ⟨slot,(s.data slot).serial⟩)
    (clients : Nat → TcpClientPool.TcpClient) :
    Outcome s ((s.store clients s.pool).install slot data ops events) (.on slot (.handler 0 replies)) := by
  have here : op.task.attempt.slot = slot := by rw [own]
  have busy : s.ops slot ≠ [] := by simp [only]
  cases handled with
  | aborted =>
    exact .resumed [] op.task.attempt modTimeout here rfl (by simp) (.inr (.inr rfl)) busy
      (Function.update_self ..) fun other apart => Function.update_of_ne apart ..
  | failed =>
    exact .resumed [failureHook op.task] op.task.attempt modFailed here rfl
      (by simp [failureHook_silent]) (.inr (.inl rfl)) busy (Function.update_self ..)
      fun other apart => Function.update_of_ne apart ..
  | headRejected _ =>
    exact .resumed [_,_] op.task.attempt modFailed here rfl (by simp [Event.silent]) (.inr (.inl rfl)) busy
      (Function.update_self ..) fun other apart => Function.update_of_ne apart ..
  | connected _ | written _ | headAccepted _ =>
    exact .silent _ rfl (by simp [Event.silent]) (update_ops_nil _ (iff_of_false (by simp) busy))

theorem Fired.ops_nil (fired : Fired slot timeOut ops client ops' events) : ops' = [] ↔ ops = [] := by
  cases fired <;> simp

theorem Fired.silent (fired : Fired slot timeOut ops client ops' events) : ∀ event ∈ events, event.silent := by
  cases fired with
  | cancelled =>
    simp only [List.mem_cons,List.not_mem_nil,or_false,forall_eq_or_imp,forall_eq]
    exact ⟨rfl,rfl,timeOutHook_silent timeOut⟩
  | missing =>
    simp only [List.mem_cons,List.not_mem_nil,or_false,forall_eq_or_imp,forall_eq]
    exact ⟨rfl,timeOutHook_silent timeOut⟩

theorem Move.outcome (move : Move cfg s a s') : Outcome s s' a := by
  cases move with
  | stay => exact .silent [] (by simp) (by simp) fun _ => .rfl
  | rejected idle =>
    exact .returned _ modFailed rfl rfl idle (.inr ⟨rfl,Function.update_self ..⟩)
      fun other apart => Function.update_of_ne apart ..
  | ran dropped idle _ ran => exact ran.outcome idle _ _
  | opened dropped idle _ opened => exact opened.outcome idle _ _
  | @completed slot op code only _ _ =>
    refine .silent (completion op code) (delivered_log ..) ?_ ?_
    · unfold completion
      split <;> simp [Event.silent]
    · rw [(delivered_fields op code _).2.2.2]
      exact update_ops_nil _ (by simp [only])
  | transferred only _ _ =>
    exact .silent [] (List.append_nil _).symm (by simp) (update_ops_nil _ (by simp [only]))
  | handled only _ _ own _ handled => exact handled.outcome only own _
  | bodyRead only _ _ own _ _ _ =>
    refine .resumed [_] _ _ (by rw [own]) rfl (by simp [Event.silent]) ?_ (by simp [only]) (Function.update_self ..)
      fun other apart => Function.update_of_ne apart ..
    split
    · exact .inl rfl
    · exact .inr (.inl rfl)
  | expired => exact .silent [] (by simp [State.setTimer,State.setData]) (by simp) fun _ => .rfl
  | ignored _ _ => exact .silent [] (by simp [State.setTimer,State.setData]) (by simp) fun _ => .rfl
  | fired _ fired => exact .silent _ rfl fired.silent (update_ops_nil _ fired.ops_nil)
  | answered _ _ => exact .silent [_] rfl (by simp [Event.silent]) fun _ => .rfl
  | swept _ => exact .silent [] (by simp [State.store]) (by simp) fun _ => .rfl

/-- A `ModuleData` as it is made stays so until its module is run. -/
theorem Move.untouched (sound : Sound none s) (move : Move cfg s a s') (made : s.data slot = ⟨none,.none,.idle,0⟩)
    (other : ∀ args, a ≠ .on slot (.run args)) : s'.data slot = ⟨none,.none,.idle,0⟩ := by
  have idle : s.ops slot = [] := (sound.balanced.flagged slot).quiet (by simp [made])
  have apart (slot' : Slot) (ops : s.ops slot' ≠ []) : slot ≠ slot' := by
    rintro rfl
    exact ops idle
  have still (slot' : Slot) (index : Nat) (entry : TimeOut × ErrorCode)
      (queued : (s.data slot').timer.queued[index]? = some entry) : slot ≠ slot' := by
    rintro rfl
    simp [made,Timer.idle] at queued
  have elsewhere (slot' : Slot) (here : slot ≠ slot') (data : ModuleData) :
      Function.update s.data slot' data slot = ⟨none,.none,.idle,0⟩ := by
    rw [Function.update_of_ne here]
    exact made
  cases move with
  | stay | answered _ _ | swept _ => exact made
  | rejected _ => exact elsewhere _ (fun same => other _ (by rw [same])) _
  | ran _ _ _ _ => exact elsewhere _ (fun same => other _ (by rw [same])) _
  | opened _ _ _ _ => exact elsewhere _ (fun same => other _ (by rw [same])) _
  | completed _ _ _ =>
    rw [(delivered_fields ..).1]
    exact made
  | transferred only _ _ => exact made
  | handled only _ _ _ _ _ => exact elsewhere _ (apart _ (by simp [only])) _
  | bodyRead only _ _ _ _ _ _ => exact elsewhere _ (apart _ (by simp [only])) _
  | @expired slot' =>
    by_cases here : slot = slot'
    · subst here
      simp [State.setTimer,State.setData,made,Timer.expire,Timer.idle]
    · exact elsewhere slot' here _
  | ignored queued _ => exact elsewhere _ (still _ _ _ queued) _
  | fired queued _ => exact elsewhere _ (still _ _ _ queued) _

end Outcomes

end Zerver.TcpModule
