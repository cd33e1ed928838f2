import Mathlib.Data.List.Perm.Basic

/-! Completion codes and deadline timers of an asynchronous I/O service. A wait that
has expired sits in the service's queue with success; cancelling or re-arming the
timer only reaches the waits that have not expired. Queued handlers run in any order. -/
namespace Zerver.Asio

inductive ErrorCode where
  | success
  | aborted
  | failed
  deriving DecidableEq, Repr

structure Timer (η : Type) where
  waiting : List η
  queued : List (η × ErrorCode)
  deriving DecidableEq, Repr

namespace Timer

variable {η : Type} {t : Timer η} {h : η}

def idle : Timer η := ⟨[],[]⟩

def cancel (t : Timer η) : Timer η := ⟨[],t.queued ++ t.waiting.map (·,.aborted)⟩

/-- Setting a new expiry time cancels the pending waits. -/
def expiresFromNow (t : Timer η) : Timer η := t.cancel

def asyncWait (h : η) (t : Timer η) : Timer η := { t with waiting := t.waiting ++ [h] }

def arm (h : η) (t : Timer η) : Timer η := t.expiresFromNow.asyncWait h

def expire (t : Timer η) : Timer η := ⟨[],t.queued ++ t.waiting.map (·,.success)⟩

/-- Takes the i-th queued handler out of the queue. -/
def take (i : Nat) (t : Timer η) : Timer η := { t with queued := t.queued.eraseIdx i }

/-- Every handler the timer still holds, pending or queued, meets `P`. -/
structure All (P : η → Prop) (t : Timer η) : Prop where
  waiting : ∀ h ∈ t.waiting, P h
  queued : ∀ entry ∈ t.queued, P entry.1

def count (p : η → Bool) (t : Timer η) : Nat :=
  t.waiting.countP p + t.queued.countP (fun entry => p entry.1)

/-- The queued handlers that no cancel can recall. -/
def expiries (t : Timer η) : List η :=
  t.queued.filterMap fun entry => if entry.2 = .success then some entry.1 else none

/-- The handlers that will run with success unless a cancel comes first. -/
def pending (t : Timer η) : List η := t.waiting ++ t.expiries

/-- A handler of this timer will still run with success. -/
def Live (t : Timer η) : Prop := t.waiting ≠ [] ∨ ∃ h, (h,.success) ∈ t.queued

@[simp] theorem arm_waiting (h : η) (t : Timer η) : (t.arm h).waiting = [h] := rfl

@[simp] theorem arm_queued (h : η) (t : Timer η) :
    (t.arm h).queued = t.queued ++ t.waiting.map (·,.aborted) := rfl

@[simp] theorem cancel_waiting (t : Timer η) : t.cancel.waiting = [] := rfl

@[simp] theorem cancel_queued (t : Timer η) :
    t.cancel.queued = t.queued ++ t.waiting.map (·,.aborted) := rfl

@[simp] theorem expire_waiting (t : Timer η) : t.expire.waiting = [] := rfl

@[simp] theorem expire_queued (t : Timer η) :
    t.expire.queued = t.queued ++ t.waiting.map (·,.success) := rfl

@[simp] theorem take_waiting (i : Nat) (t : Timer η) : (t.take i).waiting = t.waiting := rfl

theorem arm_live (h : η) (t : Timer η) : (t.arm h).Live := .inl (by simp)

/-- Expiry moves a time-out along; it does not lose it. -/
theorem expire_live (live : t.Live) : t.expire.Live := by
  rcases live with waiting | ⟨h,queued⟩
  · obtain ⟨h,member⟩ := List.exists_mem_of_ne_nil _ waiting
    exact .inr ⟨h,List.mem_append_right _ (List.mem_map_of_mem member)⟩
  · exact .inr ⟨h,List.mem_append_left _ queued⟩

theorem mem_of_mem_take {i : Nat} {entry : η × ErrorCode} (member : entry ∈ (t.take i).queued) :
    entry ∈ t.queued := List.mem_of_mem_eraseIdx member

theorem take_live {i : Nat} {entry : η × ErrorCode} (live : t.Live)
    (found : t.queued[i]? = some entry) (other : entry.2 ≠ .success) : (t.take i).Live := by
  apply live.imp_right
  rintro ⟨h,queued⟩
  obtain ⟨bound,rfl⟩ := List.getElem?_eq_some_iff.mp found
  refine ⟨h,(List.mem_cons.mp ((List.getElem_cons_eraseIdx_perm bound).mem_iff.mpr queued)).resolve_left ?_⟩
  intro same
  exact other (by rw [← same])

theorem All.imp {P Q : η → Prop} (all : t.All P) (weaker : ∀ h, P h → Q h) : t.All Q :=
  ⟨fun h member => weaker h (all.waiting h member),fun entry member => weaker _ (all.queued entry member)⟩

theorem idle_all (P : η → Prop) : (idle : Timer η).All P := ⟨by simp [idle],by simp [idle]⟩

theorem All.flush {P : η → Prop} (all : t.All P) (code : ErrorCode) :
    (⟨[],t.queued ++ t.waiting.map (·,code)⟩ : Timer η).All P := by
  refine ⟨by simp,?_⟩
  intro entry member
  rcases List.mem_append.mp member with old | new
  · exact all.queued entry old
  · obtain ⟨h,pending,rfl⟩ := List.mem_map.mp new
    exact all.waiting h pending

theorem All.cancel {P : η → Prop} (all : t.All P) : t.cancel.All P := all.flush .aborted

theorem All.expire {P : η → Prop} (all : t.All P) : t.expire.All P := all.flush .success

theorem All.arm {P : η → Prop} (all : t.All P) (new : P h) : (t.arm h).All P :=
  ⟨by simpa using new,all.cancel.queued⟩

theorem All.take {P : η → Prop} (all : t.All P) (i : Nat) : (t.take i).All P :=
  ⟨all.waiting,fun entry member => all.queued entry (mem_of_mem_take member)⟩

@[simp] theorem pending_cancel (t : Timer η) : t.cancel.pending = t.expiries := by
  have recalled : (t.waiting.map fun h => (h,ErrorCode.aborted)).filterMap
      (fun entry => if entry.2 = .success then some entry.1 else none) = [] := by
    simp
  simp only [pending,expiries,cancel_waiting,cancel_queued,List.nil_append,List.filterMap_append,recalled,
    List.append_nil]

theorem expiries_of_pending (none : t.pending = []) : t.expiries = [] :=
  (List.append_eq_nil_iff.mp none).2

/-- No cancel recalls an expiry. -/
@[simp] theorem expiries_cancel (t : Timer η) : t.cancel.expiries = t.expiries := pending_cancel t

@[simp] theorem pending_arm (h : η) (t : Timer η) : (t.arm h).pending = h :: t.expiries := by
  rw [← pending_cancel t]
  rfl

@[simp] theorem pending_expire (t : Timer η) : t.expire.pending = t.expiries ++ t.waiting := by
  simp [pending,expiries,List.filterMap_append,List.filterMap_map]

theorem pending_take (t : Timer η) {i : Nat} {h : η} (found : t.queued[i]? = some (h,.success)) :
    t.pending.Perm (h :: (t.take i).pending) := by
  obtain ⟨bound,entry⟩ := List.getElem?_eq_some_iff.mp found
  have split := ((List.getElem_cons_eraseIdx_perm bound).filterMap
    fun entry => if entry.2 = .success then some entry.1 else none).symm
  rw [entry] at split
  exact (split.append_left t.waiting).trans List.perm_middle

theorem pending_take_other (t : Timer η) {i : Nat} {entry : η × ErrorCode}
    (found : t.queued[i]? = some entry) (other : entry.2 ≠ .success) :
    (t.take i).pending.Perm t.pending := by
  obtain ⟨bound,rfl⟩ := List.getElem?_eq_some_iff.mp found
  have split := (List.getElem_cons_eraseIdx_perm bound).filterMap
    fun entry => if entry.2 = .success then some entry.1 else none
  rw [List.filterMap_cons_none (by simp [other])] at split
  exact split.append_left t.waiting

theorem mem_expiries : h ∈ t.expiries ↔ (h,.success) ∈ t.queued := by
  simp [expiries,List.mem_filterMap]

theorem live_iff_pending : t.Live ↔ t.pending ≠ [] := by
  have queued : (∃ h, (h,.success) ∈ t.queued) ↔ t.expiries ≠ [] := by
    rw [ne_eq,List.eq_nil_iff_forall_not_mem,not_forall_not]
    exact exists_congr fun h => mem_expiries.symm
  rw [Live,queued,pending,ne_eq,ne_eq,ne_eq,List.append_eq_nil_iff,not_and_or]

theorem count_flush (p : η → Bool) (t : Timer η) (code : ErrorCode) :
    (⟨[],t.queued ++ t.waiting.map (·,code)⟩ : Timer η).count p = t.count p := by
  simp [count,List.countP_append,List.countP_map,Function.comp_def,Nat.add_comm]

@[simp] theorem count_cancel (p : η → Bool) (t : Timer η) : t.cancel.count p = t.count p :=
  count_flush p t .aborted

@[simp] theorem count_expire (p : η → Bool) (t : Timer η) : t.expire.count p = t.count p :=
  count_flush p t .success

theorem count_arm (p : η → Bool) (t : Timer η) (h : η) :
    (t.arm h).count p = t.count p + if p h then 1 else 0 := by
  rw [← count_cancel p t]
  simp only [count,arm_waiting,arm_queued,cancel_waiting,cancel_queued,List.countP_cons,List.countP_nil]
  omega

theorem count_take (p : η → Bool) (t : Timer η) {i : Nat} {entry : η × ErrorCode}
    (found : t.queued[i]? = some entry) :
    (t.take i).count p + (if p entry.1 then 1 else 0) = t.count p := by
  obtain ⟨bound,rfl⟩ := List.getElem?_eq_some_iff.mp found
  have counted := (List.getElem_cons_eraseIdx_perm bound).countP_eq (fun entry => p entry.1)
  simp only [List.countP_cons] at counted
  simp only [count,take]
  omega

end Timer

end Zerver.Asio
