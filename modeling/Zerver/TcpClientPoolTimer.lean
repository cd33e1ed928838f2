import Zerver.Periodic
import Zerver.TcpClientPoolRuns

/-! The pool with its timer: how long a client may idle in it. `call_later` arms the
timer for `check_time_` seconds in the constructor and at the end of `check_clients`,
which its handler alone calls; `time` counts the same clock in whole seconds. -/
namespace Zerver.TcpClientPool

open Zerver.Schedule

/-- `check_time_ * 1000`, an int; a negative duration is over at once. -/
def checkPeriod (checkTime : Int) : Nat := (Int32.ofInt checkTime * 1000).toInt.toNat

/-- `time(NULL)` on a clock of milliseconds. -/
def time (now : Int) : Int := now / 1000

def isCheck : Action → Bool
  | .checkClients _ => true
  | _ => false

def isCall : Action → Bool
  | .checkClients _ | .pass _ => false
  | _ => true

def checks (checkTime : Int) : Periodic.Job State Action where
  step := step
  isJob := isCheck
  isCall := isCall
  period := checkPeriod checkTime
  wait := fun now later => [.pass (time later - time now).toNat]

def construct (maxTimes : Int32) (checkTime now : Int) : Periodic.State State :=
  Periodic.initial (checks checkTime) now (initial maxTimes checkTime (time now))

theorem checkPeriod_eq (checkTime : Int) (positive : 0 ≤ checkTime) (fits : checkTime * 1000 < 2147483648) :
    (checkPeriod checkTime : Int) = checkTime * 1000 := by
  have whole : (Int32.ofInt checkTime * 1000).toInt = checkTime * 1000 := by
    rw [Int32.toInt_mul,Int32.toInt_ofInt,show (1000 : Int32).toInt = 1000 from rfl,Int.bmod_mul_bmod]
    rw [Int.bmod_def,Int32.size]
    omega
  rw [checkPeriod,whole,Int.toNat_of_nonneg (by omega)]

/-- The pool's own clock against the timer's. -/
structure Clocked (maxTimes : Int32) (checkTime last now : Int) (s : State) : Prop where
  sound : Sound maxTimes checkTime s
  clock : s.clock = time now
  lastCheck : s.lastCheck = time last

theorem step_clock (s : State) (a : Action) (calls : isCall a = true) :
    (step s a).clock = s.clock ∧ (step s a).lastCheck = s.lastCheck := by
  cases a with
  | checkClients error => contradiction
  | pass seconds => contradiction
  | create peer => exact ⟨rfl,rfl⟩
  | recollect client =>
    cases client with
    | none => exact ⟨rfl,rfl⟩
    | some c =>
      simp only [step]
      split <;> exact ⟨rfl,rfl⟩
  | getClient peer error => exact ⟨rfl,rfl⟩
  | close c => exact ⟨rfl,rfl⟩
  | drop c =>
    simp only [step]
    split <;> exact ⟨rfl,rfl⟩

theorem Clocked.called (clocked : Clocked maxTimes checkTime last now s) (a : Action) (calls : isCall a = true) :
    Clocked maxTimes checkTime last now (step s a) := by
  obtain ⟨clock,lastCheck⟩ := step_clock s a calls
  exact ⟨step_sound maxTimes checkTime s a clocked.sound,clock.trans clocked.clock,lastCheck.trans clocked.lastCheck⟩

theorem Clocked.passed (clocked : Clocked maxTimes checkTime last now s) (further : now ≤ later) :
    Clocked maxTimes checkTime last later (step s (.pass (time later - time now).toNat)) := by
  refine ⟨step_sound maxTimes checkTime s _ clocked.sound,?_,clocked.lastCheck⟩
  have forward : time now ≤ time later := Int.ediv_le_ediv (by decide) further
  simp only [step,clocked.clock]
  omega

theorem Clocked.checked (clocked : Clocked maxTimes checkTime last now s) (a : Action) (check : isCheck a = true) :
    Clocked maxTimes checkTime now now (step s a) := by
  cases a with
  | checkClients error =>
    exact ⟨step_sound maxTimes checkTime s _ clocked.sound,clocked.clock,clocked.clock⟩
  | create peer => contradiction
  | recollect client => contradiction
  | getClient peer error => contradiction
  | close c => contradiction
  | drop c => contradiction
  | pass seconds => contradiction

theorem construct_clocked (maxTimes : Int32) (checkTime now : Int) :
    Clocked maxTimes checkTime now now (initial maxTimes checkTime (time now)) :=
  ⟨initial_sound maxTimes checkTime (time now),rfl,rfl⟩

/-- What the last check has left is younger than `check_time_`, and the next one is not far. -/
theorem Clocked.young (clocked : Clocked maxTimes checkTime last now s) (positive : 0 < checkTime)
    (late : now ≤ last + checkTime * 1000 + delay) (c : Nat) (member : c ∈ pooled s.pool.freeClients) :
    now < (s.clients c).lastTouchTime * 1000 + 2 * (checkTime * 1000) + delay := by
  have left := clocked.sound.young positive c member
  rw [clocked.lastCheck,time] at left
  omega

/-- How long a client idles in the pool. In every run, one check is under way at any time
and no two come closer than `check_time_`. With no check more than `delay` late, a client
in the pool, also one about to be returned, has been idle for less than twice
`check_time_` and `delay`; and a check drops for its age no client younger than
`check_time_`, as `time` counts it. -/
theorem idle_timed (maxTimes : Int32) (checkTime now : Int) (positive : 0 < checkTime) (fits : checkTime * 1000 < 2147483648)
    (delay : Nat) (schedule : List (Periodic.Action Action))
    (punctual : Along (Periodic.step (checks checkTime)) (Periodic.Meets (some delay) fun _ _ => True)
      (construct maxTimes checkTime now) schedule) :
    let s := execute (Periodic.step (checks checkTime)) (construct maxTimes checkTime now) schedule
    Periodic.Sound (checks checkTime) s ∧
    (∀ c ∈ pooled s.inner.pool.freeClients,
      s.now < (s.inner.clients c).lastTouchTime * 1000 + 2 * (checkTime * 1000) + delay) ∧
    (∀ error peer c, (getClient error peer s.inner.pool s.inner.heap).1 = some c →
      s.now < (s.inner.clients c).lastTouchTime * 1000 + 2 * (checkTime * 1000) + delay) ∧
    ∀ c, expired s.inner.clock checkTime (s.inner.clients c) = true ↔
      (s.inner.clients c).lastTouchTime * 1000 + checkTime * 1000 ≤ s.now := by
  intro s
  have period := checkPeriod_eq checkTime (Int.le_of_lt positive) fits
  obtain ⟨sound,onTime,clocked⟩ := Periodic.repeats (checks checkTime) (I := Clocked maxTimes checkTime)
    (fun _ _ _ a calls _ _ holds => holds.called a calls)
    (fun _ _ _ _ further holds => holds.passed further)
    (fun _ _ _ a check _ _ _ holds => holds.checked a check)
    (Periodic.initial_sound (checks checkTime) now _) (Periodic.initial_onTime (some delay) now _)
    (construct_clocked maxTimes checkTime now) schedule punctual
  have late : s.now ≤ s.last + checkTime * 1000 + delay := period ▸ onTime delay rfl
  have young := clocked.young positive late
  refine ⟨sound,young,?_,?_⟩
  · intro error peer c returned
    exact young c (dequeOf_pooled _ _ (getClient_mem error peer clocked.sound.held returned))
  · intro c
    have clock : s.inner.clock = s.now / 1000 := clocked.clock
    rw [expired,decide_eq_true_eq,clock]
    omega

/-- A client taken back after a second, past one late check. -/
def idling : List (Periodic.Action Action) :=
  [.pass 1000,.call (.create 7),.call (.recollect (some 0)),.pass 9400,.expire,
    .handler 0 (.checkClients fun _ _ => false),.pass 9000]

theorem idling_client_timed :
    let s := execute (Periodic.step (checks 10)) (construct 0 10 0) idling
    s.now = 19400 ∧ (getClient (fun _ => false) 7 s.inner.pool s.inner.heap).1 = some 0 ∧
      s.now < (s.inner.clients 0).lastTouchTime * 1000 + 2 * (10 * 1000) + 500 := by
  intro s
  have returned : (getClient (fun _ => false) 7 s.inner.pool s.inner.heap).1 = some 0 := by decide
  refine ⟨by decide,returned,?_⟩
  refine (idle_timed 0 10 0 (by decide) (by decide) 500 idling ?_).2.2.1 (fun _ => false) 7 0 returned
  simp only [idling,Along,Periodic.Meets,and_true,true_and,Option.mem_def,Option.some.injEq,forall_eq']
  decide

end Zerver.TcpClientPool
