import Zerver.LoadBalancerServers
import Zerver.Periodic

/-! The load balancer with its timer: how long an address is kept away once it has been
reported. `call_later` arms the timer for `RECOVER_TIME` seconds in the constructor and
at the end of `clear_bad_ips`, which its handler alone calls. -/
namespace Zerver.LoadBalancer

open Zerver.Schedule

/-- `RECOVER_TIME`, in seconds. -/
def recoverTime : Nat := 180

def isClear : Action → Bool
  | .clearBadIps => true
  | _ => false

/-- The addresses are rotated by the timer; they see nothing of the clock. -/
def rotation : Periodic.Job State Action where
  step := step
  isJob := isClear
  isCall := fun a => !isClear a
  period := recoverTime * 1000
  wait := fun _ _ => []

def construct (now : Int) (ips : List String) (port : UInt16) : Periodic.State State :=
  Periodic.initial rotation now (initial ips port)

@[simp] theorem byHash_kept (s : State) (hash : Int32) :
    (step s (.getAliveIpByHash hash)).balancer = s.balancer := rfl

@[simp] theorem random_kept (s : State) (order : Order) (rand : Nat) :
    (step s (.getAliveIpRandom order rand)).balancer = s.balancer := rfl

theorem isClear_iff (a : Action) : isClear a = true ↔ a = .clearBadIps := by cases a <;> simp [isClear]

/-- Where an address is that was reported at `since`, and how long it stays away: in
`bad_ips_` until a rotation, then in `good_ips_` until the next one. -/
def Away (ip : String) (since last now : Int) (s : State) : Prop :=
  ip ∉ s.balancer.aliveIps ∧ (ip ∉ s.balancer.goodIps ∨ since ≤ last) ∨ since + recoverTime * 1000 ≤ now

theorem Away.called (away : Away ip since last now s) (a : Action) (other : isClear a = false) :
    Away ip since last now (step s a) := by
  cases a with
  | clearBadIps => contradiction
  | serverConnectFail failed =>
    refine away.imp_left fun still => ⟨?_,still.2⟩
    exact fun alive => still.1 (Finset.mem_of_mem_erase alive)
  | getAliveIpByHash hash => exact away
  | getAliveIpRandom order rand => exact away

theorem Away.rotated (away : Away ip since last now s) (before : since ≤ now)
    (period : last + recoverTime * 1000 ≤ now) : Away ip since now now (step s .clearBadIps) := by
  rcases away with ⟨dead,ungood | earlier⟩ | gone
  · -- The first rotation since: the address moves on to `good_ips_`, if it is in `bad_ips_`.
    refine .inl ⟨?_,.inr before⟩
    exact Finset.notMem_union.mpr ⟨dead,ungood⟩
  · exact .inr (by omega)
  · exact .inr gone

/-- Where an address is that is not reported again after `since`, with no rotation more
than `delay` late. -/
def Returning (ip : String) (since : Int) (delay : Option Nat) (last : Int) (s : State) : Prop :=
  (ip ∈ s.balancer.badIps ∧ last ≤ since) ∨
  (ip ∈ s.balancer.goodIps ∧ ip ∉ s.balancer.badIps ∧ ∀ d ∈ delay, last ≤ since + recoverTime * 1000 + d) ∨
  (ip ∈ s.balancer.aliveIps ∧ ip ∉ s.balancer.badIps)

theorem Returning.called (returning : Returning ip since delay last s) (a : Action) (other : isClear a = false)
    (unreported : a ≠ .serverConnectFail ip) : Returning ip since delay last (step s a) := by
  cases a with
  | clearBadIps => contradiction
  | serverConnectFail failed =>
    have apart : ip ≠ failed := fun same => unreported (congrArg _ same.symm)
    simp only [Returning,step,serverConnectFail,Finset.mem_insert,Finset.mem_erase,apart,ne_eq,not_false_eq_true,
      false_or,true_and]
    exact returning
  | getAliveIpByHash hash => exact returning
  | getAliveIpRandom order rand => exact returning

theorem Returning.rotated (returning : Returning ip since delay last s)
    (onTime : ∀ d ∈ delay, now ≤ last + recoverTime * 1000 + d) :
    Returning ip since delay now (step s .clearBadIps) := by
  have clean : ip ∉ (step s .clearBadIps).balancer.badIps := Finset.notMem_empty ip
  rcases returning with ⟨bad,first⟩ | ⟨good,_,_⟩ | ⟨alive,_⟩
  · refine .inr (.inl ⟨bad,clean,?_⟩)
    intro d within
    have := onTime d within
    omega
  · exact .inr (.inr ⟨Finset.mem_union_right _ good,clean⟩)
  · exact .inr (.inr ⟨Finset.mem_union_left _ alive,clean⟩)

/-- The hash getter leaves an address alone until a rotation. -/
def Avoided (ip : String) (since last : Int) (s : State) : Prop := ip ∈ s.balancer.badIps ∨ since ≤ last

theorem Avoided.called (avoided : Avoided ip since last s) (a : Action) (other : isClear a = false) :
    Avoided ip since last (step s a) := by
  cases a with
  | clearBadIps => contradiction
  | serverConnectFail failed => exact avoided.imp_left (Finset.mem_insert_of_mem ·)
  | getAliveIpByHash hash => exact avoided
  | getAliveIpRandom order rand => exact avoided

theorem byHash_returns (b : Balancer) (hash : Int32) (port : UInt16) (ip : String)
    (here : b.ips[(hashIndex hash b.ips.length).toInt64.toUInt64.toNat]? = some ip) :
    getAliveIpByHash hash port b = some (if ip ∈ b.badIps then ⟨false,"",port⟩ else ⟨true,ip,b.port⟩) := by
  have configured : b.ips ≠ [] := by
    rintro empty
    simp [empty] at here
  simp only [getAliveIpByHash,if_neg configured,here]
  split <;> rfl

theorem byHash_unreported (b : Balancer) (hash : Int32) (port other : UInt16) (ip : String)
    (returned : getAliveIpByHash hash port b = some ⟨true,ip,other⟩) : ip ∉ b.badIps := by
  simp only [getAliveIpByHash] at returned
  split at returned
  · cases returned
  · split at returned
    · cases returned
    · split at returned
      · cases returned
      · rename_i reported
        cases returned
        exact reported

theorem step_counted (s : State) (ip : String) (a : Action) (counted : (rotations ip s.history).isSome) :
    (rotations ip (step s a).history).isSome := by
  cases a with
  | serverConnectFail other =>
    simp only [step,rotations_failed]
    split
    · rfl
    · exact counted
  | clearBadIps => simpa only [step,rotations_cleared,Option.isSome_map] using counted
  | getAliveIpByHash hash =>
    cases reply : getAliveIpByHash hash 0 s.balancer with
    | none => simpa [step,reply] using counted
    | some reply' => simpa only [step,reply,Option.map_some,Option.getD_some,rotations_answer] using counted
  | getAliveIpRandom order rand => simpa only [step,rotations_answer] using counted

theorem run_counted (s : State) (ip : String) (counted : (rotations ip s.history).isSome) (schedule : List Action) :
    (rotations ip (execute step s schedule).history).isSome :=
  execute_invariant (I := fun s : State => (rotations ip s.history).isSome)
    (fun s a => step_counted s ip a) counted schedule

theorem step_configured (s : State) (a : Action) :
    (step s a).balancer.ips = s.balancer.ips ∧ (step s a).balancer.port = s.balancer.port := by
  cases a <;> exact ⟨rfl,rfl⟩

/-- The rule of the timer, for a property that the calls of others and rotations keep. -/
theorem rotates {delay : Option Nat} {cond : State → Action → Prop} {I : Int → Int → State → Prop}
    (called : ∀ last now x a, isClear a = false → cond x a → last ≤ now → I last now x → I last now (step x a))
    (passed : ∀ last now later x, now ≤ later → I last now x → I last later x)
    (rotated : ∀ (last now : Int) x, last + recoverTime * 1000 ≤ now →
      (∀ d ∈ delay, now ≤ last + recoverTime * 1000 + d) → I last now x → I now now (step x .clearBadIps))
    {s : Periodic.State State} (sound : Periodic.Sound rotation s) (onTime : Periodic.OnTime rotation delay s)
    (start : I s.last s.now s.inner) (schedule : List (Periodic.Action Action))
    (along : Along (Periodic.step rotation) (Periodic.Meets delay cond) s schedule) :
    let t := execute (Periodic.step rotation) s schedule
    Periodic.OnTime rotation delay t ∧ I t.last t.now t.inner := by
  refine (Periodic.repeats rotation (fun last now x a other => called last now x a ?_) passed ?_ sound onTime start
    schedule along).2
  · exact Bool.not_eq_true' _ ▸ other
  · intro last now x a clear _ period late holds
    rw [(isClear_iff a).mp clear]
    exact rotated last now x period late holds

def report (ip : String) (s : Periodic.State State) : Periodic.State State :=
  Periodic.step rotation s (.call (.serverConnectFail ip))

section Reported

variable {s : Periodic.State State} {delay : Nat} (sound : Periodic.Sound rotation s) (ip : String)
include sound

theorem report_sound : Periodic.Sound rotation (report ip s) := Periodic.step_sound s _ sound

theorem avoided_after (later : List (Periodic.Action Action)) :
    let t := execute (Periodic.step rotation) (report ip s) later
    Avoided ip s.now t.last t.inner := by
  intro t
  have both := rotates (I := fun last now x => Avoided ip s.now last x ∧ s.now ≤ now)
    (fun _ _ _ a other _ _ holds => ⟨holds.1.called a other,holds.2⟩)
    (fun _ _ _ _ further holds => ⟨holds.1,Int.le_trans holds.2 further⟩)
    (fun _ _ _ _ _ holds => ⟨.inr holds.2,holds.2⟩)
    (report_sound sound ip) (by simp [Periodic.OnTime]) ⟨.inl (Finset.mem_insert_self _ _),Int.le_refl _⟩
    later (Periodic.meets_unbounded rotation _ _)
  exact both.2.1

theorem away_after (steady : ip ∉ s.inner.balancer.goodIps) (later : List (Periodic.Action Action)) :
    let t := execute (Periodic.step rotation) (report ip s) later
    Away ip s.now t.last t.now t.inner := by
  intro t
  have both := rotates (I := fun last now x => Away ip s.now last now x ∧ s.now ≤ now)
    (fun _ _ _ a other _ _ holds => ⟨holds.1.called a other,holds.2⟩)
    (fun _ _ _ _ further holds => ⟨holds.1.imp_right (Int.le_trans · further),Int.le_trans holds.2 further⟩)
    (fun _ _ _ period _ holds => ⟨holds.1.rotated holds.2 period,holds.2⟩)
    (report_sound sound ip) (by simp [Periodic.OnTime])
    ⟨.inl ⟨Finset.notMem_erase _ _,.inl steady⟩,Int.le_refl _⟩ later (Periodic.meets_unbounded rotation _ _)
  exact both.2.1

theorem back_after (onTime : Periodic.OnTime rotation (some delay) s) (later : List (Periodic.Action Action))
    (unreported : Along (Periodic.step rotation)
      (Periodic.Meets (some delay) fun _ a => a ≠ .serverConnectFail ip) (report ip s) later) :
    let t := execute (Periodic.step rotation) (report ip s) later
    s.now + 2 * (recoverTime * 1000 + delay) < t.now →
      ip ∈ t.inner.balancer.aliveIps ∧ ip ∉ t.inner.balancer.badIps := by
  intro t passed
  obtain ⟨late,back⟩ := rotates (I := fun last _ x => Returning ip s.now (some delay) last x)
    (fun _ _ _ a other calls _ holds => holds.called a other calls)
    (fun _ _ _ _ _ holds => holds)
    (fun _ _ _ _ late holds => holds.rotated late)
    (report_sound sound ip) onTime (.inl ⟨Finset.mem_insert_self _ _,sound.past⟩) later unreported
  have within : t.now ≤ t.last + recoverTime * 1000 + delay := late delay rfl
  rcases back with ⟨_,first⟩ | ⟨_,_,second⟩ | there
  · have earlier : t.last ≤ s.now := first
    omega
  · have earlier : t.last ≤ s.now + recoverTime * 1000 + delay := second delay rfl
    omega
  · exact there

end Reported

theorem run_calls (now : Int) (ips : List String) (port : UInt16) (first : List (Periodic.Action Action))
    (ip : String) (later : List (Periodic.Action Action)) :
    ∃ earlier calls, (execute (Periodic.step rotation)
      (report ip (execute (Periodic.step rotation) (construct now ips port) first)) later).inner =
        execute step (initial ips port) (earlier ++ .serverConnectFail ip :: calls) := by
  obtain ⟨earlier,before,_⟩ := Periodic.run_inner rotation (fun _ _ _ => trivial)
    (construct now ips port) first (Periodic.meets_unbounded rotation _ _)
  obtain ⟨calls,after,_⟩ := Periodic.run_inner rotation (fun _ _ _ => trivial)
    (report ip (execute (Periodic.step rotation) (construct now ips port) first)) later
    (Periodic.meets_unbounded rotation _ _)
  refine ⟨earlier,calls,?_⟩
  rw [execute_append,execute_cons]
  exact after.trans (congrArg (fun x => execute step (step x (.serverConnectFail ip)) calls) before)

theorem configured_after (now : Int) (ips : List String) (port : UInt16) (first : List (Periodic.Action Action))
    (ip : String) (later : List (Periodic.Action Action)) :
    let s := execute (Periodic.step rotation)
      (report ip (execute (Periodic.step rotation) (construct now ips port) first)) later
    s.inner.balancer.ips = ips ∧ s.inner.balancer.port = port := by
  intro s
  obtain ⟨earlier,calls,same⟩ := run_calls now ips port first ip later
  rw [show s.inner = _ from same]
  refine execute_invariant (I := fun x : State => x.balancer.ips = ips ∧ x.balancer.port = port) ?_ ⟨rfl,rfl⟩ _
  intro x a kept
  exact ⟨(step_configured x a).1.trans kept.1,(step_configured x a).2.trans kept.2⟩

theorem rotation_counted (now : Int) (ips : List String) (port : UInt16) (first : List (Periodic.Action Action))
    (ip : String) (later : List (Periodic.Action Action)) :
    let s := execute (Periodic.step rotation)
      (report ip (execute (Periodic.step rotation) (construct now ips port) first)) later
    ip ∉ s.inner.balancer.badIps → ∃ count, rotations ip s.inner.history = some count ∧ 1 ≤ count := by
  intro s clean
  obtain ⟨earlier,calls,same⟩ := run_calls now ips port first ip later
  rw [show s.inner = _ from same] at clean ⊢
  have fresh := (run_bad ips port (earlier ++ .serverConnectFail ip :: calls) ip).not.mp clean
  have counted := run_counted (step (execute step (initial ips port) earlier) (.serverConnectFail ip)) ip
    (by simp [step,rotations_failed]) calls
  rw [execute_append,execute_cons] at fresh ⊢
  obtain ⟨count,since⟩ := Option.isSome_iff_exists.mp counted
  refine ⟨count,since,Nat.pos_of_ne_zero ?_⟩
  rintro rfl
  exact fresh since

/-- For how long a report takes an address away. In every run, at most one rotation is
under way and no two come closer than `RECOVER_TIME`. After `server_connect_fail(ip)` the
hash getter does not return `ip` before a rotation has followed the latest report of it,
and the random getter, unless `ip` was recovering at that time, not for `RECOVER_TIME`
seconds, whatever else is reported. With no rotation more than `delay` late and no other
report of `ip`, both return it again once twice that time has passed. -/
theorem quarantine_timed (now : Int) (ips : List String) (port : UInt16)
    (first later : List (Periodic.Action Action)) (ip : String) :
    let before := execute (Periodic.step rotation) (construct now ips port) first
    let s := execute (Periodic.step rotation) (report ip before) later
    Periodic.Sound rotation s ∧
    (∀ hash out, getAliveIpByHash hash out s.inner.balancer = some ⟨true,ip,port⟩ →
      before.now ≤ s.last ∧ ∃ count, rotations ip s.inner.history = some count ∧ 1 ≤ count) ∧
    (ip ∉ before.inner.balancer.goodIps →
      ∀ order rand out, getAliveIpRandom order rand out s.inner.balancer = ⟨true,ip,port⟩ →
        before.now + recoverTime * 1000 ≤ s.now) ∧
    (∀ delay : Nat,
      Along (Periodic.step rotation) (Periodic.Meets (some delay) fun _ _ => True) (construct now ips port) first →
      Along (Periodic.step rotation) (Periodic.Meets (some delay) fun _ a => a ≠ .serverConnectFail ip)
        (report ip before) later →
      before.now + 2 * (recoverTime * 1000 + delay) < s.now →
      (∀ order out, ∃ rand, getAliveIpRandom order rand out s.inner.balancer = ⟨true,ip,port⟩) ∧
      ∀ hash out, ips[(hashIndex hash ips.length).toInt64.toUInt64.toNat]? = some ip →
        getAliveIpByHash hash out s.inner.balancer = some ⟨true,ip,port⟩) := by
  intro before s
  have sound : Periodic.Sound rotation before := Periodic.run_sound first (Periodic.initial_sound rotation now _)
  obtain ⟨addresses,number⟩ : s.inner.balancer.ips = ips ∧ s.inner.balancer.port = port :=
    configured_after now ips port first ip later
  refine ⟨Periodic.run_sound later (report_sound sound ip),?_,?_,?_⟩
  · intro hash out returned
    have clean := byHash_unreported _ hash out _ ip returned
    exact ⟨(avoided_after sound ip later).resolve_left clean,rotation_counted now ips port first ip later clean⟩
  · intro steady order rand out returned
    rw [← number] at returned
    have alive := (random_returns_iff s.inner.balancer order out ip).mp ⟨rand,returned⟩
    exact (away_after sound ip steady later).resolve_left fun still => still.1 alive
  · intro delay punctual unreported passed
    have onTime := (Periodic.repeats rotation (I := fun _ _ _ => True) (fun _ _ _ _ _ _ _ _ => trivial)
      (fun _ _ _ _ _ _ => trivial) (fun _ _ _ _ _ _ _ _ _ => trivial) (Periodic.initial_sound rotation now _)
      (Periodic.initial_onTime (some delay) now _) trivial first punctual).2.1
    obtain ⟨alive,clean⟩ := back_after sound ip onTime later unreported passed
    refine ⟨?_,?_⟩
    · intro order out
      rw [← number]
      exact (random_returns_iff s.inner.balancer order out ip).mpr alive
    · intro hash out here
      rw [← addresses] at here
      rw [byHash_returns s.inner.balancer hash out ip here,if_neg clean,number]

/-- A server reported a minute after the start, through three rotations of which the
first is a second late. -/
def comeback : List (Periodic.Action Action) :=
  [.pass 121000,.expire,.handler 0 .clearBadIps,.pass 180000,.expire,.handler 0 .clearBadIps,
    .pass 180000,.expire,.handler 0 .clearBadIps]

theorem server_comes_back :
    let s := execute (Periodic.step rotation)
      (report "a" (execute (Periodic.step rotation) (construct 0 ["a"] 80) [.pass 60000])) comeback
    s.now = 541000 ∧ getAliveIpByHash 7 0 s.inner.balancer = some ⟨true,"a",80⟩ ∧
      60000 ≤ s.last ∧ ∃ count, rotations "a" s.inner.history = some count ∧ 1 ≤ count := by
  intro s
  have passed : s.now = 541000 := by decide
  obtain ⟨_,rotated,_,back⟩ := quarantine_timed 0 ["a"] 80 [.pass 60000] comeback "a"
  have returned : getAliveIpByHash 7 0 s.inner.balancer = some ⟨true,"a",80⟩ := by
    refine (back 1000 ?_ ?_ (by decide)).2 7 0 (by decide)
    all_goals
      simp only [comeback,Along,Periodic.Meets,ne_eq,reduceCtorEq,not_false_eq_true,and_true,true_and,Option.mem_def,
        Option.some.injEq,forall_eq']
      decide
  exact ⟨passed,returned,rotated 7 0 returned⟩

end Zerver.LoadBalancer
