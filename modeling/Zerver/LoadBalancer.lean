import Mathlib.Data.Finset.Card
import Zerver.Schedule

/-! The load balancer of `client/load_balancer.{h,cc}`: three overlapping sets of
addresses rotated by a swap and a clear. Locks are held for a whole call, so a run
is a sequence of calls; the recovery timer is one more caller of `clearBadIps`. -/
namespace Zerver.LoadBalancer

open Zerver.Schedule

/-- The iteration order of an unordered container is any listing of its keys. -/
structure Order where
  list : Finset String → List String
  complete : ∀ keys, (list keys : Multiset String) = keys.val

/-- Only the keys of `alive_ips_` are ever read. -/
structure Balancer where
  port : UInt16
  ips : List String
  badIps : Finset String
  goodIps : Finset String
  aliveIps : Finset String

def create (ips : List String) (port : UInt16) : Balancer :=
  ⟨port,ips,∅,∅,ips.toFinset⟩

def clearBadIps (b : Balancer) : Balancer :=
  { b with aliveIps := b.aliveIps ∪ b.goodIps, goodIps := b.badIps, badIps := ∅ }

def serverConnectFail (ip : String) (b : Balancer) : Balancer :=
  { b with aliveIps := b.aliveIps.erase ip, badIps := insert ip b.badIps }

/-- What a getter returns and leaves in its two reference parameters. -/
structure Reply where
  found : Bool
  ip : String
  port : UInt16
  deriving DecidableEq, Repr

/-- `hash_val % ips_.size()`: the int becomes a 64-bit size_t, and the remainder
is stored back in an int. -/
def hashIndex (hash : Int32) (size : Nat) : Int32 :=
  Int32.ofNat (hash.toInt64.toUInt64.toNat % size)

/-- `none` is an index outside the vector, which the source leaves undefined. -/
def getAliveIpByHash (hash : Int32) (port : UInt16) (b : Balancer) : Option Reply :=
  if b.ips = [] then some ⟨false,"",port⟩
  else
    match b.ips[(hashIndex hash b.ips.length).toInt64.toUInt64.toNat]? with
    | none => none
    | some ip => if ip ∈ b.badIps then some ⟨false,"",port⟩ else some ⟨true,ip,b.port⟩

def getAliveIpRandom (order : Order) (rand : Nat) (port : UInt16) (b : Balancer) : Reply :=
  if b.aliveIps.card ≠ 0 then
    match (order.list b.aliveIps)[rand % b.aliveIps.card]? with
    | some ip => ⟨true,ip,b.port⟩
    | none => ⟨false,"",port⟩
  else ⟨false,"",port⟩

inductive Action where
  | serverConnectFail (ip : String)
  | clearBadIps
  | getAliveIpByHash (hash : Int32)
  | getAliveIpRandom (order : Order) (rand : Nat)

inductive Event where
  | failed (ip : String)
  | cleared
  | returned (ip : String)
  deriving DecidableEq, Repr

structure State where
  balancer : Balancer
  history : List Event

def initial (ips : List String) (port : UInt16) : State := ⟨create ips port,[]⟩

def answer (reply : Reply) : List Event := if reply.found then [.returned reply.ip] else []

def step (s : State) : Action → State
  | .serverConnectFail ip => ⟨serverConnectFail ip s.balancer,s.history ++ [.failed ip]⟩
  | .clearBadIps => ⟨clearBadIps s.balancer,s.history ++ [.cleared]⟩
  | .getAliveIpByHash hash =>
    ⟨s.balancer,s.history ++ ((getAliveIpByHash hash 0 s.balancer).map answer).getD []⟩
  | .getAliveIpRandom order rand =>
    ⟨s.balancer,s.history ++ answer (getAliveIpRandom order rand 0 s.balancer)⟩

/-- Each reported address was handed out by a getter before the report. -/
def Reported (s : State) : Action → Prop
  | .serverConnectFail ip => .returned ip ∈ s.history
  | _ => True

/-- Rotations executed since the latest report of `ip`; `none` before any report. -/
def rotationStep (ip : String) (count : Option Nat) : Event → Option Nat
  | .failed other => if other = ip then some 0 else count
  | .cleared => count.map (· + 1)
  | .returned _ => count

def rotations (ip : String) (history : List Event) : Option Nat :=
  history.foldl (rotationStep ip) none

theorem rotations_append (ip : String) (first later : List Event) :
    rotations ip (first ++ later) = later.foldl (rotationStep ip) (rotations ip first) :=
  List.foldl_append

/-- Whatever `rand` yields and however the map is iterated, the random getter does
not return an address before two rotations have followed its latest report. -/
def Quarantined (s : State) : Prop :=
  ∀ ip order rand port, getAliveIpRandom order rand port s.balancer = ⟨true,ip,s.balancer.port⟩ →
    ∀ count, rotations ip s.history = some count → 2 ≤ count

/-- No rotation happens while an address is recovering and reported again. -/
def Recovered (s : State) : Action → Prop
  | .clearBadIps => Disjoint s.balancer.goodIps s.balancer.badIps
  | _ => True

theorem order_mem (order : Order) (keys : Finset String) (ip : String) :
    ip ∈ order.list keys ↔ ip ∈ keys := by
  rw [← Multiset.mem_coe,order.complete]
  rfl

theorem order_length (order : Order) (keys : Finset String) :
    (order.list keys).length = keys.card := by
  rw [← Multiset.coe_card,order.complete]
  rfl

theorem random_returns_iff (b : Balancer) (order : Order) (port : UInt16) (ip : String) :
    (∃ rand, getAliveIpRandom order rand port b = ⟨true,ip,b.port⟩) ↔ ip ∈ b.aliveIps := by
  constructor
  · rintro ⟨rand,returned⟩
    simp only [getAliveIpRandom] at returned
    split at returned
    · split at returned
      · rename_i found
        simp only [Reply.mk.injEq,true_and,and_true] at returned
        rw [← returned,← order_mem order]
        exact List.mem_of_getElem? found
      · simp at returned
    · simp at returned
  · intro alive
    obtain ⟨index,bound,found⟩ := List.getElem_of_mem ((order_mem order b.aliveIps ip).mpr alive)
    have inside : index < b.aliveIps.card := by rwa [order_length] at bound
    refine ⟨index,?_⟩
    simp [getAliveIpRandom,Nat.mod_eq_of_lt inside,found,bound,Finset.ne_empty_of_mem alive]

/-- The sets against the reports: `bad_ips_` holds the addresses reported since the
last rotation, and a quarantined address is in none of the alive ones. -/
structure Invariant (s : State) : Prop where
  bad : ∀ ip, ip ∈ s.balancer.badIps ↔ rotations ip s.history = some 0
  good : ∀ ip, rotations ip s.history = some 1 → ip ∈ s.balancer.goodIps
  alive : ∀ ip count, rotations ip s.history = some count → ip ∈ s.balancer.aliveIps → 2 ≤ count

theorem initial_invariant (ips : List String) (port : UInt16) : Invariant (initial ips port) := by
  constructor <;> simp [initial,create,rotations]

theorem rotations_answer (ip : String) (history : List Event) (reply : Reply) :
    rotations ip (history ++ answer reply) = rotations ip history := by
  unfold answer
  split <;> simp [rotations_append,rotationStep]

theorem rotations_failed (ip other : String) (history : List Event) :
    rotations ip (history ++ [.failed other]) =
      if other = ip then some 0 else rotations ip history := by
  simp [rotations_append,rotationStep]

theorem rotations_cleared (ip : String) (history : List Event) :
    rotations ip (history ++ [.cleared]) = (rotations ip history).map (· + 1) := by
  simp [rotations_append,rotationStep]

/-- `bad_ips_` is exact in every run, also in those that break the quarantine. -/
theorem step_bad (s : State) (a : Action)
    (valid : ∀ ip, ip ∈ s.balancer.badIps ↔ rotations ip s.history = some 0) :
    ∀ ip, ip ∈ (step s a).balancer.badIps ↔ rotations ip (step s a).history = some 0 := by
  intro ip
  cases a with
  | serverConnectFail other =>
    simp only [step,serverConnectFail,Finset.mem_insert,rotations_failed,valid]
    by_cases same : other = ip
    · simp [same]
    · simp [same,Ne.symm same]
  | clearBadIps => simp [step,clearBadIps,rotations_cleared]
  | getAliveIpByHash hash =>
    cases reply : getAliveIpByHash hash 0 s.balancer with
    | none => simpa [step,reply] using valid ip
    | some reply' => simpa only [step,reply,Option.map_some,Option.getD_some,rotations_answer] using valid ip
  | getAliveIpRandom order rand => simpa only [step,rotations_answer] using valid ip

theorem run_bad (ips : List String) (port : UInt16) (schedule : List Action) :
    let s := execute step (initial ips port) schedule
    ∀ ip, ip ∈ s.balancer.badIps ↔ rotations ip s.history = some 0 :=
  execute_invariant (I := fun s : State => ∀ ip, ip ∈ s.balancer.badIps ↔ rotations ip s.history = some 0)
    step_bad (initial_invariant ips port).bad schedule

private theorem failed_invariant (s : State) (other : String) (valid : Invariant s) :
    Invariant (step s (.serverConnectFail other)) := by
  refine ⟨step_bad s _ valid.bad,?_,?_⟩
  · intro ip once
    simp only [step,rotations_failed] at once
    split at once
    · simp at once
    · exact valid.good ip once
  · intro ip count since alive
    simp only [step,rotations_failed] at since
    simp only [step,serverConnectFail,Finset.mem_erase] at alive
    rw [if_neg (Ne.symm alive.1)] at since
    exact valid.alive ip count since alive.2

private theorem cleared_invariant (s : State) (valid : Invariant s)
    (recovered : Disjoint s.balancer.goodIps s.balancer.badIps) :
    Invariant (step s .clearBadIps) := by
  refine ⟨step_bad s _ valid.bad,?_,?_⟩
  · intro ip once
    simp only [step,rotations_cleared,Option.map_eq_some_iff,Nat.add_eq_right] at once
    obtain ⟨_,since,rfl⟩ := once
    exact (valid.bad ip).mpr since
  · intro ip count since alive
    simp only [step,rotations_cleared,Option.map_eq_some_iff] at since
    obtain ⟨earlier,since,rfl⟩ := since
    simp only [step,clearBadIps,Finset.mem_union] at alive
    rcases alive with alive | good
    · have := valid.alive ip earlier since alive
      omega
    · -- A recovering address is not fresh in `bad_ips_`, so its report is older.
      have fresh : earlier ≠ 0 := by
        rintro rfl
        exact Finset.disjoint_left.mp recovered good ((valid.bad ip).mpr since)
      omega

theorem step_invariant (s : State) (a : Action) (recovered : Recovered s a)
    (valid : Invariant s) : Invariant (step s a) := by
  cases a with
  | serverConnectFail ip => exact failed_invariant s ip valid
  | clearBadIps => exact cleared_invariant s valid recovered
  | getAliveIpByHash hash =>
    cases reply : getAliveIpByHash hash 0 s.balancer with
    | none => simpa [step,reply] using valid
    | some reply' =>
      constructor <;> simp only [step,reply,Option.map_some,Option.getD_some,rotations_answer]
      exacts [valid.bad,valid.good,valid.alive]
  | getAliveIpRandom order rand =>
    constructor <;> simp only [step,rotations_answer]
    exacts [valid.bad,valid.good,valid.alive]

theorem quarantined_of_invariant (s : State) (valid : Invariant s) : Quarantined s := by
  intro ip order rand port returned count since
  exact valid.alive ip count since ((random_returns_iff s.balancer order port ip).mp ⟨rand,returned⟩)

/-- A rotation of a recovering address that was reported again makes it alive one
rotation after its latest report. -/
theorem clear_breaks_quarantine (s : State)
    (bad : ∀ ip, ip ∈ s.balancer.badIps ↔ rotations ip s.history = some 0)
    (overlap : ¬Disjoint s.balancer.goodIps s.balancer.badIps) :
    ¬Quarantined (step s .clearBadIps) := by
  intro quarantined
  obtain ⟨ip,good,reported⟩ := Finset.not_disjoint_iff.mp overlap
  have alive : ip ∈ (step s .clearBadIps).balancer.aliveIps :=
    Finset.mem_union_right _ good
  have since : rotations ip (step s .clearBadIps).history = some 1 := by
    simp [step,rotations_cleared,(bad ip).mp reported]
  let order : Order := ⟨Finset.toList,fun keys => Finset.coe_toList keys⟩
  obtain ⟨rand,returned⟩ :=
    (random_returns_iff (step s .clearBadIps).balancer order 0 ip).mpr alive
  have := quarantined ip order rand 0 returned 1 since
  omega

/-- Every state of a run keeps the quarantine exactly when no rotation of the run
finds an address in both `good_ips_` and `bad_ips_`. -/
theorem quarantine_iff (ips : List String) (port : UInt16) (schedule : List Action) :
    (∀ first later, schedule = first ++ later →
      Quarantined (execute step (initial ips port) first)) ↔
    Along step Recovered (initial ips port) schedule := by
  constructor
  · intro quarantined
    rw [along_iff_split]
    intro first a later split
    cases a with
    | clearBadIps =>
      by_contra overlap
      apply clear_breaks_quarantine _ (run_bad ips port first) overlap
      have next := quarantined (first ++ [.clearBadIps]) later (by simp [split])
      rwa [execute_append] at next
    | serverConnectFail ip => trivial
    | getAliveIpByHash hash => trivial
    | getAliveIpRandom order rand => trivial
  · rintro along first later rfl
    apply quarantined_of_invariant
    exact along_invariant step_invariant (initial_invariant ips port) first
      ((along_append Recovered first later).mp along).1

def relapse : List Action :=
  [.getAliveIpByHash 0,.serverConnectFail "a",.clearBadIps,.getAliveIpByHash 0,
    .serverConnectFail "a",.clearBadIps]

theorem relapse_breaks_quarantine :
    Along step Reported (initial ["a"] 80) relapse ∧
    rotations "a" (execute step (initial ["a"] 80) relapse).history = some 1 ∧
    ¬Quarantined (execute step (initial ["a"] 80) relapse) := by
  refine ⟨?_,?_,?_⟩
  · simp only [relapse,Along,Reported,and_true,true_and]
    decide
  · decide
  · intro quarantined
    exact absurd quarantined (clear_breaks_quarantine
      (execute step (initial ["a"] 80) relapse.dropLast) (run_bad ["a"] 80 relapse.dropLast) (by decide))

end Zerver.LoadBalancer
