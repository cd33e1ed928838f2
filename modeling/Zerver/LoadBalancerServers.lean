import Mathlib.Data.Finset.Lattice.Lemmas
import Zerver.LoadBalancer

/-! The configured servers over a run of the load balancer: an address moves between
the three sets and is in at least one of them, and two rotations without a report
bring every address back. -/
namespace Zerver.LoadBalancer

open Zerver.Schedule

/-- The addresses of the three sets are the configured ones, and a getter has
returned no others. -/
structure Conserved (ips : List String) (s : State) : Prop where
  configured : s.balancer.ips = ips
  union : s.balancer.aliveIps ∪ s.balancer.badIps ∪ s.balancer.goodIps = ips.toFinset
  disjoint : Disjoint s.balancer.aliveIps s.balancer.badIps
  returned : ∀ ip, .returned ip ∈ s.history → ip ∈ ips

theorem Conserved.alive (conserved : Conserved ips s) : s.balancer.aliveIps ⊆ ips.toFinset := by
  rw [← conserved.union,Finset.union_assoc]
  exact Finset.subset_union_left

theorem initial_conserved (ips : List String) (port : UInt16) : Conserved ips (initial ips port) := by
  constructor <;> simp [initial,create]

theorem answer_returned (reply : Reply) (ip : String) :
    .returned ip ∈ answer reply ↔ reply.found = true ∧ reply.ip = ip := by
  unfold answer
  split
  · rename_i found
    simp [found,eq_comm]
  · rename_i missing
    simp [missing]

theorem byHash_configured (b : Balancer) (hash : Int32) (reply : Reply)
    (answered : getAliveIpByHash hash 0 b = some reply) (found : reply.found = true) :
    reply.ip ∈ b.ips := by
  simp only [getAliveIpByHash] at answered
  split at answered
  · cases answered
    contradiction
  · split at answered
    · contradiction
    · rename_i index
      split at answered
      · cases answered
        contradiction
      · cases answered
        exact List.mem_of_getElem? index

theorem random_alive (b : Balancer) (order : Order) (rand : Nat)
    (found : (getAliveIpRandom order rand 0 b).found = true) :
    (getAliveIpRandom order rand 0 b).ip ∈ b.aliveIps := by
  apply (random_returns_iff b order 0 _).mp
  refine ⟨rand,?_⟩
  simp only [getAliveIpRandom] at found ⊢
  split at found
  · rename_i some
    split at found
    · simp [some]
    · contradiction
  · contradiction

theorem Conserved.answered (conserved : Conserved ips s) (reply : Reply)
    (configured : reply.found = true → reply.ip ∈ ips) :
    Conserved ips ⟨s.balancer,s.history ++ answer reply⟩ where
  configured := conserved.configured
  union := conserved.union
  disjoint := conserved.disjoint
  returned := by
    intro ip member
    rcases List.mem_append.mp member with old | new
    · exact conserved.returned ip old
    · obtain ⟨found,rfl⟩ := (answer_returned reply ip).mp new
      exact configured found

theorem failed_conserved (s : State) (ip : String) (reported : .returned ip ∈ s.history)
    (conserved : Conserved ips s) : Conserved ips (step s (.serverConnectFail ip)) where
  configured := conserved.configured
  union := by
    have known : ip ∈ ips.toFinset := List.mem_toFinset.mpr (conserved.returned ip reported)
    ext other
    have same : other ∈ s.balancer.aliveIps ∪ s.balancer.badIps ∪ s.balancer.goodIps ↔
        other ∈ ips.toFinset := by rw [conserved.union]
    by_cases equal : other = ip
    · subst equal
      simp [step,serverConnectFail,List.mem_toFinset.mp known]
    · rw [← same]
      simp [step,serverConnectFail,equal]
  disjoint := by
    apply Finset.disjoint_insert_right.mpr
    refine ⟨Finset.notMem_erase _ _,?_⟩
    exact Finset.disjoint_of_subset_left (Finset.erase_subset _ _) conserved.disjoint
  returned := by
    intro other member
    apply conserved.returned other
    simpa [step] using member

theorem cleared_conserved (s : State) (conserved : Conserved ips s) :
    Conserved ips (step s .clearBadIps) where
  configured := conserved.configured
  union := by
    rw [← conserved.union]
    ext ip
    simp only [step,clearBadIps,Finset.mem_union,Finset.notMem_empty]
    tauto
  disjoint := by simp [step,clearBadIps]
  returned := by
    intro ip member
    apply conserved.returned ip
    simpa [step] using member

theorem step_conserved (s : State) (a : Action) (reported : Reported s a)
    (conserved : Conserved ips s) : Conserved ips (step s a) := by
  cases a with
  | serverConnectFail ip => exact failed_conserved s ip reported conserved
  | clearBadIps => exact cleared_conserved s conserved
  | getAliveIpByHash hash =>
    cases answered : getAliveIpByHash hash 0 s.balancer with
    | none => simpa [step,answered] using conserved
    | some reply =>
      simp only [step,answered,Option.map_some,Option.getD_some]
      apply conserved.answered reply
      intro found
      rw [← conserved.configured]
      exact byHash_configured s.balancer hash reply answered found
  | getAliveIpRandom order rand =>
    apply conserved.answered
    intro found
    exact List.mem_toFinset.mp (conserved.alive (random_alive s.balancer order rand found))

theorem step_unreported (s : State) (a : Action) (quiet : ∀ ip, a ≠ .serverConnectFail ip)
    (bad : s.balancer.badIps = ∅) : (step s a).balancer.badIps = ∅ := by
  cases a with
  | serverConnectFail ip => exact absurd rfl (quiet ip)
  | clearBadIps => rfl
  | getAliveIpByHash hash => exact bad
  | getAliveIpRandom order rand => exact bad

theorem step_recovered (s : State) (a : Action) (quiet : ∀ ip, a ≠ .serverConnectFail ip)
    (empty : s.balancer.badIps = ∅ ∧ s.balancer.goodIps = ∅) :
    (step s a).balancer.badIps = ∅ ∧ (step s a).balancer.goodIps = ∅ := by
  refine ⟨step_unreported s a quiet empty.1,?_⟩
  cases a with
  | serverConnectFail ip => exact absurd rfl (quiet ip)
  | clearBadIps => exact empty.1
  | getAliveIpByHash hash => exact empty.2
  | getAliveIpRandom order rand => exact empty.2

/-- Two rotations without a report between or after them empty both waiting sets. -/
theorem rotations_empty (s : State) (between after : List Action)
    (quiet : ∀ a ∈ between ++ after, ∀ ip, a ≠ .serverConnectFail ip) :
    let t := execute step s (.clearBadIps :: between ++ .clearBadIps :: after)
    t.balancer.badIps = ∅ ∧ t.balancer.goodIps = ∅ := by
  simp only [List.cons_append,execute_cons,execute_append]
  have calm : (execute step (step s .clearBadIps) between).balancer.badIps = ∅ := by
    apply along_invariant (I := fun s : State => s.balancer.badIps = ∅) step_unreported rfl
    exact along_of_forall between fun a member => quiet a (List.mem_append_left _ member)
  apply along_invariant
    (I := fun s : State => s.balancer.badIps = ∅ ∧ s.balancer.goodIps = ∅) step_recovered
  · exact ⟨rfl,calm⟩
  · exact along_of_forall after fun a member => quiet a (List.mem_append_right _ member)

/-- In every run no server is lost or invented, and two rotations with no report
between or after them make every server alive again. -/
theorem servers_conserved (ips : List String) (port : UInt16) (schedule : List Action)
    (reported : Along step Reported (initial ips port) schedule) :
    let s := execute step (initial ips port) schedule
    s.balancer.aliveIps ∪ s.balancer.badIps ∪ s.balancer.goodIps = ips.toFinset ∧
    Disjoint s.balancer.aliveIps s.balancer.badIps ∧
    (∀ ip, .returned ip ∈ s.history → ip ∈ ips) ∧
    ∀ before between after,
      schedule = before ++ (.clearBadIps :: between ++ .clearBadIps :: after) →
      (∀ a ∈ between ++ after, ∀ ip, a ≠ .serverConnectFail ip) →
      s.balancer.aliveIps = ips.toFinset ∧ s.balancer.badIps = ∅ ∧ s.balancer.goodIps = ∅ := by
  have conserved := along_invariant (fun s a => step_conserved s a) (initial_conserved ips port)
    schedule reported
  refine ⟨conserved.union,conserved.disjoint,conserved.returned,?_⟩
  rintro before between after rfl quiet
  have empty := rotations_empty (execute step (initial ips port) before) between after quiet
  rw [← execute_append] at empty
  refine ⟨?_,empty⟩
  have union := conserved.union
  rwa [empty.1,empty.2,Finset.union_empty,Finset.union_empty] at union

/-- Two servers, one configured twice: a report, and the rotations that recover it. -/
theorem recovery_conserved :
    let run : List Action :=
      [.getAliveIpByHash 1,.serverConnectFail "b",.clearBadIps,.getAliveIpByHash 0,.clearBadIps]
    let s := execute step (initial ["a","b","a"] 80) run
    Along step Reported (initial ["a","b","a"] 80) run ∧
      s.balancer.aliveIps = ["a","b","a"].toFinset := by
  have along : Along step Reported (initial ["a","b","a"] 80)
      [.getAliveIpByHash 1,.serverConnectFail "b",.clearBadIps,.getAliveIpByHash 0,.clearBadIps] := by
    simp only [Along,Reported,and_true,true_and]
    decide
  refine ⟨along,?_⟩
  have conserved := servers_conserved ["a","b","a"] 80 _ along
  refine (conserved.2.2.2 [.getAliveIpByHash 1,.serverConnectFail "b"] [.getAliveIpByHash 0] [] rfl ?_).1
  simp

end Zerver.LoadBalancer
