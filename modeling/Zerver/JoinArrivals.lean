import Mathlib.Data.List.Nodup
import Mathlib.Data.List.Perm.Basic
import Mathlib.Data.Fintype.Card
import Zerver.ForkJoin

/-! `JoinModule::run` in its two steps. The counter and the flag are updated under the
lock; the comparison, and the read of the flag on equality, come after it, when any number
of other arrivals may have run. -/
namespace Zerver.JoinArrivals

open Zerver.ForkJoin Zerver.Schedule

/-- Where an arrival is in `run`: before the lock, after it with the counter it has
captured, and returned, with the state it has bound to `on_joined` if it scheduled that. -/
inductive Phase where
  | entering
  | counted (moduleJoined : UInt16)
  | returned (scheduled : Option ModState)
  deriving DecidableEq, Repr

/-- `order` lists the arrivals by their locked updates; it is not in the source. -/
structure State where
  data : JoinData
  phase : Nat → Phase
  order : List Nat

def initial : State := ⟨.reset,fun _ => .entering,[]⟩

section Arrivals

-- The active join number, and the states with which the arrivals are given control.
variable (active : UInt16) (states : List ModState)

def step (s : State) (i : Nat) : State :=
  match states[i]? with
  | none => s
  | some lastModState =>
    match s.phase i with
    | .entering =>
      let data := s.data.arrive lastModState
      ⟨data,Function.update s.phase i (.counted data.moduleJoinedNum),s.order ++ [i]⟩
    | .counted moduleJoined =>
      { s with
        phase := Function.update s.phase i
          (.returned (if moduleJoined = active then some s.data.state else none)) }
    | .returned _ => s

def verdict (seen : List ModState) : ModState :=
  if seen.all (· == modSucceed) then modSucceed else modFailed

/-- The position of an arrival in the order of the locked updates, from one. -/
def ordinal (order : List Nat) (i : Nat) : Nat := order.idxOf i + 1

def seenStates (order : List Nat) : List ModState := order.filterMap (states[·]?)

/-- The counter and the flag against the order of the updates. The flag may be read later
than the counter, but not before the update the counter comes from. -/
structure Valid (s : State) : Prop where
  counter : s.data.moduleJoinedNum = UInt16.ofNat s.order.length
  failed : s.data.failedJoin = !(seenStates states s.order).all (· == modSucceed)
  nodup : s.order.Nodup
  bounded : ∀ i ∈ s.order, i < states.length
  entering : ∀ i, s.phase i = .entering ↔ i ∉ s.order
  counted : ∀ i num, s.phase i = .counted num → num = UInt16.ofNat (ordinal s.order i)
  returned : ∀ i scheduled, s.phase i = .returned scheduled →
    (scheduled.isSome = true ↔ UInt16.ofNat (ordinal s.order i) = active) ∧
    ∀ state, scheduled = some state → ∃ seen, ordinal s.order i ≤ seen ∧ seen ≤ s.order.length ∧
      state = verdict (seenStates states (s.order.take seen))

theorem initial_valid : Valid active states initial := by
  constructor <;> simp [initial,JoinData.reset,seenStates]

end Arrivals

section Steps

variable {active : UInt16} {states : List ModState} {s : State} {i : Nat}

theorem ordinal_append {order : List Nat} (member : i ∈ order) (later : List Nat) :
    ordinal (order ++ later) i = ordinal order i := by
  simp [ordinal,List.idxOf_append_of_mem member]

theorem ordinal_le {order : List Nat} (member : i ∈ order) : ordinal order i ≤ order.length :=
  List.idxOf_lt_length_of_mem member

theorem Valid.member (valid : Valid active states s) (left : s.phase i ≠ .entering) : i ∈ s.order := by
  by_contra absent
  exact left ((valid.entering i).mpr absent)

theorem Valid.state (valid : Valid active states s) : s.data.state = verdict (seenStates states s.order) := by
  rw [JoinData.state,valid.failed,verdict]
  cases (seenStates states s.order).all (· == modSucceed) <;> rfl

theorem Valid.enter (valid : Valid active states s) (given : states[i]? = some lastModState)
    (entering : s.phase i = .entering) :
    Valid active states ⟨s.data.arrive lastModState,Function.update s.phase i
      (.counted (s.data.arrive lastModState).moduleJoinedNum),s.order ++ [i]⟩ := by
  have absent := (valid.entering i).mp entering
  have others (j : Nat) (left : s.phase j ≠ .entering) : ordinal (s.order ++ [i]) j = ordinal s.order j :=
    ordinal_append (valid.member left) [i]
  constructor <;> dsimp only
  · simp only [JoinData.arrive,valid.counter,List.length_append,List.length_singleton,UInt16.ofNat_add]
    rfl
  · simp [JoinData.arrive,valid.failed,seenStates,List.filterMap_append,given,bne]
  · exact (List.perm_append_singleton i s.order).nodup_iff.mpr (List.nodup_cons.mpr ⟨absent,valid.nodup⟩)
  · intro j member
    rcases List.mem_append.mp member with old | new
    · exact valid.bounded j old
    · rw [List.mem_singleton.mp new]
      exact (List.getElem?_eq_some_iff.mp given).1
  · intro j
    by_cases same : j = i
    · simp [same]
    · simp [same,valid.entering j]
  · intro j num counted
    by_cases same : j = i
    · subst same
      have position : ordinal (s.order ++ [j]) j = s.order.length + 1 := by
        simp [ordinal,List.idxOf_append_of_notMem absent]
      rw [position]
      simp only [Function.update_self,Phase.counted.injEq] at counted
      simp only [← counted,JoinData.arrive,valid.counter,UInt16.ofNat_add]
      rfl
    · rw [Function.update_of_ne same] at counted
      rw [others j (by simp [counted])]
      exact valid.counted j num counted
  · intro j scheduled returned
    have apart : j ≠ i := by
      rintro rfl
      simp at returned
    rw [Function.update_of_ne apart] at returned
    rw [others j (by simp [returned])]
    obtain ⟨decided,read⟩ := valid.returned j scheduled returned
    refine ⟨decided,?_⟩
    intro state some
    obtain ⟨seen,after,within,same⟩ := read state some
    refine ⟨seen,after,by simp; omega,?_⟩
    rw [List.take_append_of_le_length within]
    exact same

theorem Valid.decide (valid : Valid active states s) (counted : s.phase i = .counted num) :
    Valid active states { s with
      phase := Function.update s.phase i (.returned (if num = active then some s.data.state else none)) } := by
  have member := valid.member (i := i) (by simp [counted])
  have captured := valid.counted i num counted
  refine ⟨valid.counter,valid.failed,valid.nodup,valid.bounded,?_,?_,?_⟩ <;> dsimp only
  · intro j
    by_cases same : j = i
    · subst same
      simp [member]
    · simp [same,valid.entering j]
  · intro j other here
    by_cases same : j = i
    · simp [same] at here
    · rw [Function.update_of_ne same] at here
      exact valid.counted j other here
  · intro j scheduled returned
    by_cases same : j = i
    · subst same
      simp only [Function.update_self,Phase.returned.injEq] at returned
      subst returned
      rw [captured]
      refine ⟨by split <;> simp [*],?_⟩
      intro state some
      refine ⟨s.order.length,ordinal_le member,le_rfl,?_⟩
      rw [List.take_length,← valid.state]
      split at some
      · exact (Option.some.inj some).symm
      · contradiction
    · rw [Function.update_of_ne same] at returned
      exact valid.returned j scheduled returned

theorem step_valid (s : State) (i : Nat) (valid : Valid active states s) :
    Valid active states (step active states s i) := by
  unfold step
  split
  · exact valid
  · rename_i given
    split
    · rename_i entering
      exact valid.enter given entering
    · rename_i counted
      exact valid.decide counted
    · exact valid

theorem execute_valid (active : UInt16) (states : List ModState) (schedule : List Nat) :
    Valid active states (execute (step active states) initial schedule) :=
  execute_invariant step_valid (initial_valid active states) schedule

theorem seenStates_range (states : List ModState) : seenStates states (List.range states.length) = states := by
  induction states using List.reverseRecOn with
  | nil => rfl
  | append_singleton states last ih =>
    rw [List.length_append,List.length_singleton,List.range_succ]
    have before : seenStates (states ++ [last]) (List.range states.length) =
        seenStates states (List.range states.length) := by
      apply List.filterMap_congr
      intro i member
      exact List.getElem?_append_left (List.mem_range.mp member)
    rw [seenStates,List.filterMap_append]
    change seenStates _ _ ++ _ = _
    rw [before,ih]
    simp

theorem verdict_perm {seen other : List ModState} (perm : seen.Perm other) : verdict seen = verdict other := by
  rw [verdict,verdict,perm.all_eq]

theorem Valid.verdict_all (valid : Valid active states s) (all : s.order.length = states.length) :
    verdict (seenStates states s.order) = verdict states := by
  have sub : s.order ⊆ List.range states.length := fun i member => List.mem_range.mpr (valid.bounded i member)
  have perm : s.order.Perm (List.range states.length) := by
    refine (List.subperm_of_subset valid.nodup sub).perm_of_length_le ?_
    rw [List.length_range,all]
  have seen := verdict_perm (perm.filterMap (states[·]?))
  exact seen.trans (congrArg verdict (seenStates_range states))

theorem Valid.length_le (valid : Valid active states s) : s.order.length ≤ states.length := by
  have sub : s.order ⊆ List.range states.length := fun i member => List.mem_range.mpr (valid.bounded i member)
  simpa using valid.nodup.length_le_of_subset sub

/-- The comparison by ordinals; the counter wraps. -/
theorem Valid.decided (valid : Valid active states s) (returned : s.phase i = .returned scheduled) :
    scheduled.isSome = true ↔ ordinal s.order i % 65536 = active.toNat := by
  rw [(valid.returned i scheduled returned).1,← UInt16.toNat_inj,UInt16.toNat_ofNat']

/-- With as many arrivals as are waited for, the comparison succeeds for the last update,
and then the flag is final. -/
theorem Valid.joined {state : ModState} (valid : Valid active states s) (enough : states.length = active.toNat)
    (returned : s.phase i = .returned (some state)) :
    ordinal s.order i = states.length ∧ s.order.length = states.length ∧ state = verdict states := by
  have member := valid.member (i := i) (by simp [returned])
  have here := ordinal_le member
  have few := valid.length_le
  have small := active.toNat_lt
  have equal := (valid.decided returned).mp rfl
  have last : ordinal s.order i = states.length := by
    rw [enough]
    by_cases wrapped : ordinal s.order i = 65536
    · omega
    · rw [← equal,Nat.mod_eq_of_lt (by omega)]
  have all : s.order.length = states.length := by omega
  obtain ⟨seen,after,within,read⟩ := (valid.returned i _ returned).2 state rfl
  refine ⟨last,all,?_⟩
  rw [read,List.take_of_length_le (by omega)]
  exact valid.verdict_all all

end Steps

def Complete (states : List ModState) (s : State) : Prop :=
  ∀ i < states.length, ∃ scheduled, s.phase i = .returned scheduled

/-- In every interleaving of the steps of any arrivals, those that schedule `on_joined` are
the ones whose ordinal is the active number modulo 65536. When as many arrive as are waited
for, exactly one of them does, after all the updates, with the state they all lead to. -/
theorem join_decided (active : UInt16) (waits : 0 < active) (states : List ModState) (schedule : List Nat) :
    let s := execute (step active states) initial schedule
    (∀ i scheduled, s.phase i = .returned scheduled →
      (scheduled.isSome = true ↔ ordinal s.order i % 65536 = active.toNat)) ∧
    (states.length = active.toNat →
      (∀ i state, s.phase i = .returned (some state) → s.order.length = states.length) ∧
      (Complete states s → ∃ i < states.length, s.phase i = .returned (some (verdict states)) ∧
        ∀ j < states.length, j ≠ i → s.phase j = .returned none)) ∧
    ∀ other, states.Perm other → verdict other = verdict states := by
  intro s
  have valid := execute_valid active states schedule
  change Valid active states s at valid
  refine ⟨fun i scheduled returned => valid.decided returned,?_,fun other perm => (verdict_perm perm).symm⟩
  intro enough
  refine ⟨fun i state returned => (valid.joined enough returned).2.1,?_⟩
  intro complete
  have all : s.order.length = states.length := by
    have sub : List.range states.length ⊆ s.order := by
      intro i member
      obtain ⟨scheduled,returned⟩ := complete i (List.mem_range.mp member)
      exact valid.member (by simp [returned])
    have long := List.nodup_range.length_le_of_subset sub
    rw [List.length_range] at long
    exact le_antisymm valid.length_le long
  have small := active.toNat_lt
  have positive : 0 < active.toNat := UInt16.lt_iff_toNat_lt.mp waits
  have inside : states.length - 1 < s.order.length := by omega
  -- The arrival of the last update.
  have position : ordinal s.order s.order[states.length - 1] = states.length := by
    rw [ordinal,valid.nodup.idxOf_getElem]
    omega
  have member := List.getElem_mem inside
  generalize s.order[states.length - 1] = i at position member
  obtain ⟨scheduled,returned⟩ := complete i (valid.bounded i member)
  have decided := valid.decided returned
  rw [position,enough,Nat.mod_eq_of_lt small] at decided
  obtain ⟨state,rfl⟩ := Option.isSome_iff_exists.mp (decided.mpr rfl)
  refine ⟨i,valid.bounded i member,?_,?_⟩
  · rw [returned,(valid.joined enough returned).2.2]
  · intro j bound apart
    obtain ⟨other,returned'⟩ := complete j bound
    rw [returned']
    cases other with
    | none => rfl
    | some state' =>
      have position' := (valid.joined enough returned').1
      have same : s.order.idxOf j = s.order.idxOf i := by
        unfold ordinal at position position'
        omega
      exact absurd ((List.idxOf_inj (valid.member (by simp [returned']))).mp same) apart

/-- The middle one of three arrivals brings a failure, and is the last to be counted; the
first decides before it has been. -/
theorem three_joined :
    let states := [modSucceed,modFailed,modSucceed]
    let s := execute (step 3 states) initial [0,0,2,1,1,2]
    Complete states s ∧ s.order.length = 3 ∧
    ∃ i < 3, s.phase i = .returned (some modFailed) ∧ ∀ j < 3, j ≠ i → s.phase j = .returned none := by
  intro states s
  obtain ⟨_,joined,_⟩ := join_decided 3 (by decide) states [0,0,2,1,1,2]
  obtain ⟨after,once⟩ := joined rfl
  have complete : Complete states s := by
    intro i bound
    have : i = 0 ∨ i = 1 ∨ i = 2 := by
      change i < 3 at bound
      omega
    rcases this with rfl | rfl | rfl <;> exact ⟨_,rfl⟩
  obtain ⟨i,bound,returned,others⟩ := once complete
  exact ⟨complete,after i _ returned,i,bound,returned,others⟩

/-- Made one after the other, the two steps are the join of the request machine. -/
theorem runJoin_two_steps (cfg : Config) (join : Module) (context : Nat) (lastModState : ModState)
    (m : Machine) (own : m.dataKind cfg join = some .join) :
    let active := cfg.getActiveJoinNum context join
    let s := execute (step active [lastModState]) ⟨m.joins context join.name,fun _ => .entering,[]⟩ [0,0]
    ∃ scheduled, s.phase 0 = .returned scheduled ∧ m.runJoin cfg join context lastModState =
      (m.setData context join.name s.data).add
        (scheduled.toList.map fun state => .onJoined join state context) := by
  intro active s
  let data := (m.joins context join.name).arrive lastModState
  refine ⟨if data.moduleJoinedNum = active then some data.state else none,rfl,?_⟩
  have counted : s.data = data := rfl
  simp only [Machine.runJoin,own,counted,data]
  by_cases last : data.moduleJoinedNum = active
  · rw [if_pos last,if_pos last]
    rfl
  · rw [if_neg last,if_neg last]
    rfl

end Zerver.JoinArrivals
