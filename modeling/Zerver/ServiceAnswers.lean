import Mathlib
import Zerver.ForkJoinExecutions
import Zerver.ServerRequests
import Zerver.ServiceRequests

/-! How the service of `example1/main.cc` answers: which modules the runs of an ended request
are, for every outcome of every module and every order of the handlers. -/
namespace Zerver.Service

open Zerver.Fsm
open Zerver.ForkJoin
open Zerver.Interleaving
open Zerver.Schedule

/-- The first module of each branch of a fork. -/
def Node.branch : Node → Nat → Node
  | .fsForkMod,i => .fsMod i
  | .psForkMod2 i,j => .psMod2 i j
  | .psForkMod,i => .psMod i
  | n,_ => n

/-- The feature server's shard that a module belongs to. -/
def Node.shardOf : Node → Option Nat
  | .fsMod i | .psForkMod2 i | .psJoinMod2 i | .psMod2 i _ | .psBackfillMod2 i _ => some i
  | _ => none

section Answers

variable (flags : Flags) (states : States) (alloc : Node → Nat) (cfg : Config) (context : Nat)

/-- A fork is run once at most. It starts each of its active branches once and no other,
and all of them arrive at the join. -/
structure Forked (runs : List Run) (fork join : Node) : Prop where
  once : visits runs (mod alloc fork) ≤ 1
  branches : ∀ i < fork.forkNum flags, visits runs (mod alloc (fork.branch i)) =
    if i < width alloc cfg context fork then visits runs (mod alloc fork) else 0
  joined : visits runs (mod alloc join) = width alloc cfg context fork * visits runs (mod alloc fork)

/-- The runs of a request that has been answered. -/
structure Answered (runs : List Run) : Prop where
  begins : ∃ rest, runs = (mod alloc .reqMod,modStart) :: rest ∧ visits rest (mod alloc .reqMod) = 0
  ends : ∃ before state, runs = before ++ [(mod alloc .endMod,state)] ∧ visits before (mod alloc .endMod) = 0
  /-- One response, unless `req_mod` has been left with a state of no route. -/
  answered : (∃ state, runs = [(mod alloc .reqMod,modStart),(mod alloc .endMod,state)] ∧
      state ∉ [states.reqSucceedToFs,states.reqSucceedToPs,states.reqSucceedToRandom]) ∨
    visits runs (mod alloc .respMod) + visits runs (mod alloc .randRespMod) +
      visits runs (mod alloc .emptyRespMod) = 1
  /-- A request for the servers gets the empty response, or that of `if_rand_mod`. -/
  served : visits runs (mod alloc .emptyRespMod) + visits runs (mod alloc .ifRandMod) =
    visits runs (mod alloc .genFsReqMod) + visits runs (mod alloc .genPsReqMod)
  /-- The latter just if every branch has arrived with success. -/
  succeeded : visits runs (mod alloc .ifRandMod) = 1 ↔ ∃ join, (join = .fsJoinMod ∨ join = .psJoinMod) ∧
    visits runs (mod alloc join) ≠ 0 ∧ ∀ state, (mod alloc join,state) ∈ runs → state = modSucceed
  forked : ∀ fork join, fork.join = some join → fork.Inside flags →
    Forked flags alloc cfg context runs fork join

end Answers

section Executions

variable {flags : Flags} {states : States} {alloc : Node → Nat} {cfg : Config} {context : Nat}

theorem executes_answer (executes : Executes cfg (answer alloc response) state runs last) :
    ∃ result, runs = [(mod alloc response,state),(mod alloc .endMod,result)] := by
  cases executes with
  | visit _ executes =>
    cases executes with
    | visit _ executes =>
      cases executes with
      | leave => exact ⟨_,rfl⟩

theorem executes_conclude (executes : Executes cfg (conclude states alloc state) state runs last) :
    (state = modSucceed ∧ ∃ response result final, (response = .respMod ∨ response = .randRespMod) ∧
      runs = [(mod alloc .ifRandMod,state),(mod alloc response,result),(mod alloc .endMod,final)]) ∨
    (state ≠ modSucceed ∧ ∃ final, runs = [(mod alloc .emptyRespMod,state),(mod alloc .endMod,final)]) := by
  unfold conclude at executes
  by_cases success : state = modSucceed
  · rw [if_pos success] at executes
    cases executes with
    | visit _ executes =>
      obtain ⟨final,rfl⟩ := executes_answer executes
      refine .inl ⟨success,_,_,final,?_,rfl⟩
      split
      · exact .inl rfl
      · exact .inr rfl
  · rw [if_neg success] at executes
    obtain ⟨final,rfl⟩ := executes_answer executes
    exact .inr ⟨success,final,rfl⟩

theorem executes_shard (executes : Executes cfg (shardGraph alloc first backfill) state runs last) :
    ∃ rest, runs = (mod alloc first,state) :: rest ∧ ∀ run ∈ rest, run.1 = mod alloc backfill := by
  cases executes with
  | @visit result _ _ runs _ _ _ executes =>
    refine ⟨runs,rfl,?_⟩
    dsimp only at executes
    split at executes
    · cases executes with
      | leave => simp
    · cases executes with
      | visit _ executes =>
        cases executes with
        | leave => simp

theorem visits_node (n m : Node) (one : n.Inside flags) (two : m.Inside flags) (state : ModState) (runs : List Run) :
    visits ((mod alloc n,state) :: runs) (mod alloc m) = visits runs (mod alloc m) + if n = m then 1 else 0 := by
  rw [visits_cons]
  simp only [mod_inj flags alloc n m one two]

theorem visits_shard (executes : Executes cfg (shardGraph alloc first backfill) state runs last)
    (one : first.Inside flags) (two : backfill.Inside flags) (n : Node) (inside : n.Inside flags) (other : n ≠ backfill) :
    visits runs (mod alloc n) = if n = first then 1 else 0 := by
  obtain ⟨rest,rfl,backfilled⟩ := executes_shard executes
  rw [visits_node first n one inside,visits_eq_zero.mpr,Nat.zero_add]
  · simp only [eq_comm]
  · intro run member same
    rw [backfilled run member] at same
    exact other ((mod_inj flags alloc backfill n two inside).mp same).symm

theorem fsShard_mentions (i : Nat) (within : width alloc cfg context (.psForkMod2 i) ≤ flags.maxSubModelIdSize)
    (inside : i < flags.fsMaxShardNum) (mentions : (fsShardGraph alloc cfg context i).Mentions m) :
    ∃ n, n.Inside flags ∧ n.shardOf = some i ∧ m = mod alloc n := by
  rcases mentions with rfl | ⟨state,mentions⟩
  · exact ⟨.fsMod i,inside,rfl,rfl⟩
  · dsimp only at mentions
    split at mentions
    · rcases mentions with rfl | rfl | ⟨j,bound,mentions⟩ | ⟨state,mentions⟩
      · exact ⟨.psForkMod2 i,inside,rfl,rfl⟩
      · exact ⟨.psJoinMod2 i,inside,rfl,rfl⟩
      · have limit := bound.trans_le within
        rcases mentions with rfl | ⟨state,mentions⟩
        · exact ⟨.psMod2 i j,⟨inside,limit⟩,rfl,rfl⟩
        · dsimp only at mentions
          split at mentions
          · exact mentions.elim
          · rcases mentions with rfl | ⟨state,mentions⟩
            · exact ⟨.psBackfillMod2 i j,⟨inside,limit⟩,rfl,rfl⟩
            · exact mentions.elim
      · exact mentions.elim
    · exact mentions.elim

theorem visits_fsShard (app : Application flags states alloc cfg context) (i : Nat) (inside : i < flags.fsMaxShardNum)
    (executes : Executes cfg (fsShardGraph alloc cfg context i) state runs last) (n : Node) (known : n.Inside flags)
    (other : n.shardOf ≠ some i) : visits runs (mod alloc n) = 0 := by
  apply visits_eq_zero.mpr
  rintro run member same
  have within := app.width_le (.psForkMod2 i) (.psJoinMod2 i) rfl inside
  obtain ⟨m,valid,own,eq⟩ := fsShard_mentions i within inside (executes.mentions run member)
  rw [same] at eq
  rw [(mod_inj flags alloc n m known valid).mp eq] at other
  exact other own

theorem Node.join_inside (fork join : Node) (pair : fork.join = some join) (inside : fork.Inside flags) :
    fork ≠ join ∧ join.Inside flags ∧ ∀ i < fork.forkNum flags,
      (fork.branch i).Inside flags ∧ fork.branch i ≠ fork ∧ fork.branch i ≠ join := by
  cases fork <;> simp only [Node.join,Option.some.injEq,reduceCtorEq] at pair
  all_goals
    subst pair
    simp [Node.branch,Node.Inside,Node.forkNum] at inside ⊢ <;> grind

structure Traversed (flags : Flags) (alloc : Node → Nat) (cfg : Config) (context : Nat) (fork join : Node)
    (branch : Nat → Graph) (next : ModState → Graph) (runs : List Run) (traces : Nat → List Run)
    (arriving : Nat → ModState) (between rest : List Run) : Prop where
  split : ∃ state, runs = (mod alloc fork,state) :: (between ++ rest)
  branches : ∀ j < width alloc cfg context fork,
    Executes cfg (branch j) (modFork0 + UInt32.ofNat j) (traces j) (arriving j)
  merge : Merge (width alloc cfg context fork) (fun j => traces j ++ [(mod alloc join,arriving j)]) between
  left : ∃ last, Executes cfg (next (decision (width alloc cfg context fork) arriving))
    (decision (width alloc cfg context fork) arriving) rest last
  total : ∀ n, n.Inside flags → visits runs (mod alloc n) =
    (∑ j ∈ Finset.range (width alloc cfg context fork), visits (traces j) (mod alloc n)) +
      (if join = n then width alloc cfg context fork else 0) + visits rest (mod alloc n) +
      if fork = n then 1 else 0

theorem executes_region (flags : Flags) (fork join : Node) (pair : fork.join = some join) (inside : fork.Inside flags)
    (executes : Executes cfg (regionGraph alloc cfg context fork join branch next) state runs last) :
    ∃ traces arriving between rest,
      Traversed flags alloc cfg context fork join branch next runs traces arriving between rest := by
  have valid := (Node.join_inside fork join pair inside).2.1
  cases executes with
  | region traces arriving executed merge executes =>
    refine ⟨traces,arriving,_,_,⟨_,rfl⟩,executed,merge,⟨_,executes⟩,?_⟩
    intro n known
    rw [visits_node fork n inside known,visits_append,visits_merge traces arriving merge]
    simp only [mod_inj flags alloc join n valid known]

/-- What the runs of a region have in them of the fork, its branches and its join, if the
branches and what follows have no more. -/
theorem Traversed.forked {arriving : Nat → ModState}
    (traversed : Traversed flags alloc cfg context fork join branch next runs traces arriving between rest)
    (pair : fork.join = some join) (inside : fork.Inside flags)
    (each : ∀ j < width alloc cfg context fork,
      visits (traces j) (mod alloc fork) = 0 ∧ visits (traces j) (mod alloc join) = 0 ∧
      ∀ i < fork.forkNum flags, visits (traces j) (mod alloc (fork.branch i)) = if i = j then 1 else 0)
    (silent : visits rest (mod alloc fork) = 0 ∧ visits rest (mod alloc join) = 0 ∧
      ∀ i < fork.forkNum flags, visits rest (mod alloc (fork.branch i)) = 0) :
    visits runs (mod alloc fork) = 1 ∧ Forked flags alloc cfg context runs fork join := by
  obtain ⟨different,valid,branching⟩ := Node.join_inside fork join pair inside
  have within (j : Nat) (member : j ∈ Finset.range (width alloc cfg context fork)) :=
    each j (Finset.mem_range.mp member)
  have forks : visits runs (mod alloc fork) = 1 := by
    rw [traversed.total fork inside,Finset.sum_eq_zero fun j bound => (within j bound).1,silent.1,
      if_neg different.symm,if_pos rfl]
  refine ⟨forks,forks.le,?_,?_⟩
  · intro i bound
    obtain ⟨known,one,two⟩ := branching i bound
    have sum : ∑ j ∈ Finset.range (width alloc cfg context fork), visits (traces j) (mod alloc (fork.branch i)) =
        if i < width alloc cfg context fork then 1 else 0 := by
      rw [Finset.sum_congr rfl fun j inside => (within j inside).2.2 i bound,Finset.sum_ite_eq]
      simp only [Finset.mem_range]
    rw [traversed.total _ known,sum,silent.2.2 i bound,if_neg (Ne.symm two),if_neg (Ne.symm one),forks]
    omega
  · rw [traversed.total join valid,Finset.sum_eq_zero fun j bound => (within j bound).2.1,silent.2.1,if_pos rfl,
      if_neg different,forks]
    omega

theorem Forked.none (fork join : Node) (one : visits runs (mod alloc fork) = 0)
    (two : visits runs (mod alloc join) = 0)
    (branches : ∀ i < fork.forkNum flags, visits runs (mod alloc (fork.branch i)) = 0) :
    Forked flags alloc cfg context runs fork join where
  once := by omega
  branches i bound := by rw [branches i bound,one,ite_self]
  joined := by rw [one,two,Nat.mul_zero]

theorem Forked.congr (forked : Forked flags alloc cfg context runs fork join)
    (one : visits runs' (mod alloc fork) = visits runs (mod alloc fork))
    (two : visits runs' (mod alloc join) = visits runs (mod alloc join))
    (branches : ∀ i < fork.forkNum flags,
      visits runs' (mod alloc (fork.branch i)) = visits runs (mod alloc (fork.branch i))) :
    Forked flags alloc cfg context runs' fork join where
  once := one.trans_le forked.once
  branches i bound := by rw [branches i bound,forked.branches i bound,one]
  joined := by rw [one,two,forked.joined]

/-- A shard of the feature server is asked once, and may then ask its own shards. -/
theorem fsShard_forked (app : Application flags states alloc cfg context) (i : Nat) (inside : i < flags.fsMaxShardNum)
    (executes : Executes cfg (fsShardGraph alloc cfg context i) state runs last) :
    visits runs (mod alloc (.fsMod i)) = 1 ∧
      Forked flags alloc cfg context runs (.psForkMod2 i) (.psJoinMod2 i) := by
  cases executes with
  | @visit _ _ _ runs _ _ _ executes =>
    have asked (n : Node) (known : n.Inside flags) : visits ((mod alloc (.fsMod i),state) :: runs) (mod alloc n) =
        visits runs (mod alloc n) + if .fsMod i = n then 1 else 0 := visits_node (.fsMod i) n inside known state runs
    dsimp only at executes
    split at executes
    · obtain ⟨traces,arriving,between,rest,traversed⟩ :=
        executes_region flags (.psForkMod2 i) (.psJoinMod2 i) rfl inside executes
      obtain rfl : rest = [] := by
        obtain ⟨_,left⟩ := traversed.left
        cases left
        rfl
      have within := app.width_le (.psForkMod2 i) (.psJoinMod2 i) rfl inside
      have shards (j : Nat) (bound : j < width alloc cfg context (.psForkMod2 i)) (n : Node) (known : n.Inside flags)
          (other : n ≠ .psBackfillMod2 i j) : visits (traces j) (mod alloc n) = if n = .psMod2 i j then 1 else 0 :=
        visits_shard (traversed.branches j bound) ⟨inside,bound.trans_le within⟩ ⟨inside,bound.trans_le within⟩ n known other
      obtain ⟨_,forked⟩ := traversed.forked rfl inside (by
        intro j bound
        refine ⟨?_,?_,?_⟩
        · simpa using shards j bound (.psForkMod2 i) inside (by simp)
        · simpa using shards j bound (.psJoinMod2 i) inside (by simp)
        · intro k limit
          simpa [Node.branch] using shards j bound (.psMod2 i k) ⟨inside,limit⟩ (by simp)) (by simp)
      refine ⟨?_,forked.congr ?_ ?_ ?_⟩
      · rw [asked (.fsMod i) inside,traversed.total (.fsMod i) inside,Finset.sum_eq_zero]
        · simp
        · intro j bound
          simpa using shards j (Finset.mem_range.mp bound) (.fsMod i) inside (by simp)
      · simp [asked (.psForkMod2 i) inside]
      · simp [asked (.psJoinMod2 i) inside]
      · intro j bound
        simp [Node.branch,asked (.psMod2 i j) ⟨inside,bound⟩]
    · obtain rfl : runs = [] := by cases executes; rfl
      refine ⟨by simp [asked (.fsMod i) inside],.none _ _ ?_ ?_ ?_⟩
      · simp [asked (.psForkMod2 i) inside]
      · simp [asked (.psJoinMod2 i) inside]
      · intro j bound
        simp [Node.branch,asked (.psMod2 i j) ⟨inside,bound⟩]

/-- The modules in no branch. -/
def Node.outer : Node → Bool
  | .fsMod _ | .psForkMod2 _ | .psJoinMod2 _ | .psMod2 _ _ | .psBackfillMod2 _ _ | .psMod _ | .psBackfillMod _ => false
  | _ => true

def Node.concludes : Node → Bool
  | .ifRandMod | .respMod | .randRespMod | .emptyRespMod | .endMod => true
  | _ => false

theorem Node.outer_inside (n : Node) (outer : n.outer) (flags : Flags) : n.Inside flags := by
  cases n <;> trivial

theorem Node.concludes_outer (n : Node) (concludes : n.concludes) : n.outer := by
  cases n <;> trivial

theorem Node.concludes_inside (n : Node) (concludes : n.concludes) (flags : Flags) : n.Inside flags := by
  cases n <;> trivial

theorem mod_outer (n m : Node) (one : n.outer) (two : m.outer) : mod alloc n = mod alloc m ↔ n = m := by
  have flags : Flags := ⟨0,0,0,by decide,by decide,by decide⟩
  exact mod_inj flags alloc n m (n.outer_inside one flags) (m.outer_inside two flags)

/-- What is left of a request once it has been given to the servers. -/
structure Served (flags : Flags) (alloc : Node → Nat) (cfg : Config) (context : Nat) (runs : List Run) : Prop where
  quiet : ∀ n, n = .reqMod ∨ n = .genFsReqMod ∨ n = .genPsReqMod → visits runs (mod alloc n) = 0
  ends : ∃ before state, runs = before ++ [(mod alloc .endMod,state)] ∧ visits before (mod alloc .endMod) = 0
  answered : visits runs (mod alloc .respMod) + visits runs (mod alloc .randRespMod) +
    visits runs (mod alloc .emptyRespMod) = 1
  served : visits runs (mod alloc .emptyRespMod) + visits runs (mod alloc .ifRandMod) = 1
  succeeded : visits runs (mod alloc .ifRandMod) = 1 ↔ ∃ join, (join = .fsJoinMod ∨ join = .psJoinMod) ∧
    visits runs (mod alloc join) ≠ 0 ∧ ∀ state, (mod alloc join,state) ∈ runs → state = modSucceed
  forked : ∀ fork join, fork.join = some join → fork.Inside flags →
    Forked flags alloc cfg context runs fork join

theorem visits_conclude (flags : Flags)
    (executes : Executes cfg (conclude states alloc state) state runs last) :
    (∀ n, n.Inside flags → n.concludes = false → visits runs (mod alloc n) = 0) ∧
    (∃ before state, runs = before ++ [(mod alloc .endMod,state)] ∧ visits before (mod alloc .endMod) = 0) ∧
    visits runs (mod alloc .respMod) + visits runs (mod alloc .randRespMod) +
      visits runs (mod alloc .emptyRespMod) = 1 ∧
    visits runs (mod alloc .emptyRespMod) + visits runs (mod alloc .ifRandMod) = 1 ∧
    (visits runs (mod alloc .ifRandMod) = 1 ↔ state = modSucceed) := by
  have absent (concluding : ∀ run ∈ runs, ∃ m : Node, m.concludes ∧ run.1 = mod alloc m) (n : Node)
      (inside : n.Inside flags) (other : n.concludes = false) : visits runs (mod alloc n) = 0 := by
    apply visits_eq_zero.mpr
    intro run member same
    obtain ⟨m,concludes,eq⟩ := concluding run member
    rw [same] at eq
    rw [(mod_inj flags alloc n m inside (m.concludes_inside concludes flags)).mp eq,concludes] at other
    cases other
  rcases executes_conclude executes with ⟨success,response,result,final,one,rfl⟩ | ⟨failure,final,rfl⟩
  · have concludes : response.concludes := by rcases one with rfl | rfl <;> rfl
    refine ⟨absent ?_,⟨[(mod alloc .ifRandMod,state),(mod alloc response,result)],final,rfl,?_⟩,?_⟩
    · intro run member
      simp only [List.mem_cons,List.not_mem_nil,or_false] at member
      rcases member with rfl | rfl | rfl
      · exact ⟨.ifRandMod,rfl,rfl⟩
      · exact ⟨response,concludes,rfl⟩
      · exact ⟨.endMod,rfl,rfl⟩
    all_goals rcases one with rfl | rfl <;> simp (disch := decide) [mod_outer,success]
  · refine ⟨absent ?_,⟨[(mod alloc .emptyRespMod,state)],final,rfl,?_⟩,?_⟩
    · intro run member
      simp only [List.mem_cons,List.not_mem_nil,or_false] at member
      rcases member with rfl | rfl
      · exact ⟨.emptyRespMod,rfl,rfl⟩
      · exact ⟨.endMod,rfl,rfl⟩
    all_goals simp (disch := decide) [mod_outer,failure]

theorem Traversed.served {arriving : Nat → ModState}
    (traversed : Traversed flags alloc cfg context fork join branch (conclude states alloc) runs traces arriving between rest)
    (top : fork = .fsForkMod ∧ join = .fsJoinMod ∨ fork = .psForkMod ∧ join = .psJoinMod)
    (app : Application flags states alloc cfg context)
    (quiet : ∀ j < width alloc cfg context fork, ∀ n : Node, n.outer → visits (traces j) (mod alloc n) = 0)
    (forked : ∀ fork join, fork.join = some join → fork.Inside flags →
      Forked flags alloc cfg context runs fork join) : Served flags alloc cfg context runs := by
  obtain ⟨_,left⟩ := traversed.left
  obtain ⟨absent,⟨before,final,rfl,once⟩,answered,served,succeeded⟩ := visits_conclude flags left
  have fixed : fork.outer ∧ join.outer ∧ fork ≠ join ∧ fork.join = some join ∧
      fork.concludes = false ∧ join.concludes = false := by
    rcases top with ⟨rfl,rfl⟩ | ⟨rfl,rfl⟩ <;> decide
  obtain ⟨outerFork,outerJoin,apart,pair,plainFork,plainJoin⟩ := fixed
  have total (n : Node) (outer : n.outer) : visits runs (mod alloc n) =
      (if join = n then width alloc cfg context fork else 0) + visits (before ++ [(mod alloc .endMod,final)])
        (mod alloc n) + if fork = n then 1 else 0 := by
    rw [traversed.total n (n.outer_inside outer flags),Finset.sum_eq_zero,Nat.zero_add]
    exact fun j bound => quiet j (Finset.mem_range.mp bound) n outer
  have concluding (n : Node) (concludes : n.concludes) :
      visits runs (mod alloc n) = visits (before ++ [(mod alloc .endMod,final)]) (mod alloc n) := by
    have one : join ≠ n := by
      rintro rfl
      simp [plainJoin] at concludes
    have two : fork ≠ n := by
      rintro rfl
      simp [plainFork] at concludes
    rw [total n (n.concludes_outer concludes),if_neg one,if_neg two]
    omega
  have entered := (app.active fork join pair (fork.outer_inside outerFork flags)).1
  have positive : 0 < width alloc cfg context fork := UInt16.lt_iff_toNat_lt.mp entered
  obtain ⟨state,split⟩ := traversed.split
  refine ⟨?_,?_,?_,?_,?_,forked⟩
  · intro n one
    have plain : n.outer ∧ n.concludes = false ∧ join ≠ n ∧ fork ≠ n := by
      rcases one with rfl | rfl | rfl <;> rcases top with ⟨rfl,rfl⟩ | ⟨rfl,rfl⟩ <;> decide
    rw [total n plain.1,if_neg plain.2.2.1,if_neg plain.2.2.2,
      absent n (n.outer_inside plain.1 flags) plain.2.1]
  · refine ⟨(mod alloc fork,state) :: (between ++ before),final,by simp [split],?_⟩
    have all := concluding .endMod rfl
    rw [split,← List.append_assoc,← List.cons_append,visits_append,visits_append,once] at all
    omega
  · rw [concluding _ rfl,concluding _ rfl,concluding _ rfl,answered]
  · rw [concluding _ rfl,concluding _ rfl,served]
  · have joined := join_mem traces arriving traversed.merge fun i bound => quiet i bound join outerJoin
    have member (state : ModState) : (mod alloc join,state) ∈ runs ↔ ∃ i < width alloc cfg context fork, arriving i = state := by
      rw [← joined state,split,List.mem_cons,List.mem_append]
      constructor
      · rintro (same | member | member)
        · exact (apart ((mod_outer fork join outerFork outerJoin).mp (congrArg Prod.fst same).symm)).elim
        · exact member
        · have none := absent join (join.outer_inside outerJoin flags) plainJoin
          exact (visits_eq_zero.mp none _ member rfl).elim
      · exact fun member => .inr (.inl member)
    have other (n : Node) (one : n = .fsJoinMod ∨ n = .psJoinMod) (some : visits runs (mod alloc n) ≠ 0) : n = join := by
      have plain : n.outer ∧ n.concludes = false ∧ fork ≠ n := by
        rcases one with rfl | rfl <;> rcases top with ⟨rfl,rfl⟩ | ⟨rfl,rfl⟩ <;> decide
      by_contra different
      rw [total n plain.1,if_neg (Ne.symm different),if_neg plain.2.2,
        absent n (n.outer_inside plain.1 flags) plain.2.1] at some
      exact some rfl
    rw [concluding _ rfl,succeeded,decision_succeed]
    constructor
    · intro all
      refine ⟨join,?_,?_,?_⟩
      · exact top.imp And.right And.right
      · rw [total join outerJoin,if_pos rfl]
        omega
      · intro state run
        obtain ⟨i,bound,rfl⟩ := (member state).mp run
        exact all i bound
    · rintro ⟨n,one,some,all⟩ i bound
      obtain rfl := other n one some
      exact all _ ((member _).mpr ⟨i,bound,rfl⟩)

theorem Node.outer_shard (n : Node) (outer : n.outer) : n.shardOf = none := by
  cases n <;> trivial

theorem fs_served (app : Application flags states alloc cfg context)
    (executes : Executes cfg (regionGraph alloc cfg context .fsForkMod .fsJoinMod (fsShardGraph alloc cfg context)
      (conclude states alloc)) state runs last) : Served flags alloc cfg context runs := by
  obtain ⟨traces,arriving,between,rest,traversed⟩ := executes_region flags .fsForkMod .fsJoinMod rfl trivial executes
  obtain ⟨_,left⟩ := traversed.left
  have silent := (visits_conclude flags left).1
  have within := app.width_le .fsForkMod .fsJoinMod rfl trivial
  have others (j : Nat) (bound : j < width alloc cfg context .fsForkMod) (n : Node) (inside : n.Inside flags)
      (other : n.shardOf ≠ some j) : visits (traces j) (mod alloc n) = 0 :=
    visits_fsShard app j (bound.trans_le within) (traversed.branches j bound) n inside other
  have shards (j : Nat) (bound : j < width alloc cfg context .fsForkMod) :=
    fsShard_forked app j (bound.trans_le within) (traversed.branches j bound)
  refine traversed.served (.inl ⟨rfl,rfl⟩) app ?_ ?_
  · intro j bound n outer
    exact others j bound n (n.outer_inside outer flags) (by simp [n.outer_shard outer])
  · intro fork join pair inside
    -- the regions of the other ways to answer are not entered
    have apart (n : Node) (known : n.Inside flags) (outside : n.shardOf = none) (plain : n.concludes = false)
        (one : Node.fsJoinMod ≠ n) (two : Node.fsForkMod ≠ n) : visits runs (mod alloc n) = 0 := by
      rw [traversed.total n known,if_neg one,if_neg two,silent n known plain,Finset.sum_eq_zero]
      exact fun j bound => others j (Finset.mem_range.mp bound) n known (by simp [outside])
    cases fork <;> simp only [Node.join,Option.some.injEq,reduceCtorEq] at pair <;> subst pair
    case fsForkMod =>
      refine (traversed.forked rfl trivial ?_ ⟨silent _ trivial rfl,silent _ trivial rfl,?_⟩).2
      · intro j bound
        refine ⟨others j bound _ trivial (by simp [Node.shardOf]),others j bound _ trivial (by simp [Node.shardOf]),?_⟩
        intro i limit
        by_cases same : i = j
        · subst same
          rw [if_pos rfl]
          exact (shards i bound).1
        · rw [if_neg same]
          exact others j bound (.fsMod i) limit (by simpa [Node.shardOf] using same)
      · exact fun i limit => silent (.fsMod i) limit rfl
    case psForkMod2 k =>
      -- what belongs to a shard is run in its branch, if there is one
      have own (n : Node) (known : n.Inside flags) (shard : n.shardOf = some k) (plain : n.concludes = false)
          (outer : n.outer = false) : visits runs (mod alloc n) =
            if k < width alloc cfg context .fsForkMod then visits (traces k) (mod alloc n) else 0 := by
        have one : Node.fsJoinMod ≠ n := by rintro rfl; cases outer
        have two : Node.fsForkMod ≠ n := by rintro rfl; cases outer
        rw [traversed.total n known,if_neg one,if_neg two,silent n known plain]
        simp only [Nat.add_zero]
        split
        · rename_i bound
          apply Finset.sum_eq_single_of_mem k (Finset.mem_range.mpr bound)
          intro j member different
          exact others j (Finset.mem_range.mp member) n known (by simpa [shard] using Ne.symm different)
        · rename_i bound
          apply Finset.sum_eq_zero
          intro j member
          refine others j (Finset.mem_range.mp member) n known ?_
          rintro same
          rw [shard] at same
          cases same
          exact bound (Finset.mem_range.mp member)
      by_cases bound : k < width alloc cfg context .fsForkMod
      · simp only [if_pos bound] at own
        refine (shards k bound).2.congr (own _ inside rfl rfl rfl) (own _ inside rfl rfl rfl) ?_
        exact fun j limit => own (.psMod2 k j) ⟨inside,limit⟩ rfl rfl rfl
      · simp only [if_neg bound] at own
        refine .none _ _ (own _ inside rfl rfl rfl) (own _ inside rfl rfl rfl) ?_
        exact fun j limit => own (.psMod2 k j) ⟨inside,limit⟩ rfl rfl rfl
    case psForkMod =>
      refine .none _ _ (apart _ trivial rfl rfl (by simp) (by simp)) (apart _ trivial rfl rfl (by simp) (by simp)) ?_
      exact fun i limit => apart (.psMod i) limit rfl rfl (by simp) (by simp)

theorem ps_served (app : Application flags states alloc cfg context)
    (executes : Executes cfg (regionGraph alloc cfg context .psForkMod .psJoinMod
      (fun i => shardGraph alloc (.psMod i) (.psBackfillMod i)) (conclude states alloc)) state runs last) :
    Served flags alloc cfg context runs := by
  obtain ⟨traces,arriving,between,rest,traversed⟩ := executes_region flags .psForkMod .psJoinMod rfl trivial executes
  obtain ⟨_,left⟩ := traversed.left
  have silent := (visits_conclude flags left).1
  have within := app.width_le .psForkMod .psJoinMod rfl trivial
  have shards (j : Nat) (bound : j < width alloc cfg context .psForkMod) (n : Node) (inside : n.Inside flags)
      (other : n ≠ .psBackfillMod j) : visits (traces j) (mod alloc n) = if n = .psMod j then 1 else 0 :=
    visits_shard (traversed.branches j bound) (bound.trans_le within) (bound.trans_le within) n inside other
  have others (j : Nat) (bound : j < width alloc cfg context .psForkMod) (n : Node) (inside : n.Inside flags)
      (one : n ≠ .psMod j) (two : n ≠ .psBackfillMod j) : visits (traces j) (mod alloc n) = 0 := by
    rw [shards j bound n inside two,if_neg one]
  refine traversed.served (.inr ⟨rfl,rfl⟩) app ?_ ?_
  · intro j bound n outer
    refine others j bound n (n.outer_inside outer flags) ?_ ?_ <;> rintro rfl <;> cases outer
  · intro fork join pair inside
    have apart (n : Node) (known : n.Inside flags) (plain : n.concludes = false) (shard : ∀ j, n ≠ .psMod j)
        (backfill : ∀ j, n ≠ .psBackfillMod j) (one : Node.psJoinMod ≠ n) (two : Node.psForkMod ≠ n) :
        visits runs (mod alloc n) = 0 := by
      rw [traversed.total n known,if_neg one,if_neg two,silent n known plain,Finset.sum_eq_zero]
      exact fun j bound => others j (Finset.mem_range.mp bound) n known (shard j) (backfill j)
    cases fork <;> simp only [Node.join,Option.some.injEq,reduceCtorEq] at pair <;> subst pair
    case psForkMod =>
      refine (traversed.forked rfl trivial ?_ ⟨silent _ trivial rfl,silent _ trivial rfl,?_⟩).2
      · intro j bound
        refine ⟨others j bound _ trivial (by simp) (by simp),others j bound _ trivial (by simp) (by simp),?_⟩
        intro i limit
        simpa [Node.branch] using shards j bound (.psMod i) limit (by simp)
      · exact fun i limit => silent (.psMod i) limit rfl
    case fsForkMod =>
      refine .none _ _ (apart _ trivial rfl (by simp) (by simp) (by simp) (by simp))
        (apart _ trivial rfl (by simp) (by simp) (by simp) (by simp)) ?_
      exact fun i limit => apart (.fsMod i) limit rfl (by simp) (by simp) (by simp) (by simp)
    case psForkMod2 k =>
      refine .none _ _ (apart _ inside rfl (by simp) (by simp) (by simp) (by simp))
        (apart _ inside rfl (by simp) (by simp) (by simp) (by simp)) ?_
      exact fun j limit => apart (.psMod2 k j) ⟨inside,limit⟩ rfl (by simp) (by simp) (by simp) (by simp)

theorem Forked.absent (none : ∀ n, n.Inside flags → n.concludes = false → n ≠ .reqMod → n ≠ .genFsReqMod →
      n ≠ .genPsReqMod → visits runs (mod alloc n) = 0)
    (fork join : Node) (pair : fork.join = some join) (inside : fork.Inside flags) :
    Forked flags alloc cfg context runs fork join := by
  obtain ⟨_,valid,branching⟩ := Node.join_inside fork join pair inside
  cases fork <;> simp only [Node.join,Option.some.injEq,reduceCtorEq] at pair <;> subst pair
  all_goals
    refine .none _ _ (none _ inside rfl (by simp) (by simp) (by simp)) (none _ valid rfl (by simp) (by simp) (by simp)) ?_
    exact fun i bound => none _ (branching i bound).1 rfl (by simp [Node.branch]) (by simp [Node.branch]) (by simp [Node.branch])

theorem empty_served (failed : state ≠ modSucceed)
    (executes : Executes cfg (answer alloc .emptyRespMod) state runs last) : Served flags alloc cfg context runs := by
  have states : States := ⟨1,2,3,1,2,by decide,by decide⟩
  have same : answer alloc .emptyRespMod = conclude states alloc state := by rw [conclude,if_neg failed]
  rw [same] at executes
  obtain ⟨absent,ends,answered,served,succeeded⟩ := visits_conclude flags executes
  refine ⟨?_,ends,answered,served,?_,Forked.absent fun n inside plain _ _ _ => absent n inside plain⟩
  · rintro n (rfl | rfl | rfl) <;> exact absent _ trivial rfl
  · rw [succeeded]
    constructor
    · exact fun success => (failed success).elim
    · rintro ⟨join,rfl | rfl,some,_⟩ <;> exact (some (absent _ trivial rfl)).elim

theorem Served.whole (served : Served flags alloc cfg context body) (gen : Node)
    (one : gen = .genFsReqMod ∨ gen = .genPsReqMod) (state : ModState) :
    Answered flags states alloc cfg context ((mod alloc .reqMod,modStart) :: (mod alloc gen,state) :: body) := by
  have outer : gen.outer := by rcases one with rfl | rfl <;> rfl
  have further (n : Node) (inside : n.Inside flags) : visits ((mod alloc .reqMod,modStart) :: (mod alloc gen,state) :: body)
      (mod alloc n) = visits body (mod alloc n) + (if gen = n then 1 else 0) + if .reqMod = n then 1 else 0 := by
    rw [visits_node .reqMod n trivial inside,visits_node gen n (gen.outer_inside outer flags) inside]
  have kept (n : Node) (inside : n.Inside flags) (apart : n ≠ .genFsReqMod ∧ n ≠ .genPsReqMod ∧ n ≠ .reqMod) :
      visits ((mod alloc .reqMod,modStart) :: (mod alloc gen,state) :: body) (mod alloc n) = visits body (mod alloc n) := by
    have other : gen ≠ n := by
      rcases one with rfl | rfl
      · exact apart.1.symm
      · exact apart.2.1.symm
    rw [further n inside,if_neg other,if_neg (Ne.symm apart.2.2)]
    rfl
  refine ⟨⟨_,rfl,?_⟩,?_,.inr ?_,?_,?_,?_⟩
  · rw [visits_node gen .reqMod (gen.outer_inside outer flags) trivial,served.quiet _ (.inl rfl)]
    rcases one with rfl | rfl <;> rfl
  · obtain ⟨before,final,rfl,once⟩ := served.ends
    refine ⟨(mod alloc .reqMod,modStart) :: (mod alloc gen,state) :: before,final,rfl,?_⟩
    rcases one with rfl | rfl <;> simp (disch := decide) [mod_outer,once]
  · rw [kept .respMod trivial (by simp),kept .randRespMod trivial (by simp),kept .emptyRespMod trivial (by simp),
      served.answered]
  · rw [kept .emptyRespMod trivial (by simp),kept .ifRandMod trivial (by simp),served.served,
      further .genFsReqMod trivial,further .genPsReqMod trivial,
      served.quiet _ (.inr (.inl rfl)),served.quiet _ (.inr (.inr rfl))]
    rcases one with rfl | rfl <;> rfl
  · rw [kept .ifRandMod trivial (by simp),served.succeeded]
    apply exists_congr
    intro join
    apply and_congr_right
    intro top
    have apart : join.Inside flags ∧ join.outer ∧ join ≠ .genFsReqMod ∧ join ≠ .genPsReqMod ∧ join ≠ .reqMod := by
      rcases top with rfl | rfl <;> exact ⟨trivial,by decide⟩
    have other : join ≠ gen := by
      rcases one with rfl | rfl
      · exact apart.2.2.1
      · exact apart.2.2.2.1
    rw [kept join apart.1 apart.2.2]
    simp (disch := first | decide | assumption | exact apart.2.1) [mod_outer,other,apart.2.2.2.2]
  · intro fork join pair inside
    obtain ⟨_,valid,branching⟩ := Node.join_inside fork join pair inside
    cases fork <;> simp only [Node.join,Option.some.injEq,reduceCtorEq] at pair <;> subst pair
    all_goals
      refine (served.forked _ _ rfl inside).congr (kept _ inside (by simp)) (kept _ valid (by simp)) ?_
      exact fun i bound => kept _ (branching i bound).1 (by simp [Node.branch])

theorem short_answered (rest : List Run) (state : ModState) (random : ∀ run ∈ rest, run.1 = mod alloc .randRespMod)
    (one : rest = [] ∧ state ∉ [states.reqSucceedToFs,states.reqSucceedToPs,states.reqSucceedToRandom] ∨
      visits rest (mod alloc .randRespMod) = 1) :
    Answered flags states alloc cfg context
      ((mod alloc .reqMod,modStart) :: (rest ++ [(mod alloc .endMod,state)])) := by
  have others (n : Node) (inside : n.Inside flags) (apart : n ≠ .randRespMod) : visits rest (mod alloc n) = 0 := by
    apply visits_eq_zero.mpr
    intro run member same
    rw [random run member] at same
    exact apart ((mod_inj flags alloc .randRespMod n trivial inside).mp same).symm
  have whole (n : Node) (inside : n.Inside flags) :
      visits ((mod alloc .reqMod,modStart) :: (rest ++ [(mod alloc .endMod,state)])) (mod alloc n) =
        visits rest (mod alloc n) + (if .endMod = n then 1 else 0) + if .reqMod = n then 1 else 0 := by
    rw [visits_node .reqMod n trivial inside,visits_append,visits_node .endMod n trivial inside,visits_nil,Nat.zero_add]
  have absent (n : Node) (inside : n.Inside flags) (apart : n ≠ .randRespMod) (last : n ≠ .endMod) (first : n ≠ .reqMod) :
      visits ((mod alloc .reqMod,modStart) :: (rest ++ [(mod alloc .endMod,state)])) (mod alloc n) = 0 := by
    rw [whole n inside,others n inside apart,if_neg (Ne.symm last),if_neg (Ne.symm first)]
  refine ⟨⟨_,rfl,?_⟩,⟨_ :: rest,state,rfl,?_⟩,?_,?_,?_,?_⟩
  · simp (disch := decide) [mod_outer,others .reqMod trivial (by simp)]
  · simp (disch := decide) [mod_outer,others .endMod trivial (by simp)]
  · rcases one with ⟨rfl,other⟩ | once
    · exact .inl ⟨state,rfl,other⟩
    · refine .inr ?_
      rw [absent .respMod trivial (by simp) (by simp) (by simp),absent .emptyRespMod trivial (by simp) (by simp) (by simp),
        whole .randRespMod trivial,once]
      rfl
  · rw [absent .emptyRespMod trivial (by simp) (by simp) (by simp),absent .ifRandMod trivial (by simp) (by simp) (by simp),
      absent .genFsReqMod trivial (by simp) (by simp) (by simp),absent .genPsReqMod trivial (by simp) (by simp) (by simp)]
  · rw [absent .ifRandMod trivial (by simp) (by simp) (by simp)]
    constructor
    · intro never
      cases never
    · rintro ⟨join,rfl | rfl,some,_⟩ <;> exact (some (absent _ trivial (by simp) (by simp) (by simp))).elim
  · refine Forked.absent ?_
    intro n inside plain first _ _
    refine absent n inside ?_ ?_ first <;> rintro rfl <;> cases plain

theorem request_answered (app : Application flags states alloc cfg context)
    (executes : Executes cfg (requestGraph states alloc cfg context) modStart runs last) :
    Answered flags states alloc cfg context runs := by
  cases executes with
  | @visit state _ _ runs _ _ _ executes =>
    dsimp only at executes
    split at executes
    · cases executes with
      | visit _ executes =>
        dsimp only at executes
        split at executes
        · exact (fs_served app executes).whole .genFsReqMod (.inl rfl) _
        · rename_i failed
          exact (empty_served failed executes).whole .genFsReqMod (.inl rfl) _
    · split at executes
      · cases executes with
        | visit _ executes =>
          dsimp only at executes
          split at executes
          · exact (ps_served app executes).whole .genPsReqMod (.inr rfl) _
          · rename_i failed
            exact (empty_served failed executes).whole .genPsReqMod (.inr rfl) _
      · split at executes
        · obtain ⟨final,rfl⟩ := executes_answer executes
          exact short_answered [_] final (by simp) (.inr (by simp))
        · cases executes with
          | visit _ executes =>
            cases executes with
            | leave => exact short_answered [] _ (by simp) (.inl ⟨rfl,by simp [*]⟩)

end Executions

/-- Whatever the flags, the number of shards that are asked, what the modules make of each
request and the order of all handlers, a request that has ended has been answered. -/
theorem service_answers (flags : Flags) (states : States) (alloc : Node → Nat) (cfg : Config)
    (app : ∀ context, Application flags states alloc cfg context) (joins : Nat → String → JoinData)
    (schedule : List Server.Action) :
    let m := (execute (Server.step cfg) (Server.initial (fsm flags states alloc) joins) schedule).machine
    m.crashed = false ∧ ∀ c < m.world.contexts, ends m.log c = 1 →
      Answered flags states alloc cfg c (runsOf m.log c) := by
  intro m
  have complete := (configure_configured (mod alloc .reqMod) (mod alloc .endMod) (calls flags states alloc)).entries
  obtain ⟨stages,sound⟩ := Server.execute_sound (fun context => (app context).nested) complete joins schedule
  refine ⟨sound.crashed,?_⟩
  intro c known ended
  obtain ⟨last,executes⟩ := (sound.done known ended).executes
  exact request_answered (app c) executes

section Example

def runToken (n : Node) (state : ModState) : Token := .calling (.run (mod exampleAlloc n) 0 state)

/-- The one predictor server does not answer in time, and its shard is filled in. -/
def exampleTurns : List (Token × Choice) :=
  [(.calling (.handleRequest 0),⟨1,false,false⟩),(runToken .reqMod 5,⟨11,false,false⟩),
    (runToken .genFsReqMod 11,⟨1,false,false⟩),(runToken .fsForkMod 1,⟨1,false,false⟩),
    (.onForked (mod exampleAlloc .fsForkMod) 840 0,⟨1,false,false⟩),(runToken (.fsMod 0) 840,⟨1,true,false⟩),
    (.pending (mod exampleAlloc (.fsMod 0)) 0,⟨1,false,false⟩),(runToken (.psForkMod2 0) 1,⟨1,false,false⟩),
    (.onForked (mod exampleAlloc (.psForkMod2 0)) 840 0,⟨1,false,false⟩),
    (runToken (.psMod2 0 0) 840,⟨1,true,false⟩),(.pending (mod exampleAlloc (.psMod2 0 0)) 0,⟨3,false,false⟩),
    (runToken (.psBackfillMod2 0 0) 3,⟨1,false,false⟩),(runToken (.psJoinMod2 0) 1,⟨1,false,false⟩),
    (.onJoined (mod exampleAlloc (.psJoinMod2 0)) 1 0,⟨1,false,false⟩),(runToken .fsJoinMod 1,⟨1,false,false⟩),
    (.onJoined (mod exampleAlloc .fsJoinMod) 1 0,⟨1,false,false⟩),(runToken .ifRandMod 1,⟨15,false,false⟩),
    (runToken .respMod 15,⟨1,false,false⟩),(runToken .endMod 1,⟨1,false,true⟩),
    (.calling (.endRequest 0),⟨1,false,false⟩)]

def exampleSchedule : List Server.Action := .accepted .success :: exampleTurns.map .turn

theorem example_answered :
    Answered exampleFlags exampleStates exampleAlloc exampleConfig 0
      (runsOf (execute (Server.step exampleConfig) (Server.initial (fsm exampleFlags exampleStates exampleAlloc)
        fun _ _ => ⟨65535,true⟩) exampleSchedule).machine.log 0) :=
  (service_answers exampleFlags exampleStates exampleAlloc exampleConfig example_application
    (fun _ _ => ⟨65535,true⟩) exampleSchedule).2 0 (by decide +kernel) (by decide +kernel)

end Example

end Zerver.Service
