import Mathlib.Algebra.GroupWithZero.Nat
import Mathlib.Data.Set.Finite.Lattice
import Mathlib.Order.CompletePartialOrder
import Mathlib.Order.Lattice.Nat
import Zerver.ForkJoin

/-! Properly nested graphs: sequential modules, and regions between a fork and a join
whose branches are such graphs again. A graph is written as the tree of its paths, so
that a module at which two paths meet is written twice. -/
namespace Zerver.ForkJoin

open Zerver.Fsm

inductive Graph where
  | leave
  | visit (mod : Module) (next : ModState → Graph)
  | region (fork join : Module) (width : Nat) (branch : Nat → Graph) (next : ModState → Graph)

/-- The module is the one the Fsm has under its name. -/
def Registered (fsm : Fsm) (mod : Module) : Prop := fsm.modMap.lookup mod.name = some (some mod)

theorem Registered.name_injective (one : Registered fsm first) (two : Registered fsm second)
    (same : first.name = second.name) : first = second := by
  unfold Registered at one two
  rw [same,two] at one
  simpa using one.symm

namespace Graph

/-- The module that is run first. A graph that is left leads to the enclosing join. -/
def head (outer : Option Module) : Graph → Option Module
  | leave => outer
  | visit mod _ => some mod
  | region fork _ _ _ _ => some fork

/-- The link from `mod` in `state` exists and leads to the graph; `end_mod_` needs none. -/
def Leads (fsm : Fsm) (outer : Option Module) (mod : Module) (state : ModState) (graph : Graph) : Prop :=
  if mod = fsm.endMod then graph = leave ∧ outer = none
  else (graph.head outer).isSome ∧ fsm.route mod state = graph.head outer

section Context

variable (cfg : Config) (fsm : Fsm) (context : Nat)

/-- Every module of the graph is of its kind, forks and joins have been added to the Fsm,
and every link needed exists. -/
def Linked (outer : Option Module) : Graph → Prop
  | leave => True
  | visit mod next =>
    cfg.kind mod = .sequential ∧ ∀ state, cfg.produces mod state →
      Leads fsm outer mod state (next state) ∧ (next state).Linked outer
  | region fork join width branch next =>
    (∃ forkNum, cfg.kind fork = .fork forkNum ∧ cfg.getActiveForkNum context fork ≤ forkNum) ∧
    cfg.kind join = .join ∧ Registered fsm fork ∧ Registered fsm join ∧ 0 < width ∧
    (cfg.getActiveForkNum context fork).toNat = width ∧
    (cfg.getActiveJoinNum context join).toNat = width ∧
    (∀ i < width, Leads fsm (some join) fork (modFork0 + UInt32.ofNat i) (branch i) ∧
      (branch i).Linked (some join)) ∧
    ∀ state, cfg.produces join state →
      Leads fsm outer join state (next state) ∧ (next state).Linked outer

def Enters (join : Module) : Graph → Prop
  | leave => False
  | visit mod next => ∃ state, cfg.produces mod state ∧ (next state).Enters join
  | region _ join' width branch next =>
    join = join' ∨ (∃ i < width, (branch i).Enters join) ∨
      ∃ state, cfg.produces join' state ∧ (next state).Enters join

def joins (graph : Graph) : Set Module := { join | graph.Enters cfg join }

/-- No join is entered from two places of one request. -/
def Once : Graph → Prop
  | leave => True
  | visit mod next => ∀ state, cfg.produces mod state → (next state).Once
  | region _ join width branch next =>
    (∀ i < width, (branch i).Once ∧ join ∉ (branch i).joins cfg) ∧
    (∀ state, cfg.produces join state → (next state).Once ∧ join ∉ (next state).joins cfg) ∧
    (∀ i < width, ∀ j < width, i ≠ j → Disjoint ((branch i).joins cfg) ((branch j).joins cfg)) ∧
    ∀ i < width, ∀ state, cfg.produces join state →
      Disjoint ((branch i).joins cfg) ((next state).joins cfg)

structure Nested (graph : Graph) : Prop where
  start : graph.head none = some fsm.startMod
  linked : graph.Linked cfg fsm context none
  once : graph.Once cfg

end Context

theorem Linked.joins (linked : Linked cfg fsm context outer graph) (entered : join ∈ graph.joins cfg) :
    cfg.kind join = .join ∧ Registered fsm join := by
  induction graph generalizing outer with
  | leave => exact entered.elim
  | visit mod next ih =>
    obtain ⟨state,produced,entered⟩ := entered
    exact ih state (linked.2 state produced).2 entered
  | region fork join' width branch next ihBranch ihNext =>
    obtain ⟨_,kind,_,registered,_,_,_,branches,after⟩ := linked
    rcases entered with rfl | ⟨i,inside,entered⟩ | ⟨state,produced,entered⟩
    · exact ⟨kind,registered⟩
    · exact ihBranch i (branches i inside).2 entered
    · exact ihNext state (after state produced).2 entered

/-- A bound on the number of steps in which a token performs the graph. -/
noncomputable def cost : Graph → Nat
  | leave => 1
  | visit _ next => 2 + ⨆ state, (next state).cost
  | region _ _ width branch next =>
    2 + ((List.range width).map fun i => 1 + (branch i).cost).sum + ⨆ state, (next state).cost

instance : Finite ModState := Finite.of_injective UInt32.toFin fun _ _ same => UInt32.toFin_inj.mp same

theorem cost_le_iSup (next : ModState → Graph) (state : ModState) :
    (next state).cost ≤ ⨆ state, (next state).cost :=
  le_ciSup (f := fun state => (next state).cost) (Set.finite_range _).bddAbove state

end Graph

section Example

/-! The forks of `example1/main.cc` with two shards, of which the first forks once more. -/

def fsForkMod : Module := ⟨0,"fs_fork_mod"⟩
def fsMod0 : Module := ⟨1,"fs_mod0"⟩
def fsMod1 : Module := ⟨2,"fs_mod1"⟩
def psForkMod : Module := ⟨3,"ps_fork_mod2_0"⟩
def psMod : Module := ⟨4,"ps_mod2_0_0"⟩
def psJoinMod : Module := ⟨5,"ps_join_mod2_0"⟩
def fsJoinMod : Module := ⟨6,"fs_join_mod"⟩
def endMod : Module := ⟨7,"end_mod"⟩

def exampleConfig : Config where
  kind mod :=
    if mod = fsForkMod then .fork 2 else if mod = psForkMod then .fork 1
    else if mod = fsJoinMod ∨ mod = psJoinMod then .join else .sequential
  getActiveForkNum _ mod := if mod = fsForkMod then 2 else 1
  getActiveJoinNum _ mod := if mod = fsJoinMod then 2 else 1
  states _ state := state == modSucceed || state == modFailed

def exampleCalls : List Setup :=
  ([fsForkMod,fsMod0,fsMod1,psForkMod,psMod,psJoinMod,fsJoinMod,endMod].map .addModule) ++
  [.linkModule fsForkMod fsMod0 modFork0,.linkModule fsForkMod fsMod1 (modFork0 + 1),
    .linkModule fsMod0 psForkMod modSucceed,.linkModule fsMod0 fsJoinMod modElse,
    .linkModule psForkMod psMod modFork0,.linkModule psMod psJoinMod modElse,
    .linkModule psJoinMod fsJoinMod modElse,.linkModule fsMod1 fsJoinMod modElse,
    .linkModule fsJoinMod endMod modElse]

def exampleFsm : Fsm := configure fsForkMod endMod exampleCalls

def exampleGraph : Graph :=
  .region fsForkMod fsJoinMod 2
    (fun i => if i = 0 then
      .visit fsMod0 fun state => if state = modSucceed then
        .region psForkMod psJoinMod 1 (fun _ => .visit psMod fun _ => .leave) fun _ => .leave
      else .leave
    else .visit fsMod1 fun _ => .leave)
    fun _ => .visit endMod fun _ => .leave

theorem example_states (state : ModState) (produced : exampleConfig.produces mod state) :
    state = modSucceed ∨ state = modFailed := by
  unfold Config.produces at produced
  split at produced
  · simp only [exampleConfig,Bool.and_eq_true,Bool.or_eq_true,beq_iff_eq] at produced
    exact produced.1
  · simpa using produced
  · cases produced

theorem leads_of_route (target : Module) (further : mod ≠ fsm.endMod) (route : fsm.route mod state = some target)
    (head : Graph.head outer graph = some target) : Graph.Leads fsm outer mod state graph := by
  rw [Graph.Leads,if_neg further,head]
  exact ⟨rfl,route⟩

theorem exampleGraph_nested (c : Nat) : exampleGraph.Nested exampleConfig exampleFsm c := by
  have inner : Graph.Linked exampleConfig exampleFsm c (some fsJoinMod)
      (.region psForkMod psJoinMod 1 (fun _ => .visit psMod fun _ => .leave) fun _ => .leave) := by
    refine ⟨⟨1,rfl,UInt16.le_refl _⟩,rfl,rfl,rfl,by decide,rfl,rfl,?_,?_⟩
    · intro i inside
      obtain rfl : i = 0 := by omega
      refine ⟨leads_of_route psMod (by decide) (by decide) rfl,rfl,?_⟩
      intro state produced
      refine ⟨?_,trivial⟩
      rcases example_states state produced with rfl | rfl <;>
        exact leads_of_route psJoinMod (by decide) (by decide) rfl
    · intro state produced
      refine ⟨?_,trivial⟩
      rcases example_states state produced with rfl | rfl <;>
        exact leads_of_route fsJoinMod (by decide) (by decide) rfl
  refine ⟨rfl,⟨⟨2,rfl,UInt16.le_refl _⟩,rfl,rfl,rfl,by decide,rfl,rfl,?_,?_⟩,?_⟩
  · intro i inside
    obtain rfl | rfl : i = 0 ∨ i = 1 := by omega
    · refine ⟨leads_of_route fsMod0 (by decide) (by decide) rfl,rfl,?_⟩
      intro state produced
      rcases example_states state produced with rfl | rfl
      · exact ⟨leads_of_route psForkMod (by decide) (by decide) rfl,inner⟩
      · exact ⟨leads_of_route fsJoinMod (by decide) (by decide) rfl,trivial⟩
    · refine ⟨leads_of_route fsMod1 (by decide) (by decide) rfl,rfl,?_⟩
      intro state produced
      refine ⟨?_,trivial⟩
      rcases example_states state produced with rfl | rfl <;>
        exact leads_of_route fsJoinMod (by decide) (by decide) rfl
  · intro state produced
    refine ⟨?_,rfl,fun _ _ => ⟨⟨rfl,rfl⟩,trivial⟩⟩
    rcases example_states state produced with rfl | rfl <;>
      exact leads_of_route endMod (by decide) (by decide) rfl
  · refine ⟨?_,?_,?_,?_⟩
    · intro i inside
      obtain rfl | rfl : i = 0 ∨ i = 1 := by omega
      · refine ⟨?_,?_⟩
        · intro state produced
          rcases example_states state produced with rfl | rfl
          · simp [Graph.Once,Graph.joins,Graph.Enters]
          · trivial
        · rintro ⟨state,produced,entered⟩
          rcases example_states state produced with rfl | rfl
          · simp [Graph.Enters,fsJoinMod,psJoinMod] at entered
          · exact entered
      · simp [Graph.Once,Graph.joins,Graph.Enters]
    · simp [Graph.Once,Graph.joins,Graph.Enters]
    · intro i first j second different
      refine Set.disjoint_left.mpr fun join one two => ?_
      obtain ⟨rfl,rfl⟩ | ⟨rfl,rfl⟩ : (i = 0 ∧ j = 1) ∨ (i = 1 ∧ j = 0) := by omega
      · simp [Graph.joins,Graph.Enters] at two
      · simp [Graph.joins,Graph.Enters] at one
    · simp [Graph.joins,Graph.Enters]

/-- The second shard arrives while the first has not forked yet. -/
def exampleTurns : List (Token × Choice) :=
  let now : Choice := ⟨modSucceed,false,false⟩
  let later : Choice := ⟨modSucceed,true,false⟩
  [(.calling (.handleRequest 0),now),(.calling (.run fsForkMod 0 modStart),now),
    (.onForked fsForkMod modFork0 0,now),(.onForked fsForkMod (modFork0 + 1) 0,now),
    (.calling (.run fsMod0 0 modFork0),later),(.calling (.run fsMod1 0 (modFork0 + 1)),now),
    (.calling (.run fsJoinMod 0 modSucceed),now),(.pending fsMod0 0,now),
    (.calling (.run psForkMod 0 modSucceed),now),(.onForked psForkMod modFork0 0,now),
    (.calling (.run psMod 0 modFork0),now),(.calling (.run psJoinMod 0 modSucceed),now),
    (.onJoined psJoinMod modSucceed 0,now),(.calling (.run fsJoinMod 0 modSucceed),now),
    (.onJoined fsJoinMod modSucceed 0,now),(.calling (.run endMod 0 modSucceed),now),
    (.calling (.endRequest 0),now)]

end Example

end Zerver.ForkJoin
