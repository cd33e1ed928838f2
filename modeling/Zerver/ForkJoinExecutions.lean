import Zerver.ForkJoinGraph
import Zerver.Interleaving

/-! The purpose of a nested graph: the module runs of one request, in an order in which it
may make them, and the state with which the graph is left. -/
namespace Zerver.ForkJoin

open Zerver.Fsm
open Zerver.Interleaving

abbrev Run := Module × ModState

/-- What a join makes of the states its branches arrive with. -/
def decision (width : Nat) (arriving : Nat → ModState) : ModState :=
  if ∀ i < width, arriving i = modSucceed then modSucceed else modFailed

/-- A module produces one of its states. The branches of a region take their steps in any
order, the last of each being the run of the join. -/
inductive Executes (cfg : Config) : Graph → ModState → List Run → ModState → Prop where
  | leave : Executes cfg .leave state [] state
  | visit : cfg.produces mod result → Executes cfg (next result) result runs last →
      Executes cfg (.visit mod next) state ((mod,state) :: runs) last
  | region (branches : Nat → List Run) (arriving : Nat → ModState) :
      (∀ i < width, Executes cfg (branch i) (modFork0 + UInt32.ofNat i) (branches i) (arriving i)) →
      Merge width (fun i => branches i ++ [(join,arriving i)]) inside →
      Executes cfg (next (decision width arriving)) (decision width arriving) runs last →
      Executes cfg (.region fork join width branch next) state ((fork,state) :: (inside ++ runs)) last

/-- The module runs of a context, in the order of the log. -/
def runsOf (log : List Event) (context : Nat) : List Run :=
  log.filterMap fun
    | .performed (.calling (.run mod c state)) => if c = context then some (mod,state) else none
    | _ => none

def Token.ran : Token → List Run
  | .calling (.run mod _ state) => [(mod,state)]
  | _ => []

theorem runsOf_take (log : List Event) (token : Token) (here : token.context = context) :
    runsOf (log ++ [.performed token]) context = runsOf log context ++ token.ran := by
  rw [runsOf,List.filterMap_append,← runsOf]
  congr 1
  cases token with
  | calling call =>
    cases call with
    | run mod c state =>
      obtain rfl : c = context := here
      simp [Token.ran]
    | handleRequest c => rfl
    | resume mod state c => rfl
    | endRequest c => rfl
  | onForked fork forkIndex c => rfl
  | onJoined join state c => rfl
  | pending mod c => rfl

theorem runsOf_append (log events : List Event) (context : Nat)
    (others : ∀ event ∈ events, event.context ≠ context) : runsOf (log ++ events) context = runsOf log context := by
  have none : runsOf events context = [] := by
    rw [runsOf,List.filterMap_eq_nil_iff]
    intro event member
    have other := others event member
    split
    · rename_i mod c state
      have apart : c ≠ context := other
      simp [apart]
    · rfl
  rw [runsOf,List.filterMap_append,← runsOf,← runsOf,none,List.append_nil]

theorem decision_succeed (width : Nat) (arriving : Nat → ModState) :
    decision width arriving = modSucceed ↔ ∀ i < width, arriving i = modSucceed := by
  have apart : modFailed ≠ modSucceed := by decide
  unfold decision
  by_cases all : ∀ i < width, arriving i = modSucceed
  · rw [if_pos all]
    exact ⟨fun _ => all,fun _ => rfl⟩
  · rw [if_neg all]
    exact ⟨fun same => (apart same).elim,fun every => (all every).elim⟩

section Visits

def visits (runs : List Run) (mod : Module) : Nat := runs.countP (·.1 = mod)

@[simp] theorem visits_nil (mod : Module) : visits [] mod = 0 := rfl

@[simp] theorem visits_cons (run : Run) (runs : List Run) (mod : Module) :
    visits (run :: runs) mod = visits runs mod + if run.1 = mod then 1 else 0 := by
  simp [visits,List.countP_cons]

@[simp] theorem visits_append (runs later : List Run) (mod : Module) :
    visits (runs ++ later) mod = visits runs mod + visits later mod := List.countP_append

theorem visits_eq_zero : visits runs mod = 0 ↔ ∀ run ∈ runs, run.1 ≠ mod := by
  simp [visits,List.countP_eq_zero]

def Graph.Mentions (mod : Module) : Graph → Prop
  | .leave => False
  | .visit mod' next => mod' = mod ∨ ∃ state, (next state).Mentions mod
  | .region fork join width branch next =>
    fork = mod ∨ join = mod ∨ (∃ i < width, (branch i).Mentions mod) ∨ ∃ state, (next state).Mentions mod

/-- No two branches of a region have modules that must not run at once. -/
def Graph.Apart (rival : Module → Module → Prop) : Graph → Prop
  | .leave => True
  | .visit _ next => ∀ state, (next state).Apart rival
  | .region _ _ width branch next =>
    (∀ i < width, (branch i).Apart rival) ∧
    (∀ i < width, ∀ j < width, i ≠ j → ∀ mod mod', rival mod mod' →
      (branch i).Mentions mod → ¬ (branch j).Mentions mod') ∧
    ∀ state, (next state).Apart rival

theorem Executes.mentions (executes : Executes cfg graph state runs last) (run : Run) (member : run ∈ runs) :
    graph.Mentions run.1 := by
  induction executes with
  | leave => cases member
  | visit _ _ ih =>
    rcases List.mem_cons.mp member with rfl | member
    · exact .inl rfl
    · exact .inr ⟨_,ih member⟩
  | region branches arriving _ merge _ ihBranches ihNext =>
    rcases List.mem_cons.mp member with rfl | member
    · exact .inl rfl
    · rcases List.mem_append.mp member with member | member
      · obtain ⟨i,inside,member⟩ := (merge_mem_iff merge run).mp member
        rcases List.mem_append.mp member with member | member
        · exact .inr (.inr (.inl ⟨i,inside,ihBranches i inside member⟩))
        · obtain rfl := List.mem_singleton.mp member
          exact .inr (.inl rfl)
      · exact .inr (.inr (.inr ⟨_,ihNext member⟩))

/-- Between the fork and what follows the join, each module is run as often as in the
branches, and the join once for each of them. -/
theorem visits_merge (branches : Nat → List Run) (arriving : Nat → ModState)
    (merge : Merge width (fun i => branches i ++ [(join,arriving i)]) inside) (mod : Module) :
    visits inside mod = (∑ i ∈ Finset.range width, visits (branches i) mod) + if join = mod then width else 0 := by
  have each (i : Nat) : visits (branches i ++ [(join,arriving i)]) mod =
      visits (branches i) mod + if join = mod then 1 else 0 := by
    rw [visits_append,visits_cons,visits_nil,Nat.zero_add]
  calc visits inside mod
      = ∑ i ∈ Finset.range width, (visits (branches i) mod + if join = mod then 1 else 0) := by
        rw [visits,merge_countP merge]
        exact Finset.sum_congr rfl fun i _ => each i
    _ = (∑ i ∈ Finset.range width, visits (branches i) mod) + if join = mod then width else 0 := by
        rw [Finset.sum_add_distrib,Finset.sum_const,Finset.card_range]
        split <;> simp

theorem visits_runsOf (log : List Event) (context : Nat) (m : Module) :
    visits (runsOf log context) m = arrivals log context m := by
  induction log with
  | nil => rfl
  | cons event rest ih =>
    have cons : runsOf (event :: rest) context = runsOf [event] context ++ runsOf rest context := by
      rw [runsOf,← List.singleton_append,List.filterMap_append]
      rfl
    have counted : arrivals (event :: rest) context m = arrivals [event] context m + arrivals rest context m := by
      rw [arrivals,← List.singleton_append,List.countP_append]
      rfl
    have single : visits (runsOf [event] context) m = arrivals [event] context m := by
      cases event with
      | created c successor => rfl
      | performed token =>
        cases token with
        | calling call =>
          cases call with
          | run m' c state =>
            by_cases here : c = context
            · simp [runsOf,arrivals,here]
            · simp [runsOf,arrivals,here]
          | _ => rfl
        | _ => rfl
    rw [cons,visits_append,ih,single,counted]

theorem join_mem (branches : Nat → List Run) (arriving : Nat → ModState)
    (merge : Merge width (fun i => branches i ++ [(join,arriving i)]) inside)
    (absent : ∀ i < width, visits (branches i) join = 0) (state : ModState) :
    (join,state) ∈ inside ↔ ∃ i < width, arriving i = state := by
  rw [merge_mem_iff merge]
  constructor
  · rintro ⟨i,within,member⟩
    rcases List.mem_append.mp member with member | member
    · exact (visits_eq_zero.mp (absent i within) _ member rfl).elim
    · exact ⟨i,within,(congrArg Prod.snd (List.mem_singleton.mp member)).symm⟩
  · rintro ⟨i,within,rfl⟩
    exact ⟨i,within,by simp⟩

end Visits

section Joins

variable {cfg : Config} {fsm : Fsm} {context : Nat} {join : Module}

theorem decision_produced (kind : cfg.kind join = .join) (width : Nat) (arriving : Nat → ModState) :
    cfg.produces join (decision width arriving) := by
  simp only [Config.produces,kind]
  unfold decision
  split <;> rfl

theorem Executes.entered (executes : Executes cfg graph state runs last) (linked : graph.Linked cfg fsm context outer)
    (kind : cfg.kind join = .join) (given : ModState) (member : (join,given) ∈ runs) : join ∈ graph.joins cfg := by
  induction executes generalizing outer with
  | leave => cases member
  | visit produced _ ih =>
    rcases List.mem_cons.mp member with same | member
    · obtain ⟨rfl,_⟩ := Prod.mk.inj same
      have sequential := linked.1
      rw [kind] at sequential
      cases sequential
    · exact ⟨_,produced,ih (linked.2 _ produced).2 member⟩
  | @region width _ _ _ _ _ _ _ _ branches arriving _ merge _ ihBranches ihNext =>
    obtain ⟨⟨_,forkKind,_⟩,joinKind,_,_,_,_,_,inner,after⟩ := linked
    rcases List.mem_cons.mp member with same | member
    · obtain ⟨rfl,_⟩ := Prod.mk.inj same
      rw [kind] at forkKind
      cases forkKind
    · rcases List.mem_append.mp member with member | member
      · obtain ⟨i,inside,member⟩ := (merge_mem_iff merge _).mp member
        rcases List.mem_append.mp member with member | member
        · exact .inr (.inl ⟨i,inside,ihBranches i inside (inner i inside).2 member⟩)
        · obtain ⟨rfl,_⟩ := Prod.mk.inj (List.mem_singleton.mp member)
          exact .inl rfl
      · have produced := decision_produced joinKind width arriving
        exact .inr (.inr ⟨_,produced,ihNext (after _ produced).2 member⟩)

theorem Executes.unvisited (executes : Executes cfg graph state runs last) (linked : graph.Linked cfg fsm context outer)
    (kind : cfg.kind join = .join) (apart : join ∉ graph.joins cfg) : visits runs join = 0 := by
  rw [visits_eq_zero]
  rintro ⟨mod,given⟩ member rfl
  exact apart (executes.entered linked kind given member)

/-- An execution runs a join for each of the branches it waits for, or not at all. -/
theorem Executes.visits_join (executes : Executes cfg graph state runs last) (linked : graph.Linked cfg fsm context outer)
    (once : graph.Once cfg) (kind : cfg.kind join = .join) :
    visits runs join = 0 ∨ visits runs join = (cfg.getActiveJoinNum context join).toNat := by
  induction executes generalizing outer with
  | leave => exact .inl rfl
  | @visit mod result next runs last state produced _ ih =>
    have other : mod ≠ join := by
      rintro rfl
      have sequential := linked.1
      rw [kind] at sequential
      cases sequential
    rw [visits_cons,if_neg other,Nat.add_zero]
    exact ih (linked.2 _ produced).2 (once _ produced)
  | @region width branch join' inside next runs last fork state branches arriving each merge after ihBranches ihNext =>
    obtain ⟨⟨_,forkKind,_⟩,joinKind,_,_,_,_,active,inner,later⟩ := linked
    obtain ⟨own,ahead,apart,before⟩ := once
    have produced := decision_produced joinKind width arriving
    have other : fork ≠ join := by
      rintro rfl
      rw [kind] at forkKind
      cases forkKind
    have absent (i : Nat) (bound : i < width) (free : join ∉ (branch i).joins cfg) : visits (branches i) join = 0 :=
      (each i bound).unvisited (inner i bound).2 kind free
    rw [visits_cons,if_neg other,Nat.add_zero,visits_append,visits_merge branches arriving merge]
    by_cases same : join' = join
    · -- Its own join is in none of the branches, and not in what follows.
      subst same
      have none : ∑ i ∈ Finset.range width, visits (branches i) join' = 0 :=
        Finset.sum_eq_zero fun i member =>
          absent i (Finset.mem_range.mp member) (own i (Finset.mem_range.mp member)).2
      rw [none,if_pos rfl,after.unvisited (later _ produced).2 kind (ahead _ produced).2,active]
      exact .inr (by omega)
    · rw [if_neg same,Nat.add_zero]
      by_cases inBranch : ∃ i < width, join ∈ (branch i).joins cfg
      · obtain ⟨i,bound,entered⟩ := inBranch
        have alone : ∑ j ∈ Finset.range width, visits (branches j) join = visits (branches i) join := by
          refine Finset.sum_eq_single i ?_ fun out => absurd (Finset.mem_range.mpr bound) out
          intro j member different
          have bound' := Finset.mem_range.mp member
          exact absent j bound' fun again => Set.disjoint_left.mp (apart i bound j bound' different.symm) entered again
        have free : join ∉ (next (decision width arriving)).joins cfg :=
          fun again => Set.disjoint_left.mp (before i bound _ produced) entered again
        rw [alone,after.unvisited (later _ produced).2 kind free,Nat.add_zero]
        exact ihBranches i bound (inner i bound).2 (own i bound).1
      · have none : ∑ i ∈ Finset.range width, visits (branches i) join = 0 :=
          Finset.sum_eq_zero fun i member =>
            absent i (Finset.mem_range.mp member) fun entered => inBranch ⟨i,Finset.mem_range.mp member,entered⟩
        rw [none,Nat.zero_add]
        exact ihNext (later _ produced).2 (ahead _ produced).1

end Joins

end Zerver.ForkJoin
