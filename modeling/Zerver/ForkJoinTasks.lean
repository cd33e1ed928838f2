import Mathlib.Algebra.Order.BigOperators.Group.List
import Mathlib.Algebra.Order.Group.Nat
import Zerver.ForkJoinExecutions
import Zerver.ForkJoinSteps

/-! A request under way as the tree of its regions. Performing a token changes the tree in
one place, and what the new tree has left to run is what the old one had, less the run
that has been made. -/
namespace Zerver.ForkJoin

open Zerver.Fsm
open Zerver.Interleaving

/-- `arrived` is a branch that has run its join. -/
inductive Task where
  | live (token : Token) (graph : Graph)
  | arrived (state : ModState)
  | region (join : Module) (next : ModState → Graph) (width : Nat) (child : Nat → Task)

/-- The graph is left, for the join around it if there is one. -/
def Closes (outer : Option Module) (runs : List Run) (last : ModState) (trace : List Run) (out : ModState) :
    Prop :=
  match outer with
  | none => trace = runs
  | some join => trace = runs ++ [(join,last)] ∧ out = last

section Context

variable (cfg : Config) (fsm : Fsm) (context : Nat)

/-- The token performs the graph next, inside the join `outer`. -/
inductive Ready : Token → Graph → Option Module → Prop where
  | entering : graph.head outer = some mod → Ready (.calling (.run mod context lastModState)) graph outer
  | waiting : Ready (.pending mod context) (.visit mod next) outer
  | forking : graph.Leads fsm outer fork forkIndex → Ready (.onForked fork forkIndex context) graph outer
  | joining : graph.Leads fsm outer join state → cfg.kind join = .join → Registered fsm join →
      join ∉ graph.joins cfg → Ready (.onJoined join state context) graph outer
  | ending : Ready (.calling (.endRequest context)) .leave none

/-- What a token has left of its graph. -/
inductive Left : Token → Graph → List Run → ModState → Prop where
  | entering : Executes cfg graph state runs last → Left (.calling (.run mod context state)) graph runs last
  | waiting : cfg.produces mod state → Executes cfg (next state) state runs last →
      Left (.pending mod context) (.visit mod next) runs last
  | forked : Executes cfg graph forkIndex runs last → Left (.onForked fork forkIndex context) graph runs last
  | joined : Executes cfg graph state runs last → Left (.onJoined join state context) graph runs last
  | ending : Left (.calling (.endRequest context)) .leave [] last

namespace Task

def isArrived : Task → Bool
  | arrived _ => true
  | _ => false

def isFailed : Task → Bool
  | arrived state => state != modSucceed
  | _ => false

def state : Task → ModState
  | arrived state => state
  | _ => modElse

/-- The data of a join whose branches stand as they do. -/
def joinData (width : Nat) (child : Nat → Task) : JoinData where
  moduleJoinedNum := UInt16.ofNat ((List.range width).countP fun i => (child i).isArrived)
  failedJoin := (List.range width).any fun i => (child i).isFailed

def tokens : Task → List Token
  | live token _ => [token]
  | arrived _ => []
  | region _ _ width child => (List.range width).flatMap fun i => (child i).tokens

/-- The joins that the task can still enter or leave. -/
def claims : Task → Set Module
  | live _ graph => graph.joins cfg
  | arrived _ => ∅
  | region join next width child => { join' | join' = join ∨
      (∃ state, cfg.produces join state ∧ join' ∈ (next state).joins cfg) ∨
      ∃ i < width, join' ∈ (child i).claims }

def Mentions (mod : Module) : Task → Prop
  | live _ graph => graph.Mentions mod
  | arrived _ => False
  | region _ next width child => (∃ i < width, (child i).Mentions mod) ∨ ∃ state, (next state).Mentions mod

/-- No two branches under way have modules that must not run at once. -/
def Apart (rival : Module → Module → Prop) : Task → Prop
  | live _ graph => graph.Apart rival
  | arrived _ => True
  | region _ next width child =>
    (∀ i < width, (child i).Apart rival) ∧
    (∀ i < width, ∀ j < width, i ≠ j → ∀ mod mod', rival mod mod' →
      (child i).Mentions mod → ¬ (child j).Mentions mod') ∧
    ∀ state, (next state).Apart rival

/-- A bound on the number of steps that are left to the task. -/
noncomputable def weight : Task → Nat
  | live (.calling _) graph => graph.cost
  | live (.pending _ _) graph => graph.cost - 1
  | live (.onForked _ _ _) graph => graph.cost + 1
  | live (.onJoined _ _ _) graph => graph.cost + 1
  | arrived _ => 0
  | region _ next width child =>
    1 + (⨆ state, (next state).cost) + ((List.range width).map fun i => (child i).weight).sum

/-- The runs that are left, with that of the join around. -/
def Remains : Option Module → Task → List Run → ModState → Prop
  | outer, live token graph, trace, out =>
    ∃ runs last, Left cfg context token graph runs last ∧ Closes outer runs last trace out
  | _, arrived state, trace, out => trace = [] ∧ out = state
  | outer, region join next width child, trace, out =>
    ∃ (branches : Nat → List Run) (arriving : Nat → ModState) (inside runs : List Run) (last : ModState),
      (∀ i < width, (child i).Remains (some join) (branches i) (arriving i)) ∧
      Merge width branches inside ∧
      Executes cfg (next (decision width arriving)) (decision width arriving) runs last ∧
      Closes outer (inside ++ runs) last trace out

end Task

/-- A region is open: what follows it is in the graph, and its branches share no join with
each other or with what follows. -/
structure Opened (data : String → JoinData) (outer : Option Module) (join : Module) (next : ModState → Graph)
    (width : Nat) (claims : Nat → Set Module) : Prop where
  kind : cfg.kind join = .join
  registered : Registered fsm join
  active : (cfg.getActiveJoinNum context join).toNat = width
  leads : ∀ state, cfg.produces join state → (next state).Leads fsm outer join state
  linked : ∀ state, cfg.produces join state → (next state).Linked cfg fsm context outer
  once : ∀ state, cfg.produces join state → (next state).Once cfg ∧ join ∉ (next state).joins cfg
  clean : ∀ state, cfg.produces join state → ∀ join' ∈ (next state).joins cfg, data join'.name = .reset
  own : ∀ i < width, join ∉ claims i
  apart : ∀ i < width, ∀ j < width, i ≠ j → Disjoint (claims i) (claims j)
  ahead : ∀ i < width, ∀ state, cfg.produces join state → Disjoint (claims i) ((next state).joins cfg)

/-- The task stands in the graph, and the data of its joins is what it has made of them. -/
def Task.Holds (data : String → JoinData) : Option Module → Task → Prop
  | outer, live token graph => Ready cfg fsm context token graph outer ∧
      graph.Linked cfg fsm context outer ∧ graph.Once cfg ∧
      ∀ join ∈ graph.joins cfg, data join.name = .reset
  | _, arrived _ => True
  | outer, region join next width child =>
    Opened cfg fsm context data outer join next width (fun i => (child i).claims cfg) ∧
    data join.name = joinData width child ∧
    (∃ i < width, (child i).isArrived = false) ∧
    ∀ i < width, (child i).Holds data (some join)

end Context

section Counting

variable {width i : Nat} {child : Nat → Task} {task : Task}

theorem Task.isFailed_arrived (task : Task) (failed : task.isFailed = true) : task.isArrived = true := by
  cases task with
  | arrived state => rfl
  | live token graph => cases failed
  | region join next width child => cases failed

theorem countP_update (first second : Nat → Bool) (inside : i < width) (before : first i = false)
    (after : second i = true) (same : ∀ j, j ≠ i → second j = first j) :
    (List.range width).countP second = (List.range width).countP first + 1 := by
  induction width with
  | zero => omega
  | succ width ih =>
    simp only [List.range_succ,List.countP_append,List.countP_singleton]
    by_cases last : i = width
    · subst last
      have others : (List.range i).countP second = (List.range i).countP first := by
        apply List.countP_congr
        intro j member
        rw [same j (by have := List.mem_range.mp member; omega)]
      simp [others,before,after]
    · rw [ih (by omega),same width (Ne.symm last)]
      omega

theorem joinData_update (before : (child i).isArrived = false) (after : task.isArrived = false) :
    Task.joinData width (Function.update child i task) = Task.joinData width child := by
  have arrived (j : Nat) : (Function.update child i task j).isArrived = (child j).isArrived := by
    by_cases same : j = i
    · subst same
      rw [Function.update_self,before,after]
    · rw [Function.update_of_ne same]
  have failed (j : Nat) : (Function.update child i task j).isFailed = (child j).isFailed := by
    by_cases same : j = i
    · subst same
      have one := mt (child j).isFailed_arrived (by simp [before])
      have two := mt task.isFailed_arrived (by simp [after])
      simp only [Bool.not_eq_true] at one two
      rw [Function.update_self,one,two]
    · rw [Function.update_of_ne same]
  simp only [Task.joinData,arrived,failed]

theorem joinData_arrive (inside : i < width) (before : (child i).isArrived = false) (state : ModState) :
    Task.joinData width (Function.update child i (.arrived state)) = (Task.joinData width child).arrive state := by
  have counted := countP_update (fun j => (child j).isArrived)
    (fun j => (Function.update child i (.arrived state) j).isArrived) inside before
    (by simp [Task.isArrived]) (fun j other => by simp [Function.update_of_ne other])
  have unfailed : (child i).isFailed = false := by
    simpa using mt (child i).isFailed_arrived (by simp [before])
  simp only [Task.joinData,JoinData.arrive,counted,JoinData.mk.injEq]
  refine ⟨by simp [UInt16.ofNat_add],?_⟩
  rw [Bool.eq_iff_iff,Bool.or_eq_true,List.any_eq_true,List.any_eq_true]
  constructor
  · rintro ⟨j,member,failed⟩
    by_cases same : j = i
    · subst same
      rw [Function.update_self] at failed
      exact .inr failed
    · rw [Function.update_of_ne same] at failed
      exact .inl ⟨j,member,failed⟩
  · rintro (⟨j,member,failed⟩ | failed)
    · have other : j ≠ i := by
        rintro rfl
        simp [unfailed] at failed
      exact ⟨j,member,by rwa [Function.update_of_ne other]⟩
    · exact ⟨i,List.mem_range.mpr inside,by rwa [Function.update_self]⟩

theorem joinData_state (arriving : Nat → ModState) (all : ∀ j < width, child j = .arrived (arriving j)) :
    (Task.joinData width child).state = decision width arriving := by
  have failed : (Task.joinData width child).failedJoin = true ↔ ¬∀ j < width, arriving j = modSucceed := by
    simp only [Task.joinData,List.any_eq_true,List.mem_range,not_forall]
    constructor
    · rintro ⟨j,inside,failed⟩
      rw [all j inside] at failed
      exact ⟨j,inside,by simpa [Task.isFailed] using failed⟩
    · rintro ⟨j,inside,failed⟩
      refine ⟨j,inside,?_⟩
      rw [all j inside]
      simpa [Task.isFailed] using failed
  unfold JoinData.state decision
  by_cases any : (Task.joinData width child).failedJoin = true
  · rw [if_pos any,if_neg (failed.mp any)]
  · rw [if_neg any,if_pos (not_not.mp (mt failed.mpr any))]

theorem arrived_le (width : Nat) (child : Nat → Task) : (List.range width).countP (fun j => (child j).isArrived) ≤ width := by
  simpa using List.countP_le_length (p := fun j => (child j).isArrived) (l := List.range width)

theorem joinData_counted (child : Nat → Task) (short : width < 65536) : (Task.joinData width child).moduleJoinedNum.toNat =
    (List.range width).countP fun j => (child j).isArrived := by
  have few := arrived_le width child
  simp only [Task.joinData,UInt16.toNat_ofNat']
  exact Nat.mod_eq_of_lt (by omega)

theorem joinData_full (short : width < 65536) :
    (Task.joinData width child).moduleJoinedNum.toNat = width ↔ ∀ j < width, (child j).isArrived = true := by
  have all := List.countP_eq_length (p := fun j => (child j).isArrived) (l := List.range width)
  rw [List.length_range] at all
  rw [joinData_counted child short,all]
  simp

end Counting

section Trees

variable {cfg : Config} {fsm : Fsm} {context : Nat} {data data' : String → JoinData} {task task' : Task}
  {outer : Option Module} {width i : Nat} {child : Nat → Task} {join : Module} {next : ModState → Graph}

theorem Opened.claims {claims : Nat → Set Module}
    (opened : Opened cfg fsm context data outer join next width claims) (state : ModState)
    (produced : cfg.produces join state) (ahead : join' ∈ (next state).joins cfg) :
    cfg.kind join' = .join ∧ Registered fsm join' :=
  Graph.Linked.joins (opened.linked state produced) ahead

theorem Task.Holds.claims (holds : task.Holds cfg fsm context data outer) (claimed : join ∈ task.claims cfg) :
    Registered fsm join := by
  induction task generalizing outer with
  | live token graph => exact (Graph.Linked.joins holds.2.1 claimed).2
  | arrived state => exact claimed.elim
  | region join' next width child ih =>
    obtain ⟨opened,_,_,children⟩ := holds
    rcases claimed with rfl | ⟨state,produced,ahead⟩ | ⟨i,inside,within⟩
    · exact opened.registered
    · exact (opened.claims state produced ahead).2
    · exact ih i (children i inside) within

theorem Ready.here (ready : Ready cfg fsm context token graph outer) : token.context = context := by
  cases ready <;> rfl

theorem Task.Holds.here (holds : task.Holds cfg fsm context data outer) (member : token ∈ task.tokens) :
    token.context = context := by
  induction task generalizing outer with
  | live token' graph =>
    obtain rfl := List.mem_singleton.mp member
    exact holds.1.here
  | arrived state => cases member
  | region join next width child ih =>
    obtain ⟨i,inside,member⟩ : ∃ i < width, token ∈ (child i).tokens := by simpa [Task.tokens] using member
    exact ih i (holds.2.2.2 i inside) member

theorem Task.Holds.exists_token (holds : task.Holds cfg fsm context data outer) (waits : task.isArrived = false) :
    ∃ token, token ∈ task.tokens := by
  induction task generalizing outer with
  | live token graph => exact ⟨token,List.mem_singleton_self _⟩
  | arrived state => cases waits
  | region join next width child ih =>
    obtain ⟨_,_,⟨i,inside,waits⟩,children⟩ := holds
    obtain ⟨token,member⟩ := ih i (children i inside) waits
    exact ⟨token,by rw [Task.tokens,List.mem_flatMap]; exact ⟨i,List.mem_range.mpr inside,member⟩⟩

theorem Task.Holds.joining (holds : task.Holds cfg fsm context data outer)
    (member : .onJoined join given c ∈ task.tokens) : Registered fsm join := by
  induction task generalizing outer with
  | live token graph =>
    obtain rfl := List.mem_singleton.mp member
    cases holds.1 with
    | joining _ _ registered _ => exact registered
  | arrived state => cases member
  | region join next width child ih =>
    obtain ⟨i,inside,member⟩ : ∃ i < width, _ ∈ (child i).tokens := by simpa [Task.tokens] using member
    exact ih i (holds.2.2.2 i inside) member

/-- A join that is about to be run, if it is not the one around, still waits for a branch. -/
theorem Task.Holds.arriving (holds : task.Holds cfg fsm context data outer)
    (member : .calling (.run join c given) ∈ task.tokens) (kind : cfg.kind join = .join) :
    outer = some join ∨ (Registered fsm join ∧
      (data join.name).moduleJoinedNum.toNat < (cfg.getActiveJoinNum context join).toNat) := by
  induction task generalizing outer with
  | live token graph =>
    obtain rfl := List.mem_singleton.mp member
    obtain ⟨ready,linked,_⟩ := holds
    cases ready with
    | entering head =>
      cases graph with
      | leave => exact .inl head
      | visit mod next =>
        obtain rfl := Option.some.inj head
        have sequential := linked.1
        rw [kind] at sequential
        cases sequential
      | region fork join' width branch next =>
        obtain rfl := Option.some.inj head
        obtain ⟨⟨forkNum,forks,_⟩,_⟩ := linked
        rw [kind] at forks
        cases forks
  | arrived state => cases member
  | region join' next width child ih =>
    obtain ⟨opened,counted,⟨j,bound,waits⟩,children⟩ := holds
    obtain ⟨i,inside,member⟩ : ∃ i < width, _ ∈ (child i).tokens := by simpa [Task.tokens] using member
    rcases ih i (children i inside) member with around | there
    · obtain rfl := Option.some.inj around
      have short : width < 65536 := by
        rw [← opened.active]
        exact UInt16.toNat_lt _
      have more : (Task.joinData width child).moduleJoinedNum.toNat ≠ width :=
        mt (joinData_full short).mp fun all => by simp [all j bound] at waits
      have most := arrived_le width child
      refine .inr ⟨opened.registered,?_⟩
      rw [joinData_counted child short] at more
      rw [counted,opened.active,joinData_counted child short]
      omega
    · exact .inr there

theorem Task.Holds.ending (holds : task.Holds cfg fsm context data outer)
    (member : .calling (.endRequest context) ∈ task.tokens) :
    outer = none ∧ task = .live (.calling (.endRequest context)) .leave := by
  induction task generalizing outer with
  | live token graph =>
    obtain rfl := List.mem_singleton.mp member
    cases holds.1 with
    | ending => exact ⟨rfl,rfl⟩
  | arrived state => cases member
  | region join next width child ih =>
    obtain ⟨i,inside,member⟩ : ∃ i < width, _ ∈ (child i).tokens := by simpa [Task.tokens] using member
    cases (ih i (holds.2.2.2 i inside) member).1

theorem Task.Holds.renewed (holds : task.Holds cfg fsm context data outer) :
    .calling (.handleRequest c) ∉ task.tokens := by
  induction task generalizing outer with
  | live token graph =>
    intro member
    obtain rfl := List.mem_singleton.mp member
    cases holds.1
  | arrived state => exact List.not_mem_nil
  | region join next width child ih =>
    intro member
    obtain ⟨i,inside,member⟩ : ∃ i < width, _ ∈ (child i).tokens := by simpa [Task.tokens] using member
    exact ih i (holds.2.2.2 i inside) member

theorem Task.Holds.frame (holds : task.Holds cfg fsm context data outer)
    (same : ∀ join ∈ task.claims cfg, data' join.name = data join.name) :
    task.Holds cfg fsm context data' outer := by
  induction task generalizing outer with
  | live token graph =>
    obtain ⟨ready,linked,once,clean⟩ := holds
    exact ⟨ready,linked,once,fun join ahead => (same join ahead).trans (clean join ahead)⟩
  | arrived state => trivial
  | region join next width child ih =>
    obtain ⟨opened,counted,open_,children⟩ := holds
    refine ⟨{ opened with clean := ?_ },(same join (.inl rfl)).trans counted,open_,?_⟩
    · intro state produced join' ahead
      exact (same join' (.inr (.inl ⟨state,produced,ahead⟩))).trans (opened.clean state produced join' ahead)
    · intro i inside
      exact ih i (children i inside) fun join' within => same join' (.inr (.inr ⟨i,inside,within⟩))

theorem mem_region_tokens : token ∈ (Task.region join next width child).tokens ↔
    ∃ i < width, token ∈ (child i).tokens := by
  simp [Task.tokens]

theorem Task.live_of_token (member : token ∈ task.tokens) : task.isArrived = false := by
  cases task with
  | arrived state => cases member
  | live token graph => rfl
  | region join next width child => rfl

theorem Task.eq_arrived (arrived : task.isArrived = true) : task = .arrived task.state := by
  cases task with
  | arrived state => rfl
  | live token graph => cases arrived
  | region join next width child => cases arrived

theorem Opened.replace {claims claims' : Nat → Set Module}
    (opened : Opened cfg fsm context data outer join next width claims)
    (fewer : ∀ i < width, claims' i ⊆ claims i)
    (same : ∀ state, cfg.produces join state → ∀ join' ∈ (next state).joins cfg, data' join'.name = data join'.name) :
    Opened cfg fsm context data' outer join next width claims' :=
  { opened with
    clean := fun state produced join' ahead =>
      (same state produced join' ahead).trans (opened.clean state produced join' ahead)
    own := fun i inside claimed => opened.own i inside (fewer i inside claimed)
    apart := fun i one j two other =>
      Set.disjoint_of_subset (fewer i one) (fewer j two) (opened.apart i one j two other)
    ahead := fun i inside state produced =>
      Set.disjoint_of_subset_left (fewer i inside) (opened.ahead i inside state produced) }

theorem claims_update (fewer : task.claims cfg ⊆ (child i).claims cfg) (j : Nat) :
    (Function.update child i task j).claims cfg ⊆ (child j).claims cfg := by
  by_cases same : j = i
  · subst same
    rwa [Function.update_self]
  · rw [Function.update_of_ne same]

theorem region_claims_update (fewer : task.claims cfg ⊆ (child i).claims cfg) :
    (Task.region join next width (Function.update child i task)).claims cfg ⊆
      (Task.region join next width child).claims cfg := by
  rintro join' (rfl | ahead | ⟨j,inside,claimed⟩)
  · exact .inl rfl
  · exact .inr (.inl ahead)
  · exact .inr (.inr ⟨j,inside,claims_update fewer j claimed⟩)

theorem weight_update (inside : i < width) (lighter : task.weight < (child i).weight) :
    (Task.region join next width (Function.update child i task)).weight < (Task.region join next width child).weight := by
  have sums : ((List.range width).map fun j => (Function.update child i task j).weight).sum <
      ((List.range width).map fun j => (child j).weight).sum := by
    refine List.sum_lt_sum _ _ ?_ ⟨i,List.mem_range.mpr inside,?_⟩
    · intro j _
      by_cases same : j = i
      · subst same
        rw [Function.update_self]
        exact lighter.le
      · rw [Function.update_of_ne same]
    · rwa [Function.update_self]
  simp only [Task.weight]
  omega

theorem mentions_update (inside : i < width) (fewer : task.Mentions mod → (child i).Mentions mod)
    (mentions : (Task.region join next width (Function.update child i task)).Mentions mod) :
    (Task.region join next width child).Mentions mod := by
  rcases mentions with ⟨j,bound,mentions⟩ | later
  · by_cases same : j = i
    · subst same
      rw [Function.update_self] at mentions
      exact .inl ⟨j,inside,fewer mentions⟩
    · rw [Function.update_of_ne same] at mentions
      exact .inl ⟨j,bound,mentions⟩
  · exact .inr later

theorem apart_update (inside : i < width) (fewer : ∀ mod, task.Mentions mod → (child i).Mentions mod)
    (alone : task.Apart rival) (apart : (Task.region join next width child).Apart rival) :
    (Task.region join next width (Function.update child i task)).Apart rival := by
  obtain ⟨each,shared,later⟩ := apart
  have before (j : Nat) (mod : Module) (mentions : (Function.update child i task j).Mentions mod) :
      (child j).Mentions mod := by
    by_cases same : j = i
    · subst same
      rw [Function.update_self] at mentions
      exact fewer mod mentions
    · rwa [Function.update_of_ne same] at mentions
  refine ⟨?_,?_,later⟩
  · intro j bound
    by_cases same : j = i
    · subst same
      rwa [Function.update_self]
    · rw [Function.update_of_ne same]
      exact each j bound
  · intro j one k two other mod mod' rivals mentions again
    exact shared j one k two other mod mod' rivals (before j mod mentions) (before k mod' again)

theorem Closes.prepend (closes : Closes outer runs last trace out) (before : List Run) :
    Closes outer (before ++ runs) last (before ++ trace) out := by
  cases outer with
  | none =>
    obtain rfl : trace = runs := closes
    rfl
  | some join =>
    obtain ⟨rfl,rfl⟩ := closes
    exact ⟨by simp,rfl⟩

theorem Token.ran_cases (token : Token) : token.ran = [] ∨ ∃ run, token.ran = [run] := by
  unfold Token.ran
  split
  · exact .inr ⟨_,rfl⟩
  · exact .inl rfl

/-- What a branch runs, its region runs. -/
theorem remains_lift (inside : i < width) (token : Token)
    (behind : ∀ trace out, task.Remains cfg context (some join) trace out →
      (child i).Remains cfg context (some join) (token.ran ++ trace) out)
    (remains : (Task.region join next width (Function.update child i task)).Remains cfg context outer trace out) :
    (Task.region join next width child).Remains cfg context outer (token.ran ++ trace) out := by
  obtain ⟨branches,arriving,merged,runs,last,children,merge,executes,closes⟩ := remains
  have own : task.Remains cfg context (some join) (branches i) (arriving i) := by
    have here := children i inside
    rwa [Function.update_self] at here
  have replaced : ∀ j < width, (child j).Remains cfg context (some join)
      (Function.update branches i (token.ran ++ branches i) j) (arriving j) := by
    intro j bound
    by_cases same : j = i
    · subst same
      rw [Function.update_self]
      exact behind _ _ own
    · have there := children j bound
      rw [Function.update_of_ne same] at there ⊢
      exact there
  rcases token.ran_cases with none | ⟨run,ran⟩
  · rw [none,List.nil_append,Function.update_eq_self] at replaced
    rw [none]
    exact ⟨branches,arriving,merged,runs,last,replaced,merge,executes,closes⟩
  · rw [ran] at replaced ⊢
    exact ⟨_,arriving,run :: merged,runs,last,replaced,merge.step i run inside,executes,closes.prepend [run]⟩

theorem remains_arrived (all : ∀ j < width, (child j).isArrived = true)
    (executes : Executes cfg (next (Task.joinData width child).state) (Task.joinData width child).state runs last)
    (closes : Closes outer runs last trace out) :
    (Task.region join next width child).Remains cfg context outer trace out := by
  have states (j : Nat) (inside : j < width) : child j = .arrived (child j).state := (child j).eq_arrived (all j inside)
  rw [joinData_state (fun j => (child j).state) states] at executes
  refine ⟨fun _ => [],fun j => (child j).state,[],runs,last,?_,.done fun _ _ => rfl,executes,closes⟩
  intro j inside
  rw [states j inside]
  exact ⟨rfl,rfl⟩

end Trees

def Token.holder : Token → Option Module
  | .calling (.run mod _ _) => some mod
  | .pending mod _ => some mod
  | _ => none

section Single

variable {cfg : Config} {fsm : Fsm} {context : Nat} {rival : Module → Module → Prop}
  {task : Task} {token first second : Token} {mod mod' : Module}

theorem holder_mentions (holds : (Task.live token graph).Holds cfg fsm context data outer)
    (joins : ∀ join, outer = some join → cfg.kind join = .join) (holder : token.holder = some mod)
    (kind : cfg.kind mod = .sequential) : graph.Mentions mod := by
  cases holds.1 with
  | waiting =>
    obtain rfl := Option.some.inj holder
    exact .inl rfl
  | entering entered =>
    obtain rfl := Option.some.inj holder
    cases graph with
    | leave =>
      have around := joins _ entered
      rw [kind] at around
      cases around
    | visit mod' next => exact .inl (Option.some.inj entered)
    | region fork join width branch next => exact .inl (Option.some.inj entered)
  | forking _ => cases holder
  | joining _ _ _ _ => cases holder
  | ending => cases holder

theorem Task.Holds.mentions (holds : task.Holds cfg fsm context data outer)
    (joins : ∀ join, outer = some join → cfg.kind join = .join) (member : token ∈ task.tokens)
    (holder : token.holder = some mod) (kind : cfg.kind mod = .sequential) : task.Mentions mod := by
  induction task generalizing outer with
  | arrived state => cases member
  | live token' graph =>
    obtain rfl := List.mem_singleton.mp member
    exact holder_mentions holds joins holder kind
  | region join next width child ih =>
    obtain ⟨i,inside,member⟩ := mem_region_tokens.mp member
    refine .inl ⟨i,inside,ih i (holds.2.2.2 i inside) ?_ member⟩
    rintro join' around
    obtain rfl := Option.some.inj around
    exact holds.1.kind

/-- Modules that must not run at once have one token at most. -/
theorem Task.Holds.single (holds : task.Holds cfg fsm context data outer)
    (joins : ∀ join, outer = some join → cfg.kind join = .join) (apart : task.Apart rival) (rivals : rival mod mod')
    (kind : cfg.kind mod = .sequential) (kind' : cfg.kind mod' = .sequential) (one : first ∈ task.tokens)
    (two : second ∈ task.tokens) (holder : first.holder = some mod) (holder' : second.holder = some mod') :
    first = second := by
  induction task generalizing outer with
  | arrived state => cases one
  | live token graph => exact (List.mem_singleton.mp one).trans (List.mem_singleton.mp two).symm
  | region join next width child ih =>
    obtain ⟨opened,_,_,children⟩ := holds
    have around (join' : Module) (same : some join = some join') : cfg.kind join' = .join := by
      obtain rfl := Option.some.inj same
      exact opened.kind
    obtain ⟨i,inside,one⟩ := mem_region_tokens.mp one
    obtain ⟨j,bound,two⟩ := mem_region_tokens.mp two
    by_cases same : i = j
    · subst same
      exact ih i (children i inside) around (apart.1 i inside) one two
    · exact absurd ((children j bound).mentions around two holder' kind')
        (apart.2.1 i inside j bound same mod mod' rivals ((children i inside).mentions around one holder kind))

end Single

end Zerver.ForkJoin
