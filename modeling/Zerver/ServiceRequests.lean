import Mathlib
import Zerver.ServiceGraph

/-! The requests of the service that `example1/main.cc` configures. Its graph is nested, so
whatever the handlers' order a request makes the runs of a structured execution; what those
can be is read off the graph. -/
namespace Zerver.Service

open Zerver.Fsm
open Zerver.ForkJoin

/-- What the classes of the application promise the graph: each module is of the class that
`main` constructs it with, `IfRandModule` returns one of its two states, and a fork that is
run starts at least one branch, has been constructed with enough of them, and is of one
mind with its join. -/
structure Application (flags : Flags) (states : States) (alloc : Node → Nat) (cfg : Config)
    (context : Nat) : Prop where
  kinds : ∀ n, n.Inside flags → cfg.kind (mod alloc n) = n.kind flags
  ifRand : ∀ state, cfg.produces (mod alloc .ifRandMod) state →
    state = states.notRandResp ∨ state = states.randResp
  active : ∀ fork join, fork.join = some join → fork.Inside flags →
    0 < cfg.getActiveForkNum context (mod alloc fork) ∧
    cfg.getActiveForkNum context (mod alloc fork) ≤ UInt16.ofNat (fork.forkNum flags) ∧
    cfg.getActiveJoinNum context (mod alloc join) = cfg.getActiveForkNum context (mod alloc fork)

section Graphs

variable (flags : Flags) (states : States) (alloc : Node → Nat) (cfg : Config) (context : Nat)

def width (fork : Node) : Nat := (cfg.getActiveForkNum context (mod alloc fork)).toNat

def answer (response : Node) : Graph := .visit (mod alloc response) fun _ => .visit (mod alloc .endMod) fun _ => .leave

/-- From the join of a request that has been forked. -/
def conclude (state : ModState) : Graph :=
  if state = modSucceed then
    .visit (mod alloc .ifRandMod) fun state =>
      answer alloc (if state = states.notRandResp then .respMod else .randRespMod)
  else answer alloc .emptyRespMod

/-- A shard that fails is filled in by its `backfill` module. -/
def shardGraph (shard backfill : Node) : Graph :=
  .visit (mod alloc shard) fun state =>
    if state = modSucceed then .leave else .visit (mod alloc backfill) fun _ => .leave

def regionGraph (fork join : Node) (branch : Nat → Graph) (next : ModState → Graph) : Graph :=
  .region (mod alloc fork) (mod alloc join) (width alloc cfg context fork) branch next

def fsShardGraph (i : Nat) : Graph :=
  .visit (mod alloc (.fsMod i)) fun state =>
    if state = modSucceed then
      regionGraph alloc cfg context (.psForkMod2 i) (.psJoinMod2 i)
        (fun j => shardGraph alloc (.psMod2 i j) (.psBackfillMod2 i j)) fun _ => .leave
    else .leave

def fsGraph : Graph :=
  .visit (mod alloc .genFsReqMod) fun state =>
    if state = modSucceed then
      regionGraph alloc cfg context .fsForkMod .fsJoinMod (fsShardGraph alloc cfg context) (conclude states alloc)
    else answer alloc .emptyRespMod

def psGraph : Graph :=
  .visit (mod alloc .genPsReqMod) fun state =>
    if state = modSucceed then
      regionGraph alloc cfg context .psForkMod .psJoinMod
        (fun i => shardGraph alloc (.psMod i) (.psBackfillMod i)) (conclude states alloc)
    else answer alloc .emptyRespMod

def requestGraph : Graph :=
  .visit (mod alloc .reqMod) fun state =>
    if state = states.reqSucceedToFs then fsGraph states alloc cfg context
    else if state = states.reqSucceedToPs then psGraph states alloc cfg context
    else if state = states.reqSucceedToRandom then answer alloc .randRespMod
    else .visit (mod alloc .endMod) fun _ => .leave

end Graphs

section Nested

variable {flags : Flags} {states : States} {alloc : Node → Nat} {cfg : Config} {context : Nat}

theorem leads_node (n t : Node) (inside : n.Inside flags) (further : n ≠ .endMod)
    (found : (target flags states n state).or (target flags states n modElse) = some t)
    (head : Graph.head outer graph = some (mod alloc t)) :
    Graph.Leads (fsm flags states alloc) outer (mod alloc n) state graph := by
  have apart : mod alloc n ≠ (fsm flags states alloc).endMod := by
    rw [fsm,(configure_configured _ _ _).endMod]
    exact fun same => further ((mod_inj flags alloc n .endMod inside trivial).mp same)
  refine leads_of_route (mod alloc t) apart ?_ head
  rw [route_node flags states alloc n state inside,found]
  rfl

theorem either_or (succeeded other : Node) (state : ModState) :
    (either succeeded other state).or (either succeeded other modElse) =
      some (if state = modSucceed then succeeded else other) := by
  have apart : modElse ≠ modSucceed := by decide
  unfold either
  by_cases success : state = modSucceed
  · simp [success]
  · by_cases otherwise : state = modElse
    · simp [otherwise,apart]
    · simp [success,otherwise,apart]

theorem Application.end_linked (app : Application flags states alloc cfg context) :
    Graph.Linked cfg (fsm flags states alloc) context none (.visit (mod alloc .endMod) fun _ => .leave) := by
  refine ⟨app.kinds .endMod trivial,?_⟩
  intro state _
  have same : mod alloc .endMod = (fsm flags states alloc).endMod :=
    (configure_configured _ _ _).endMod.symm
  rw [Graph.Leads,if_pos same]
  exact ⟨⟨rfl,rfl⟩,trivial⟩

theorem Application.answer_linked (app : Application flags states alloc cfg context) (response : Node)
    (one : response = .respMod ∨ response = .randRespMod ∨ response = .emptyRespMod) :
    (answer alloc response).Linked cfg (fsm flags states alloc) context none := by
  rcases one with rfl | rfl | rfl
  all_goals
    refine ⟨app.kinds _ trivial,?_⟩
    intro state _
    refine ⟨leads_node _ .endMod trivial (by simp) ?_ rfl,app.end_linked⟩
    rw [target,target,either_or,ite_self]

theorem Application.conclude_linked (app : Application flags states alloc cfg context) (state : ModState) :
    (conclude states alloc state).Linked cfg (fsm flags states alloc) context none := by
  unfold conclude
  split
  · refine ⟨app.kinds .ifRandMod trivial,?_⟩
    intro state produced
    rcases app.ifRand state produced with rfl | rfl
    · simp only [if_pos]
      refine ⟨leads_node .ifRandMod .respMod trivial (by simp) ?_ rfl,app.answer_linked _ (.inl rfl)⟩
      simp [target]
    · simp only [if_neg states.answers]
      refine ⟨leads_node .ifRandMod .randRespMod trivial (by simp) ?_ rfl,app.answer_linked _ (.inr (.inl rfl))⟩
      simp [target,states.answers]
  · exact app.answer_linked _ (.inr (.inr rfl))

theorem Application.width_le (app : Application flags states alloc cfg context) (fork join : Node)
    (pair : fork.join = some join) (inside : fork.Inside flags) :
    width alloc cfg context fork ≤ fork.forkNum flags := by
  have bound := UInt16.le_iff_toNat_le.mp (app.active fork join pair inside).2.1
  rw [UInt16.toNat_ofNat'] at bound
  exact bound.trans (Nat.mod_le _ _)

theorem Application.shard_linked (app : Application flags states alloc cfg context)
    (shard backfill join : Node) (one : shard.Inside flags)
    (two : backfill.Inside flags) (kinds : shard.kind flags = .sequential ∧ backfill.kind flags = .sequential)
    (first : ∀ state, target flags states shard state = either join backfill state)
    (second : ∀ state, target flags states backfill state = either join join state)
    (further : shard ≠ .endMod ∧ backfill ≠ .endMod) :
    (shardGraph alloc shard backfill).Linked cfg (fsm flags states alloc) context (some (mod alloc join)) := by
  refine ⟨(app.kinds shard one).trans kinds.1,?_⟩
  intro state _
  have found := either_or join backfill state
  rw [← first,← first] at found
  by_cases success : state = modSucceed
  · simp only [if_pos success] at found ⊢
    exact ⟨leads_node shard join one further.1 found rfl,trivial⟩
  · simp only [if_neg success] at found ⊢
    refine ⟨leads_node shard backfill one further.1 found rfl,(app.kinds backfill two).trans kinds.2,?_⟩
    intro state _
    refine ⟨leads_node backfill join two further.2 ?_ rfl,trivial⟩
    rw [second,second,either_or,ite_self]

theorem Application.region_linked (app : Application flags states alloc cfg context)
    (fork join : Node) (pair : fork.join = some join) (inside : fork.Inside flags)
    (within : join.Inside flags) (branches : Nat → Node) (branch : Nat → Graph) (next : ModState → Graph)
    (starts : ∀ i < fork.forkNum flags, (target flags states fork (modFork0 + UInt32.ofNat i)) = some (branches i) ∧
      (branch i).head (some (mod alloc join)) = some (mod alloc (branches i)) ∧
      (branch i).Linked cfg (fsm flags states alloc) context (some (mod alloc join)))
    (after : ∀ state, cfg.produces (mod alloc join) state →
      Graph.Leads (fsm flags states alloc) outer (mod alloc join) state (next state) ∧
        (next state).Linked cfg (fsm flags states alloc) context outer) :
    (regionGraph alloc cfg context fork join branch next).Linked cfg (fsm flags states alloc) context outer := by
  obtain ⟨some,enough,same⟩ := app.active fork join pair inside
  have kinds : fork.kind flags = .fork (UInt16.ofNat (fork.forkNum flags)) ∧ join.kind flags = .join := by
    cases fork <;> simp only [Node.join,Option.some.injEq,reduceCtorEq] at pair <;> subst pair <;> exact ⟨rfl,rfl⟩
  have further : fork ≠ .endMod := by
    rintro rfl
    cases pair
  refine ⟨⟨_,(app.kinds fork inside).trans kinds.1,enough⟩,(app.kinds join within).trans kinds.2,
    registered_node flags states alloc fork inside,registered_node flags states alloc join within,
    UInt16.lt_iff_toNat_lt.mp some,rfl,congrArg UInt16.toNat same,?_,after⟩
  intro i bound
  obtain ⟨link,head,linked⟩ := starts i (bound.trans_le (app.width_le fork join pair inside))
  refine ⟨leads_node fork (branches i) inside further ?_ head,linked⟩
  rw [link]
  rfl

theorem Application.fsShard_linked (app : Application flags states alloc cfg context) (i : Nat)
    (inside : i < flags.fsMaxShardNum) :
    (fsShardGraph alloc cfg context i).Linked cfg (fsm flags states alloc) context (some (mod alloc .fsJoinMod)) := by
  refine ⟨app.kinds (.fsMod i) inside,?_⟩
  intro state _
  have found := either_or (.psForkMod2 i) .fsJoinMod state
  by_cases success : state = modSucceed
  · simp only [if_pos success] at found ⊢
    refine ⟨leads_node (.fsMod i) (.psForkMod2 i) inside (by simp) found rfl,?_⟩
    refine app.region_linked (.psForkMod2 i) (.psJoinMod2 i) rfl inside inside (.psMod2 i) _ _ ?_ ?_
    · intro j bound
      refine ⟨(shard_iff _ flags.subFits _ _ _).mpr ⟨j,bound,rfl,rfl⟩,rfl,?_⟩
      exact app.shard_linked (.psMod2 i j) (.psBackfillMod2 i j) (.psJoinMod2 i) ⟨inside,bound⟩ ⟨inside,bound⟩
        ⟨rfl,rfl⟩ (fun _ => rfl) (fun _ => rfl) ⟨by simp,by simp⟩
    · intro state _
      refine ⟨leads_node (.psJoinMod2 i) .fsJoinMod inside (by simp) ?_ rfl,trivial⟩
      rw [target,target,either_or,ite_self]
  · simp only [if_neg success] at found ⊢
    exact ⟨leads_node (.fsMod i) .fsJoinMod inside (by simp) found rfl,trivial⟩

theorem Application.join_linked (app : Application flags states alloc cfg context) (join : Node)
    (one : join = .fsJoinMod ∨ join = .psJoinMod) (state : ModState) :
    Graph.Leads (fsm flags states alloc) none (mod alloc join) state (conclude states alloc state) ∧
      (conclude states alloc state).Linked cfg (fsm flags states alloc) context none := by
  refine ⟨?_,app.conclude_linked state⟩
  have found := either_or .ifRandMod .emptyRespMod state
  have head : (conclude states alloc state).head none =
      some (mod alloc (if state = modSucceed then .ifRandMod else .emptyRespMod)) := by
    unfold conclude
    split <;> rfl
  rcases one with rfl | rfl
  · exact leads_node .fsJoinMod _ trivial (by simp) found head
  · exact leads_node .psJoinMod _ trivial (by simp) found head

theorem Application.fs_linked (app : Application flags states alloc cfg context) :
    (fsGraph states alloc cfg context).Linked cfg (fsm flags states alloc) context none := by
  refine ⟨app.kinds .genFsReqMod trivial,?_⟩
  intro state _
  have found := either_or .fsForkMod .emptyRespMod state
  by_cases success : state = modSucceed
  · simp only [if_pos success] at found ⊢
    refine ⟨leads_node .genFsReqMod .fsForkMod trivial (by simp) found rfl,?_⟩
    refine app.region_linked .fsForkMod .fsJoinMod rfl trivial trivial .fsMod _ _ ?_ ?_
    · intro i bound
      exact ⟨(shard_iff _ flags.fsFits _ _ _).mpr ⟨i,bound,rfl,rfl⟩,rfl,app.fsShard_linked i bound⟩
    · exact fun state _ => app.join_linked .fsJoinMod (.inl rfl) state
  · simp only [if_neg success] at found ⊢
    exact ⟨leads_node .genFsReqMod .emptyRespMod trivial (by simp) found rfl,app.answer_linked _ (.inr (.inr rfl))⟩

theorem Application.ps_linked (app : Application flags states alloc cfg context) :
    (psGraph states alloc cfg context).Linked cfg (fsm flags states alloc) context none := by
  refine ⟨app.kinds .genPsReqMod trivial,?_⟩
  intro state _
  have found := either_or .psForkMod .emptyRespMod state
  by_cases success : state = modSucceed
  · simp only [if_pos success] at found ⊢
    refine ⟨leads_node .genPsReqMod .psForkMod trivial (by simp) found rfl,?_⟩
    refine app.region_linked .psForkMod .psJoinMod rfl trivial trivial .psMod _ _ ?_ ?_
    · intro i bound
      refine ⟨(shard_iff _ flags.psFits _ _ _).mpr ⟨i,bound,rfl,rfl⟩,rfl,?_⟩
      exact app.shard_linked (.psMod i) (.psBackfillMod i) .psJoinMod bound bound
        ⟨rfl,rfl⟩ (fun _ => rfl) (fun _ => rfl) ⟨by simp,by simp⟩
    · exact fun state _ => app.join_linked .psJoinMod (.inr rfl) state
  · simp only [if_neg success] at found ⊢
    exact ⟨leads_node .genPsReqMod .emptyRespMod trivial (by simp) found rfl,app.answer_linked _ (.inr (.inr rfl))⟩

theorem Application.request_linked (app : Application flags states alloc cfg context) :
    (requestGraph states alloc cfg context).Linked cfg (fsm flags states alloc) context none := by
  refine ⟨app.kinds .reqMod trivial,?_⟩
  intro state _
  have routes := states.routes
  by_cases toFs : state = states.reqSucceedToFs
  · simp only [if_pos toFs]
    refine ⟨leads_node .reqMod .genFsReqMod trivial (by simp) ?_ rfl,app.fs_linked⟩
    simp [target,toFs]
  · by_cases toPs : state = states.reqSucceedToPs
    · simp only [if_neg toFs,if_pos toPs]
      refine ⟨leads_node .reqMod .genPsReqMod trivial (by simp) ?_ rfl,app.ps_linked⟩
      simp only [target,if_neg toFs,if_pos toPs,Option.some_or]
    · by_cases toRandom : state = states.reqSucceedToRandom
      · simp only [if_neg toFs,if_neg toPs,if_pos toRandom]
        refine ⟨leads_node .reqMod .randRespMod trivial (by simp) ?_ rfl,app.answer_linked _ (.inr (.inl rfl))⟩
        simp only [target,if_neg toFs,if_neg toPs,if_pos toRandom,Option.some_or]
      · simp only [if_neg toFs,if_neg toPs,if_neg toRandom]
        refine ⟨leads_node .reqMod .endMod trivial (by simp) ?_ rfl,app.end_linked⟩
        simp only [List.nodup_cons,List.mem_cons,List.not_mem_nil,or_false,not_or] at routes
        obtain ⟨⟨elseFs,elsePs,elseRandom⟩,_⟩ := routes
        simp only [target,if_neg toFs,if_neg toPs,if_neg toRandom,if_neg elseFs,if_neg elsePs,if_neg elseRandom,if_pos]
        split <;> rfl

section Once

theorem answer_enters (response : Node) : ¬ (answer alloc response).Enters cfg join := by
  simp [answer,Graph.Enters]

theorem conclude_enters (state : ModState) : ¬ (conclude states alloc state).Enters cfg join := by
  unfold conclude
  split
  · rintro ⟨state,_,entered⟩
    exact answer_enters _ entered
  · exact answer_enters _

theorem shard_enters (shard backfill : Node) : ¬ (shardGraph alloc shard backfill).Enters cfg join := by
  rintro ⟨state,_,entered⟩
  dsimp only at entered
  split at entered
  · exact entered
  · simp [Graph.Enters] at entered

theorem fsShard_enters (i : Nat) (entered : (fsShardGraph alloc cfg context i).Enters cfg join) :
    join = mod alloc (.psJoinMod2 i) := by
  obtain ⟨state,_,entered⟩ := entered
  dsimp only at entered
  split at entered
  · rcases entered with same | ⟨j,_,entered⟩ | ⟨state,_,entered⟩
    · exact same
    · exact (shard_enters _ _ entered).elim
    · exact entered.elim
  · exact entered.elim

theorem answer_once (response : Node) : (answer alloc response).Once cfg := by
  simp [answer,Graph.Once]

theorem conclude_once (state : ModState) : (conclude states alloc state).Once cfg := by
  unfold conclude
  split
  · exact fun _ _ => answer_once _
  · exact answer_once _

theorem shard_once (shard backfill : Node) : (shardGraph alloc shard backfill).Once cfg := by
  intro state _
  dsimp only
  split
  · trivial
  · exact fun _ _ => trivial

/-- A region whose branches enter different joins, none of them its own, and after which
there is none. -/
theorem region_once (fork join : Node) (branch : Nat → Graph) (next : ModState → Graph)
    (branches : ∀ i < width alloc cfg context fork, (branch i).Once cfg ∧
      ∀ other, (branch i).Enters cfg other → other ≠ mod alloc join ∧
        ∀ j < width alloc cfg context fork, i ≠ j → ¬ (branch j).Enters cfg other)
    (after : ∀ state, (next state).Once cfg ∧ ∀ other, ¬ (next state).Enters cfg other) :
    (regionGraph alloc cfg context fork join branch next).Once cfg := by
  refine ⟨?_,fun state _ => ⟨(after state).1,(after state).2 _⟩,?_,?_⟩
  · intro i inside
    exact ⟨(branches i inside).1,fun entered => ((branches i inside).2 _ entered).1 rfl⟩
  · intro i one j two other
    rw [Set.disjoint_left]
    exact fun join entered => ((branches i one).2 join entered).2 j two other
  · intro i inside state _
    rw [Set.disjoint_right]
    exact fun join entered => ((after state).2 join entered).elim

theorem shards_once (fork join : Node) (shard backfill : Nat → Node) (next : ModState → Graph)
    (after : ∀ state, (next state).Once cfg ∧ ∀ other, ¬ (next state).Enters cfg other) :
    (regionGraph alloc cfg context fork join (fun i => shardGraph alloc (shard i) (backfill i)) next).Once cfg :=
  region_once fork join _ next
    (fun _ _ => ⟨shard_once _ _,fun _ entered => (shard_enters _ _ entered).elim⟩) after

theorem fsShard_once (i : Nat) : (fsShardGraph alloc cfg context i).Once cfg := by
  intro state _
  dsimp only
  split
  · exact shards_once _ _ _ _ _ fun _ => ⟨trivial,fun _ entered => entered⟩
  · trivial

theorem concluded_once (state : ModState) : (conclude states alloc state).Once cfg ∧
    ∀ other, ¬ (conclude states alloc state).Enters cfg other :=
  ⟨conclude_once state,fun _ => conclude_enters state⟩

theorem Application.request_once (app : Application flags states alloc cfg context) :
    (requestGraph states alloc cfg context).Once cfg := by
  intro state _
  dsimp only
  split
  · intro state _
    dsimp only
    split
    · refine region_once _ _ _ _ ?_ concluded_once
      intro i inside
      have bound := inside.trans_le (app.width_le .fsForkMod .fsJoinMod rfl trivial)
      refine ⟨fsShard_once i,?_⟩
      intro other entered
      obtain rfl := fsShard_enters i entered
      refine ⟨?_,?_⟩
      · intro same
        cases (mod_inj flags alloc (.psJoinMod2 i) .fsJoinMod bound trivial).mp same
      · intro j within apart again
        have limit := within.trans_le (app.width_le .fsForkMod .fsJoinMod rfl trivial)
        have same := (mod_inj flags alloc (.psJoinMod2 i) (.psJoinMod2 j) bound limit).mp (fsShard_enters j again)
        cases same
        exact apart rfl
    · exact answer_once _
  · split
    · intro state _
      dsimp only
      split
      · exact shards_once _ _ _ _ _ concluded_once
      · exact answer_once _
    · split
      · exact answer_once _
      · exact fun _ _ => trivial

end Once

/-- The graph of `main` is properly nested, whatever its flags. -/
theorem Application.nested (app : Application flags states alloc cfg context) :
    (requestGraph states alloc cfg context).Nested cfg (fsm flags states alloc) context where
  start := congrArg some (configure_configured _ _ _).startMod.symm
  linked := app.request_linked
  once := app.request_once

end Nested

/-- What `main` configures, for all flags: no two modules share a name, so that every
`add_module` is taken; every link leads to the module it names; and with any application of
those classes a request walks a properly nested graph. -/
theorem service_configured (flags : Flags) (states : States) (alloc : Node → Nat) :
    (∀ n m : Node, n.Inside flags → m.Inside flags → n.name = m.name → n = m) ∧
    (∀ n, .add n ∈ lines flags states → Registered (fsm flags states alloc) (mod alloc n)) ∧
    (∀ n t state, .link n t state ∈ lines flags states →
      (fsm flags states alloc).route (mod alloc n) state = some (mod alloc t)) ∧
    ∀ cfg context, Application flags states alloc cfg context →
      (requestGraph states alloc cfg context).Nested cfg (fsm flags states alloc) context := by
  refine ⟨Node.name_injective flags,?_,?_,fun _ _ app => app.nested⟩
  · intro n added
    exact registered_node flags states alloc n ((mem_add flags states n).mp added)
  · intro n t state linked
    obtain ⟨inside,found⟩ := (mem_link flags states n t state).mp linked
    rw [route_node flags states alloc n state inside,found]
    rfl

section Example

def exampleFlags : Flags := ⟨1,1,1,by decide,by decide,by decide⟩

def exampleStates : States := ⟨11,12,13,14,15,by decide,by decide⟩

def exampleAlloc (n : Node) : Nat := (Node.shapes []).idxOf n

def exampleConfig : Config where
  kind m := ((Node.shapes [])[m.id]?).elim .sequential (Node.kind exampleFlags)
  getActiveForkNum _ _ := 1
  getActiveJoinNum _ _ := 1
  states m state := m.id != exampleAlloc .ifRandMod || state == 14 || state == 15

theorem example_application (context : Nat) :
    Application exampleFlags exampleStates exampleAlloc exampleConfig context where
  kinds n inside := by
    cases n with
    | fsMod i | psForkMod2 i | psJoinMod2 i | psMod i | psBackfillMod i =>
      obtain rfl : i = 0 := Nat.lt_one_iff.mp inside
      rfl
    | psMod2 i j | psBackfillMod2 i j =>
      obtain rfl : i = 0 := Nat.lt_one_iff.mp inside.1
      obtain rfl : j = 0 := Nat.lt_one_iff.mp inside.2
      rfl
    | _ => rfl
  ifRand state produced := by
    have kind : exampleConfig.kind (mod exampleAlloc .ifRandMod) = .sequential := rfl
    rw [Config.produces,kind] at produced
    have own := (Bool.and_eq_true_iff.mp produced).1
    simp only [exampleConfig,mod,bne_self_eq_false,Bool.false_or,Bool.or_eq_true,beq_iff_eq] at own
    exact own.symm
  active fork join pair inside := by
    cases fork <;> simp only [Node.join,Option.some.injEq,reduceCtorEq] at pair <;> subst pair <;>
      exact ⟨(by decide : (0 : UInt16) < 1),(by decide : (1 : UInt16) ≤ 1),rfl⟩

theorem example_configured :
    (fsm exampleFlags exampleStates exampleAlloc).route (mod exampleAlloc (.psMod2 0 0)) modElse =
      some (mod exampleAlloc (.psBackfillMod2 0 0)) ∧
    (requestGraph exampleStates exampleAlloc exampleConfig 0).Nested exampleConfig
      (fsm exampleFlags exampleStates exampleAlloc) 0 := by
  obtain ⟨_,_,linked,nested⟩ := service_configured exampleFlags exampleStates exampleAlloc
  exact ⟨linked _ _ _ (by decide),nested exampleConfig 0 (example_application 0)⟩

end Example

end Zerver.Service
