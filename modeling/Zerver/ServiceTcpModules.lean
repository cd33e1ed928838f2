import Mathlib
import Zerver.ServerTcpModules
import Zerver.ServiceAnswers

/-! The shards of the service in `example1/main.cc` are TcpModules over two client pools. A
request asks each active shard by one call of `TcpModule::run`, and has nothing outstanding
at any of them when it ends. -/
namespace Zerver.Service

open Zerver.Fsm
open Zerver.ForkJoin
open Zerver.Schedule

/-- `fs_client_pool` is the first pool, `ps_client_pool` the second. -/
def Node.clientPool : Node → Option Nat
  | .fsMod _ => some 0
  | .psMod2 _ _ | .psMod _ => some 1
  | _ => none

/-- The modules that `main` gives a pool are TcpModules, each at an address of its own. -/
structure TcpApplication (flags : Flags) (states : States) (alloc : Node → Nat) (cfg : ServerTcp.Config) : Prop where
  app : ∀ context, Application flags states alloc cfg.machine context
  isTcp : ∀ m, cfg.isTcp m ↔ ∃ n : Node, n.Inside flags ∧ n.clientPool.isSome ∧ m = mod alloc n
  clientPool : ∀ n : Node, n.Inside flags → ∀ pool, n.clientPool = some pool → cfg.clientPool (mod alloc n) = pool
  object : ∀ m, cfg.isTcp m → cfg.object m.id = m
  states : ∀ m, cfg.isTcp m → ∀ state ∈ [modSucceed,modFailed,modTimeout], cfg.machine.states m state

section Apart

variable {flags : Flags} {states : States} {alloc : Node → Nat} {cfg : Config} {context : Nat}
  {rival : Module → Module → Prop}

theorem answer_apart (response : Node) : (answer alloc response).Apart rival := fun _ _ => trivial

theorem conclude_apart (state : ModState) : (conclude states alloc state).Apart rival := by
  unfold conclude
  split
  · exact fun _ => answer_apart _
  · exact answer_apart _

theorem shard_apart (shard backfill : Node) : (shardGraph alloc shard backfill).Apart rival := by
  intro state
  dsimp only
  split
  · trivial
  · exact fun _ => trivial

theorem shard_mentions (shard backfill : Node) (mentions : (shardGraph alloc shard backfill).Mentions m) :
    m = mod alloc shard ∨ m = mod alloc backfill := by
  rcases mentions with rfl | ⟨state,mentions⟩
  · exact .inl rfl
  · dsimp only at mentions
    split at mentions
    · exact mentions.elim
    · rcases mentions with rfl | ⟨state,mentions⟩
      · exact .inr rfl
      · exact mentions.elim

/-- In the branches of `main` only a module itself is a rival of it. -/
def Peaceful (flags : Flags) (alloc : Node → Nat) (rival : Module → Module → Prop) : Prop :=
  ∀ n k : Node, n.Inside flags → k.Inside flags → n.outer = false → rival (mod alloc n) (mod alloc k) → n = k

theorem shards_apart (peaceful : Peaceful flags alloc rival) (fork join : Node) (shard backfill : Nat → Node)
    (next : ModState → Graph)
    (inside : ∀ i < width alloc cfg context fork, (shard i).Inside flags ∧ (backfill i).Inside flags)
    (inner : ∀ i, (shard i).outer = false ∧ (backfill i).outer = false)
    (apart : ∀ i j, i ≠ j → shard i ≠ shard j ∧ backfill i ≠ backfill j)
    (other : ∀ i j, shard i ≠ backfill j) (after : ∀ state, (next state).Apart rival) :
    (regionGraph alloc cfg context fork join (fun i => shardGraph alloc (shard i) (backfill i)) next).Apart rival := by
  refine ⟨fun i _ => shard_apart _ _,?_,after⟩
  intro i bound j bound' different m m' rivals one two
  obtain ⟨first,second⟩ := inside i bound
  obtain ⟨first',second'⟩ := inside j bound'
  rcases shard_mentions _ _ one with rfl | rfl <;> rcases shard_mentions _ _ two with rfl | rfl
  · exact (apart i j different).1 (peaceful _ _ first first' (inner i).1 rivals)
  · exact other i j (peaceful _ _ first second' (inner i).1 rivals)
  · exact other j i (peaceful _ _ second first' (inner i).2 rivals).symm
  · exact (apart i j different).2 (peaceful _ _ second second' (inner i).2 rivals)

theorem fsShard_apart (app : Application flags states alloc cfg context) (peaceful : Peaceful flags alloc rival)
    (i : Nat) (inside : i < flags.fsMaxShardNum) : (fsShardGraph alloc cfg context i).Apart rival := by
  intro state
  dsimp only
  split
  · refine shards_apart peaceful _ _ (.psMod2 i) (.psBackfillMod2 i) _ ?_ (fun _ => ⟨rfl,rfl⟩) ?_ (by simp)
      fun _ => trivial
    · intro j bound
      have limit := bound.trans_le (app.width_le (.psForkMod2 i) (.psJoinMod2 i) rfl inside)
      exact ⟨⟨inside,limit⟩,inside,limit⟩
    · intro j k different
      simp [different]
  · trivial

theorem Node.shardOf_inner (n : Node) (own : n.shardOf = some i) : n.outer = false := by
  cases n <;> first | rfl | cases own

/-- No two branches of a fork in the graph of `main` have rivals among their modules. -/
theorem Application.apart (app : Application flags states alloc cfg context) (peaceful : Peaceful flags alloc rival) :
    (requestGraph states alloc cfg context).Apart rival := by
  intro state
  dsimp only
  split
  · intro state
    dsimp only
    split
    · have within := app.width_le .fsForkMod .fsJoinMod rfl trivial
      refine ⟨fun i bound => fsShard_apart app peaceful i (bound.trans_le within),?_,fun _ => conclude_apart _⟩
      intro i bound j bound' different m m' rivals one two
      have limit (k : Nat) (bound : k < flags.fsMaxShardNum) :=
        app.width_le (.psForkMod2 k) (.psJoinMod2 k) rfl bound
      obtain ⟨n,known,here,rfl⟩ := fsShard_mentions i (limit i (bound.trans_le within)) (bound.trans_le within) one
      obtain ⟨k,known',there,rfl⟩ := fsShard_mentions j (limit j (bound'.trans_le within)) (bound'.trans_le within) two
      rw [peaceful n k known known' (n.shardOf_inner here) rivals,there] at here
      exact different (Option.some.inj here).symm
    · exact answer_apart _
  · split
    · intro state
      dsimp only
      split
      · refine shards_apart peaceful _ _ .psMod .psBackfillMod _ ?_ (fun _ => ⟨rfl,rfl⟩) ?_ (by simp)
          fun _ => conclude_apart _
        · intro i bound
          have limit := bound.trans_le (app.width_le .psForkMod .psJoinMod rfl trivial)
          exact ⟨limit,limit⟩
        · intro i j different
          simp [different]
      · exact answer_apart _
    · split
      · exact answer_apart _
      · exact fun _ => trivial

end Apart

section Fetches

variable {flags : Flags} {states : States} {alloc : Node → Nat} {cfg : ServerTcp.Config} {fork join : Node}

theorem TcpApplication.fits (app : TcpApplication flags states alloc cfg) :
    ServerTcp.Fits cfg (fsm flags states alloc) fun context => requestGraph states alloc cfg.machine context where
  nested context := (app.app context).nested
  apart context := (app.app context).apart fun n k inside inside' _ rivals =>
    (mod_inj flags alloc n k inside inside').mp rivals.1
  kind m own := by
    obtain ⟨n,inside,pool,rfl⟩ := (app.isTcp m).mp own
    rw [(app.app 0).kinds n inside]
    cases n with
    | fsMod _ | psMod2 _ _ | psMod _ => rfl
    | _ => cases pool
  states := app.states
  object := app.object

/-- What a request that has ended has made of its shards, over the pools of their kinds. -/
structure Fetched (flags : Flags) (alloc : Node → Nat) (cfg : ServerTcp.Config) (s : ServerTcp.State) (context : Nat)
    (fork : Node) : Prop where
  asked : ∀ i < fork.forkNum flags, ∀ pool, (fork.branch i).clientPool = some pool →
    TcpModule.returnsOf (s.tcp pool).log ⟨context,alloc (fork.branch i)⟩ =
      if i < width alloc cfg.machine context fork then
        visits (runsOf s.server.machine.log context) (mod alloc fork) else 0
  idle : ∀ i < fork.forkNum flags, ∀ pool, (fork.branch i).clientPool = some pool →
    (s.tcp pool).ops ⟨context,alloc (fork.branch i)⟩ = []
  resumed : ∀ i < fork.forkNum flags, ∀ pool, (fork.branch i).clientPool = some pool →
    ∀ attempt : Attempt, attempt.slot = ⟨context,alloc (fork.branch i)⟩ →
      TcpModule.Control.resumes (s.tcp pool) attempt = TcpModule.Control.started (s.tcp pool) attempt

theorem TcpApplication.branch (app : TcpApplication flags states alloc cfg) (pair : fork.join = some join)
    (inside : fork.Inside flags) (bound : i < fork.forkNum flags) (connected : (fork.branch i).clientPool = some pool) :
    cfg.isTcp (mod alloc (fork.branch i)) ∧ cfg.clientPool (mod alloc (fork.branch i)) = pool := by
  have known := ((Node.join_inside fork join pair inside).2.2 i bound).1
  exact ⟨(app.isTcp _).mpr ⟨_,known,by simp [connected],rfl⟩,app.clientPool _ known pool connected⟩

theorem TcpApplication.fetched (app : TcpApplication flags states alloc cfg)
    (coupled : ServerTcp.Coupled cfg (fsm flags states alloc)
      (fun context => requestGraph states alloc cfg.machine context) stages s)
    (ended : ends s.server.machine.log c = 1)
    (answered : Answered flags states alloc cfg.machine c (runsOf s.server.machine.log c))
    (pair : fork.join = some join) (inside : fork.Inside flags) : Fetched flags alloc cfg s c fork := by
  have idle (i : Nat) (bound : i < fork.forkNum flags) (pool : Nat)
      (connected : (fork.branch i).clientPool = some pool) :
      (s.tcp pool).ops ⟨c,alloc (fork.branch i)⟩ = [] := by
    obtain ⟨own,rfl⟩ := app.branch pair inside bound connected
    exact coupled.idle_ended own ended
  refine ⟨?_,idle,?_⟩
  · intro i bound pool connected
    obtain ⟨own,rfl⟩ := app.branch pair inside bound connected
    refine (coupled.returns _ c own).symm.trans ?_
    rw [← visits_runsOf]
    exact (answered.forked fork join pair inside).branches i bound
  · intro i bound pool connected attempt here
    have balance := (coupled.tcp pool).balanced.balance attempt
    have none : TcpModule.Control.outstanding (s.tcp pool) attempt = 0 := by
      rw [TcpModule.Control.outstanding,here,idle i bound pool connected]
      rfl
    rw [none] at balance
    simpa [TcpModule.Control.due] using balance

end Fetches

/-- The service with its TcpModules, in any order of the handlers of both: a request that has
ended has been answered, has asked each active shard by one call and no other shard, and
none of the attempts it has started is left without its continuation. -/
theorem service_fetches (flags : Flags) (states : States) (alloc : Node → Nat) (cfg : ServerTcp.Config)
    (app : TcpApplication flags states alloc cfg) (joins : Nat → String → JoinData) (maxTimes : Nat → Int32) (checkTime : Nat → Int)
    (schedule : List ServerTcp.Action) :
    let s := execute (ServerTcp.step cfg) (ServerTcp.initial (fsm flags states alloc) joins maxTimes checkTime) schedule
    let m := s.server.machine
    m.crashed = false ∧ ∀ c < m.world.contexts, ends m.log c = 1 →
      Answered flags states alloc cfg.machine c (runsOf m.log c) ∧
      ∀ fork join, fork.join = some join → fork.Inside flags → Fetched flags alloc cfg s c fork := by
  intro s m
  obtain ⟨⟨stages,coupled⟩,_⟩ := ServerTcp.execute_coupled app.fits joins maxTimes checkTime schedule
  refine ⟨coupled.server.crashed,?_⟩
  intro c known ended
  obtain ⟨last,executes⟩ := (coupled.server.done known ended).executes
  have answered := request_answered (app.app c) executes
  exact ⟨answered,fun fork join pair inside => app.fetched coupled ended answered pair inside⟩

section Example

def exampleTcpConfig : ServerTcp.Config where
  machine := exampleConfig
  tcp _ := ⟨fun _ => 1,fun _ _ => 1⟩
  isTcp m := m == mod exampleAlloc (.fsMod 0) || m == mod exampleAlloc (.psMod2 0 0) || m == mod exampleAlloc (.psMod 0)
  clientPool m := if m = mod exampleAlloc (.fsMod 0) then 0 else 1
  object id := mod exampleAlloc (((Node.shapes [])[id]?).getD .reqMod)

theorem example_isTcp (m : Module) : exampleTcpConfig.isTcp m ↔
    m = mod exampleAlloc (.fsMod 0) ∨ m = mod exampleAlloc (.psMod2 0 0) ∨ m = mod exampleAlloc (.psMod 0) := by
  simp [exampleTcpConfig,or_assoc]

theorem example_tcpApplication : TcpApplication exampleFlags exampleStates exampleAlloc exampleTcpConfig where
  app := example_application
  isTcp m := by
    rw [example_isTcp]
    constructor
    · rintro (rfl | rfl | rfl)
      · exact ⟨.fsMod 0,Nat.one_pos,rfl,rfl⟩
      · exact ⟨.psMod2 0 0,⟨Nat.one_pos,Nat.one_pos⟩,rfl,rfl⟩
      · exact ⟨.psMod 0,Nat.one_pos,rfl,rfl⟩
    · rintro ⟨n,inside,pool,rfl⟩
      cases n with
      | fsMod i =>
        obtain rfl : i = 0 := Nat.lt_one_iff.mp inside
        exact .inl rfl
      | psMod2 i j =>
        obtain rfl : i = 0 := Nat.lt_one_iff.mp inside.1
        obtain rfl : j = 0 := Nat.lt_one_iff.mp inside.2
        exact .inr (.inl rfl)
      | psMod i =>
        obtain rfl : i = 0 := Nat.lt_one_iff.mp inside
        exact .inr (.inr rfl)
      | _ => cases pool
  clientPool n inside pool connected := by
    cases n with
    | fsMod i =>
      obtain rfl : i = 0 := Nat.lt_one_iff.mp inside
      exact Option.some.inj connected
    | psMod2 i j =>
      obtain rfl : i = 0 := Nat.lt_one_iff.mp inside.1
      obtain rfl : j = 0 := Nat.lt_one_iff.mp inside.2
      exact Option.some.inj connected
    | psMod i =>
      obtain rfl : i = 0 := Nat.lt_one_iff.mp inside
      exact Option.some.inj connected
    | _ => cases connected
  object m own := by
    rcases (example_isTcp m).mp own with rfl | rfl | rfl <;> rfl
  states m own state _ := by
    rcases (example_isTcp m).mp own with rfl | rfl | rfl <;> rfl

/-- The feature server answers, and for the predictor server no address is found. -/
def exampleTcpSchedule : List ServerTcp.Action :=
  let turn (n : Node) (state result : ModState) : ServerTcp.Action := .turn (runToken n state,⟨result,false,false⟩)
  let fetch (n : Node) (server : Option (String × UInt16)) : ServerTcp.Action :=
    .run (mod exampleAlloc n) 0 modFork0 { ServerTcp.exampleArgs with server := server } false
  let forked (n : Node) : ServerTcp.Action := .turn (.onForked (mod exampleAlloc n) modFork0 0,⟨1,false,false⟩)
  let joined (n : Node) : ServerTcp.Action := .turn (.onJoined (mod exampleAlloc n) 1 0,⟨1,false,false⟩)
  ([.accepted .success,.turn (.calling (.handleRequest 0),⟨1,false,false⟩),turn .reqMod 5 11,turn .genFsReqMod 11 1,
    turn .fsForkMod 1 1,forked .fsForkMod,fetch (.fsMod 0) (some ("10.0.0.1",80))] : List ServerTcp.Action) ++
  ServerTcp.exchange 0 ⟨0,exampleAlloc (.fsMod 0)⟩ ++
  [turn (.psForkMod2 0) 1 1,forked (.psForkMod2 0),fetch (.psMod2 0 0) none,turn (.psBackfillMod2 0 0) 2 1,
    turn (.psJoinMod2 0) 1 1,joined (.psJoinMod2 0),turn .fsJoinMod 1 1,joined .fsJoinMod,turn .ifRandMod 1 15,
    turn .respMod 15 1,turn .endMod 1 1,.turn (.calling (.endRequest 0),⟨1,false,false⟩)]

theorem example_fetched :
    Fetched exampleFlags exampleAlloc exampleTcpConfig (execute (ServerTcp.step exampleTcpConfig)
      (ServerTcp.initial (fsm exampleFlags exampleStates exampleAlloc) (fun _ _ => ⟨65535,true⟩) (fun _ => 3) fun _ => 60)
      exampleTcpSchedule) 0 .fsForkMod :=
  ((service_fetches exampleFlags exampleStates exampleAlloc exampleTcpConfig example_tcpApplication
    (fun _ _ => ⟨65535,true⟩) (fun _ => 3) (fun _ => 60) exampleTcpSchedule).2 0 (by decide +kernel)
    (by decide +kernel)).2 .fsForkMod .fsJoinMod rfl trivial

end Example

end Zerver.Service
