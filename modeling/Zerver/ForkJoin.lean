import Zerver.Fsm

/-! Requests that fork and join: `module/fork_module.{h,cc}` and `module/join_module.{h,cc}`
under the state machine. A request is the tokens of its context that are left to perform:
the call that runs, the timers that have been started, the modules that will resume. -/
namespace Zerver.ForkJoin

open Zerver.Fsm

inductive Kind where
  | sequential
  | fork (forkNum : UInt16)
  | join
  deriving DecidableEq, Repr

/-- What the modules of an application are. The active numbers are virtual functions of
the context; `states` holds of what `run` of a sequential module may produce. -/
structure Config where
  kind : Module → Kind
  getActiveForkNum : Nat → Module → UInt16
  getActiveJoinNum : Nat → Module → UInt16
  states : Module → ModState → Bool

/-- The states with which a sequential module or a join is left. -/
def Config.produces (cfg : Config) (mod : Module) (state : ModState) : Bool :=
  match cfg.kind mod with
  | .sequential => cfg.states mod state && state != modAsync
  | .join => state == modSucceed || state == modFailed
  | .fork _ => false

/-- `JoinModule::ModuleData`. -/
structure JoinData where
  moduleJoinedNum : UInt16
  failedJoin : Bool
  deriving DecidableEq, Repr

namespace JoinData

def reset : JoinData := ⟨0,false⟩

/-- What `run` does to the data under the lock. -/
def arrive (lastModState : ModState) (data : JoinData) : JoinData where
  moduleJoinedNum := data.moduleJoinedNum + 1
  failedJoin := data.failedJoin || lastModState != modSucceed

def state (data : JoinData) : ModState := if data.failedJoin then modFailed else modSucceed

end JoinData

inductive Token where
  | calling (call : Call)
  | onForked (fork : Module) (forkIndex : ModState) (context : Nat)
  | onJoined (join : Module) (state : ModState) (context : Nat)
  | pending (mod : Module) (context : Nat)
  deriving DecidableEq, Repr

def callContext : Call → Nat
  | .handleRequest context => context
  | .run _ context _ => context
  | .resume _ _ context => context
  | .endRequest context => context

def Token.context : Token → Nat
  | .calling call => callContext call
  | .onForked _ _ context => context
  | .onJoined _ _ context => context
  | .pending _ context => context

inductive Event where
  | performed (token : Token)
  | created (context successor : Nat)
  deriving DecidableEq, Repr

def Event.context : Event → Nat
  | .performed token => token.context
  | .created context _ => context

structure Machine where
  world : World
  joins : Nat → String → JoinData
  tokens : List Token
  log : List Event
  crashed : Bool

/-- What a sequential module does when it is run or resumes. -/
structure Choice where
  state : ModState
  async : Bool
  exit : Bool
  deriving DecidableEq, Repr

namespace Machine

/-- A token is performed once. -/
def take (token : Token) (m : Machine) : Machine :=
  { m with tokens := m.tokens.erase token, log := m.log ++ [.performed token] }

def crash (m : Machine) : Machine := { m with crashed := true }

def add (tokens : List Token) (m : Machine) : Machine := { m with tokens := tokens ++ m.tokens }

def follow (m : Machine) (next : Outcome × World) : Machine :=
  let m := { m with world := next.2 };
  match next.1 with
  | .call call => m.add [.calling call]
  | .returned => m
  | .crashed => m.crash

def exitIf (exit : Bool) (context : Nat) (m : Machine) : Machine :=
  if exit then { m with world := m.world.exit context } else m

def setData (context : Nat) (name : String) (data : JoinData) (m : Machine) : Machine :=
  { m with joins := Function.update m.joins context (Function.update (m.joins context) name data) }

/-- The module whose `create_data` made the data under the name of `mod`. -/
def dataKind (cfg : Config) (mod : Module) (m : Machine) : Option Kind :=
  (m.world.fsm.modMap.lookup mod.name).join.map cfg.kind

/-- `ForkModule::run`: one timer for each active branch. Without data of its own, or with
fewer timers than branches, it reads where there is none. -/
def runFork (cfg : Config) (fork : Module) (context : Nat) (m : Machine) : Machine :=
  let active := cfg.getActiveForkNum context fork
  if active = 0 then m
  else
    match m.dataKind cfg fork with
    | some (.fork forkNum) =>
      if active ≤ forkNum then
        m.add ((List.range active.toNat).map fun i => .onForked fork (modFork0 + UInt32.ofNat i) context)
      else m.crash
    | _ => m.crash

def runJoin (cfg : Config) (join : Module) (context : Nat) (lastModState : ModState) (m : Machine) :
    Machine :=
  match m.dataKind cfg join with
  | some .join =>
    let data := (m.joins context join.name).arrive lastModState
    let m := m.setData context join.name data
    if data.moduleJoinedNum = cfg.getActiveJoinNum context join then
      m.add [.onJoined join data.state context]
    else m
  | _ => m.crash

/-- `mod->run`, the state it returns first. -/
def run (cfg : Config) (choice : Choice) (mod : Module) (context : Nat) (lastModState : ModState)
    (m : Machine) : ModState × Machine :=
  match cfg.kind mod with
  | .fork _ => (modAsync,m.runFork cfg mod context)
  | .join => (modAsync,m.runJoin cfg mod context lastModState)
  | .sequential =>
    let m := m.exitIf choice.exit context
    if choice.async then (modAsync,m.add [.pending mod context]) else (choice.state,m)

/-- `reset` of a context resets the data of its modules too. -/
def handleRequest (context : Nat) (m : Machine) : Machine :=
  { m with joins := Function.update m.joins context fun _ => .reset }.follow
    (m.world.handleRequest context)

def endRequest (context : Nat) (m : Machine) : Machine :=
  let next := m.world.endRequest context
  let created : List Event :=
    match next.1 with
    | .call (.handleRequest successor) => [.created context successor]
    | _ => []
  { m with log := m.log ++ created }.follow next

def perform (cfg : Config) (choice : Choice) (m : Machine) : Token → Machine
  | .calling (.handleRequest context) => m.handleRequest context
  | .calling (.run mod context lastModState) =>
    let (state,m) := m.run cfg choice mod context lastModState
    m.follow (m.world.afterRun mod state context)
  | .calling (.resume lastMod state context) => m.follow (m.world.resume lastMod state context)
  | .calling (.endRequest context) => m.endRequest context
  | .onForked fork forkIndex context => m.follow (m.world.resume fork forkIndex context)
  | .onJoined join state context => m.follow (m.world.resume join state context)
  | .pending mod context =>
    let m := m.exitIf choice.exit context
    m.follow (m.world.resume mod choice.state context)

end Machine

/-- A sequential module that finishes does so with a state of its own. -/
def Config.admits (cfg : Config) (choice : Choice) : Token → Bool
  | .calling (.run mod _ _) => cfg.kind mod != .sequential || choice.async || cfg.produces mod choice.state
  | .pending mod _ => cfg.produces mod choice.state
  | _ => true

/-- Tokens are performed in any order; a choice that no module makes is passed over. -/
def step (cfg : Config) (m : Machine) (turn : Token × Choice) : Machine :=
  if m.crashed = false ∧ turn.1 ∈ m.tokens ∧ cfg.admits turn.2 turn.1 then
    (m.take turn.1).perform cfg turn.2 turn.1
  else m

/-- A connection with its first context; the data of the modules are uninitialised. -/
def start (fsm : Fsm) (joins : Nat → String → JoinData) : Machine :=
  ⟨⟨fsm,fun _ => false,1⟩,joins,[.calling (.handleRequest 0)],[],false⟩

/-- How often the join has been run in a context. -/
def arrivals (log : List Event) (context : Nat) (join : Module) : Nat :=
  log.countP fun
    | .performed (.calling (.run mod c _)) => mod = join ∧ c = context
    | _ => false

/-- How often the join has resumed the Fsm in a context. -/
def resumes (log : List Event) (context : Nat) (join : Module) : Nat :=
  log.countP fun
    | .performed (.onJoined mod _ c) => mod = join ∧ c = context
    | _ => false

def ends (log : List Event) (context : Nat) : Nat :=
  log.countP fun
    | .performed (.calling (.endRequest c)) => c = context
    | _ => false

def successors (log : List Event) (context : Nat) : Nat :=
  log.countP fun
    | .created c _ => c = context
    | _ => false

/-- How many tokens of a context have been performed. -/
def performances (log : List Event) (context : Nat) : Nat :=
  log.countP fun
    | .performed token => token.context = context
    | _ => false

end Zerver.ForkJoin
