import Zerver.ForkJoinTurns
import Zerver.ServerRequests
import Zerver.TcpModuleOutcomes

/-! The server with its TcpModules in place: `Fsm::_run` calls `TcpModule::run`, and the
completion handlers of `module/tcp_module.cc` call `Fsm::resume`. What each of the two
models takes for granted of the other is shown here of both together: a `ModuleData` is
free whenever its module is run, and a module that resumes has not resumed before. -/
namespace Zerver.ForkJoin

open Zerver.Fsm

section Pending

variable (cfg : Config) (choice : Choice) (mod : Module) (context : Nat)

theorem follow_pending (m : Machine) (next : Outcome × World) :
    (m.follow next).tokens.count (.pending mod context) = m.tokens.count (.pending mod context) := by
  obtain ⟨outcome,world⟩ := next
  cases outcome with
  | call next => simp [Machine.follow,Machine.add]
  | returned => rfl
  | crashed => rfl

theorem runFork_pending (fork : Module) (c : Nat) (m : Machine) :
    (m.runFork cfg fork c).tokens.count (.pending mod context) = m.tokens.count (.pending mod context) := by
  unfold Machine.runFork
  dsimp only
  split
  · rfl
  · split
    · split
      · simp [Machine.add,List.count_eq_zero]
      · rfl
    · rfl

theorem runJoin_pending (join : Module) (c : Nat) (state : ModState) (m : Machine) :
    (m.runJoin cfg join c state).tokens.count (.pending mod context) = m.tokens.count (.pending mod context) := by
  unfold Machine.runJoin
  split
  · dsimp only
    split
    · simp [Machine.add,Machine.setData]
    · rfl
  · rfl

/-- Only the run of a sequential module that returns `Mod_async` leaves it pending. -/
theorem run_pending (mod' : Module) (c : Nat) (state : ModState) (m : Machine) :
    (m.perform cfg choice (.calling (.run mod' c state))).tokens.count (.pending mod context) =
      m.tokens.count (.pending mod context) +
        if cfg.kind mod' = .sequential ∧ choice.async = true ∧ mod' = mod ∧ c = context then 1 else 0 := by
  simp only [Machine.perform,follow_pending,Machine.run]
  cases kind : cfg.kind mod' with
  | fork forkNum => simp [runFork_pending]
  | join => simp [runJoin_pending]
  | sequential =>
    cases choice.async with
    | false => simp
    | true => simp [Machine.add,List.count_cons]

theorem perform_pending (m : Machine) (token : Token) (other : ∀ mod' c state, token ≠ .calling (.run mod' c state)) :
    (m.perform cfg choice token).tokens.count (.pending mod context) = m.tokens.count (.pending mod context) := by
  cases token with
  | onForked fork forkIndex c => exact follow_pending ..
  | onJoined join state c => exact follow_pending ..
  | pending mod' c => simp [Machine.perform,follow_pending]
  | calling call =>
    cases call with
    | run mod' c state => exact absurd rfl (other mod' c state)
    | handleRequest c => exact follow_pending ..
    | resume mod' state c => exact follow_pending ..
    | endRequest c => exact follow_pending ..

end Pending

def resumptions (log : List Event) (context : Nat) (mod : Module) : Nat :=
  log.countP fun
    | .performed (.pending mod' c) => mod' = mod ∧ c = context
    | _ => false

theorem resumptions_pending (log : List Event) (context : Nat) (mod : Module) :
    resumptions (log ++ [.performed (.pending mod context)]) context mod = resumptions log context mod + 1 := by
  simp [resumptions,List.countP_append]

theorem resumptions_other (log : List Event) (context : Nat) (mod : Module) (token : Token)
    (other : token ≠ .pending mod context) :
    resumptions (log ++ [.performed token]) context mod = resumptions log context mod := by
  simp only [resumptions,List.countP_append,List.countP_singleton]
  split
  · rename_i mod' c performed
    obtain rfl := Event.performed.inj performed
    have different : ¬(mod' = mod ∧ c = context) := by
      rintro ⟨rfl,rfl⟩
      exact other rfl
    simp [different]
  · simp

section Turns

variable {cfg : Config} {fsm : Fsm} {m m' : Machine} {token : Token}

theorem Turn.contexts (turn : Turn cfg fsm m token m') (other : ∀ c, token ≠ .calling (.endRequest c)) :
    m'.world.contexts = m.world.contexts := by
  cases turn with
  | renewed _ _ _ contexts _ => exact contexts
  | joined _ _ _ _ _ _ contexts _ => exact contexts
  | created c ended _ _ _ => exact absurd ended (other c)
  | went _ _ _ _ contexts _ _ => exact contexts

/-- A context that waits for its reset, or is not made, was not under way before. -/
theorem Turn.renewing (turn : Turn cfg fsm m token m') (c : Nat)
    (later : m'.world.contexts ≤ c ∨ .calling (.handleRequest c) ∈ m'.tokens) :
    m.world.contexts ≤ c ∨ .calling (.handleRequest c) ∈ m.tokens := by
  have kept (new : List Token) (leaves : Leaves m token m' new)
      (none : .calling (.handleRequest c) ∈ new → m.world.contexts ≤ c)
      (present : .calling (.handleRequest c) ∈ m'.tokens) :
      m.world.contexts ≤ c ∨ .calling (.handleRequest c) ∈ m.tokens := by
    rw [leaves.tokens] at present
    exact (List.mem_append.mp present).imp none List.mem_of_mem_erase
  cases turn with
  | renewed _ _ _ contexts leaves =>
    exact later.elim (fun after => .inl (contexts ▸ after)) (kept _ leaves (by simp))
  | joined _ _ _ _ _ _ contexts leaves =>
    exact later.elim (fun after => .inl (contexts ▸ after)) (kept _ leaves (by split <;> simp))
  | created _ _ _ contexts leaves =>
    refine later.elim (fun after => .inl (by omega)) (kept _ leaves ?_)
    rintro member
    have same : c = m.world.contexts := by simpa using member
    exact same.ge
  | went new _ _ _ contexts follows leaves =>
    exact later.elim (fun after => .inl (contexts ▸ after))
      (kept _ leaves fun member => (follows _ member).elim)

theorem Leaves.runs (leaves : Leaves m token m' new) (context : Nat) :
    runsOf m'.log context = runsOf m.log context ++ if token.context = context then token.ran else [] := by
  obtain ⟨created,log,only⟩ := leaves.log
  have none : runsOf created context = [] := by
    refine List.filterMap_eq_nil_iff.mpr fun event member => ?_
    obtain ⟨c,successor,rfl⟩ := only event member
    rfl
  have split : runsOf m'.log context = runsOf (m.log ++ [.performed token]) context ++ runsOf created context := by
    rw [log,List.append_cons,runsOf,List.filterMap_append]
    rfl
  rw [split,none,List.append_nil]
  split
  · rename_i here
    exact runsOf_take m.log token here
  · rename_i other
    rw [List.append_nil]
    refine runsOf_append m.log _ context fun event member => ?_
    rw [List.mem_singleton.mp member]
    exact other

theorem Leaves.resumptions (leaves : Leaves m token m' new) (context : Nat) (mod : Module) :
    resumptions m'.log context mod = ForkJoin.resumptions (m.log ++ [.performed token]) context mod :=
  leaves.countP _ fun _ _ => rfl

end Turns

end Zerver.ForkJoin

namespace Zerver.ServerTcp

open Zerver.Asio
open Zerver.Fsm
open Zerver.ForkJoin
open Zerver.Schedule

/-- `isTcp` holds of the objects of classes derived from TcpModule. Each of them has a pool,
which it may share with others; `object` is the one at an address. -/
structure Config where
  machine : ForkJoin.Config
  tcp : Nat → TcpModule.Config
  isTcp : Module → Bool
  clientPool : Module → Nat
  object : Nat → Module

/-- The TcpModules are grouped by their pools. -/
structure State where
  server : Server.State
  tcp : Nat → TcpModule.State

def initial (fsm : Fsm) (joins : Nat → String → JoinData) (maxTimes : Nat → Int32) (checkTime : Nat → Int) : State :=
  ⟨Server.initial fsm joins,fun pool => TcpModule.initial (maxTimes pool) (checkTime pool)⟩

/-- `exit` says whether a virtual function that the module calls makes its context exit. -/
inductive Action where
  | accepted (error : ErrorCode)
  | turn (turn : Token × Choice)
  | run (mod : Module) (context : Nat) (lastModState : ModState) (args : TcpModule.RunArgs) (exit : Bool)
  | tcp (pool : Nat) (action : TcpModule.Action) (exit : Bool)

/-- The Fsm goes on, whether a token for it is there or not. -/
def perform (cfg : Config) (choice : Choice) (token : Token) (server : Server.State) : Server.State :=
  { server with machine := (server.machine.take token).perform cfg.machine choice token }

/-- `_run` goes by what `TcpModule::run` returns. -/
def onReturned (cfg : Config) (exit : Bool) (token : Token) (server : Server.State) :
    TcpModule.Event → Server.State
  | .returned _ state => perform cfg ⟨state,state == modAsync,exit⟩ token server
  | _ => server

/-- The call of `resume` in a completion handler. -/
def onResumed (cfg : Config) (exit : Bool) (server : Server.State) : TcpModule.Event → Server.State
  | .resumed attempt state =>
    perform cfg ⟨state,false,exit⟩ (.pending (cfg.object attempt.slot.module) attempt.slot.context) server
  | _ => server

def added (before after : TcpModule.State) : List TcpModule.Event := after.log.drop before.log.length

def called (cfg : Config) (mod : Module) (context : Nat) (lastModState : ModState) (args : TcpModule.RunArgs)
    (exit : Bool) (s : State) : State :=
  let before := s.tcp (cfg.clientPool mod)
  let after := TcpModule.run ⟨context,mod.id⟩ args before
  ⟨(added before after).foldl (onReturned cfg exit (.calling (.run mod context lastModState))) s.server,
    Function.update s.tcp (cfg.clientPool mod) after⟩

def handled (cfg : Config) (pool : Nat) (action : TcpModule.Action) (exit : Bool) (s : State) : State :=
  let after := TcpModule.step (cfg.tcp pool) (s.tcp pool) action
  ⟨(added (s.tcp pool) after).foldl (onResumed cfg exit) s.server,Function.update s.tcp pool after⟩

/-- `TcpModule::ModuleData::reset`: the pointer to the client is dropped. -/
def resetData (slot : Slot) (tcp : TcpModule.State) : TcpModule.State :=
  let heap := ((tcp.data slot).client.map (TcpClientPool.release · ⟨tcp.clients,[]⟩)).getD ⟨tcp.clients,[]⟩
  (tcp.commit (.slot slot) heap).setData slot { tcp.data slot with client := none, socketEvent := .none }

/-- `FsmContext::reset` resets the data of every module of the context. -/
def resetContext (cfg : Config) (context : Nat) (fsm : Fsm) (tcp : Nat → TcpModule.State) : Nat → TcpModule.State :=
  (fsm.modMap.filterMap (·.2)).foldl (fun tcp mod =>
    let pool := cfg.clientPool mod
    if cfg.isTcp mod then Function.update tcp pool (resetData ⟨context,mod.id⟩ (tcp pool)) else tcp) tcp

def turned (cfg : Config) (turn : Token × Choice) (s : State) : State where
  server := Server.step cfg.machine s.server (.turn turn)
  tcp :=
    match turn.1 with
    | .calling (.handleRequest context) =>
      if turn.1 ∈ s.server.machine.tokens then resetContext cfg context s.server.machine.world.fsm s.tcp else s.tcp
    | _ => s.tcp

/-- A TcpModule runs by `run` and resumes by its handlers only. -/
def step (cfg : Config) (s : State) (a : Action) : State :=
  if s.server.machine.crashed then s
  else
    match a with
    | .accepted error => { s with server := Server.step cfg.machine s.server (.accepted error) }
    | .turn turn => if turn.1.holder.any cfg.isTcp then s else turned cfg turn s
    | .run mod context lastModState args exit =>
      if cfg.isTcp mod ∧ .calling (.run mod context lastModState) ∈ s.server.machine.tokens then
        called cfg mod context lastModState args exit s
      else s
    | .tcp _ (.on _ (.run _)) _ => s
    | .tcp pool action exit => handled cfg pool action exit s

/-- What an application owes its TcpModules: no two branches that run at once share one. -/
structure Fits (cfg : Config) (fsm : Fsm) (graphs : Nat → Graph) : Prop where
  nested : ∀ c, (graphs c).Nested cfg.machine fsm c
  apart : ∀ c, (graphs c).Apart fun mod mod' => mod = mod' ∧ cfg.isTcp mod
  kind : ∀ mod, cfg.isTcp mod → cfg.machine.kind mod = .sequential
  states : ∀ mod, cfg.isTcp mod → ∀ state ∈ [modSucceed,modFailed,modTimeout], cfg.machine.states mod state
  object : ∀ mod, cfg.isTcp mod → cfg.object mod.id = mod

/-- Both sides know of each other's waiting: a module is pending in a context exactly when
its `ModuleData` there has an operation outstanding. -/
structure Coupled (cfg : Config) (fsm : Fsm) (graphs : Nat → Graph) (stages : Nat → Server.Stage) (s : State) :
    Prop where
  server : Server.Sound cfg.machine fsm graphs stages s.server
  tcp : ∀ pool, TcpModule.Sound none (s.tcp pool)
  pending : ∀ mod context, cfg.isTcp mod → s.server.machine.tokens.count (.pending mod context) =
    if (s.tcp (cfg.clientPool mod)).ops ⟨context,mod.id⟩ = [] then 0 else 1
  busy : ∀ pool slot, (s.tcp pool).ops slot ≠ [] → cfg.isTcp (cfg.object slot.module) ∧
    cfg.clientPool (cfg.object slot.module) = pool ∧ (cfg.object slot.module).id = slot.module
  returns : ∀ mod context, cfg.isTcp mod → arrivals s.server.machine.log context mod =
    TcpModule.returnsOf (s.tcp (cfg.clientPool mod)).log ⟨context,mod.id⟩
  resumes : ∀ mod context, cfg.isTcp mod → resumptions s.server.machine.log context mod =
    TcpModule.resumesOf (s.tcp (cfg.clientPool mod)).log ⟨context,mod.id⟩
  untouched : ∀ pool slot, s.server.machine.world.contexts ≤ slot.context ∨
    .calling (.handleRequest slot.context) ∈ s.server.machine.tokens →
      (s.tcp pool).data slot = ⟨none,.none,.idle,0⟩

section Coupling

variable {cfg : Config} {fsm : Fsm} {graphs : Nat → Graph} {stages stages' : Nat → Server.Stage} {s : State}
  {server' : Server.State} {tcp' : TcpModule.State} {token : Token} {mod : Module} {context : Nat}

theorem Fits.slot_iff (fits : Fits cfg fsm graphs) (one : cfg.isTcp mod) (two : cfg.isTcp mod') :
    (⟨context,mod.id⟩ : Slot) = ⟨context',mod'.id⟩ ↔ mod = mod' ∧ context = context' := by
  constructor
  · intro same
    obtain ⟨rfl,ids⟩ := Slot.mk.inj same
    exact ⟨by rw [← fits.object mod one,← fits.object mod' two,ids],rfl⟩
  · rintro ⟨rfl,rfl⟩
    rfl

theorem started (sound : Server.Sound cfg.machine fsm graphs stages server) (member : token ∈ server.machine.tokens)
    (other : token ≠ .calling (.handleRequest token.context)) :
    ¬(server.machine.world.contexts ≤ token.context ∨
      .calling (.handleRequest token.context) ∈ server.machine.tokens) := by
  obtain ⟨k,inside,own,here,conn⟩ := sound.owner member
  rintro (unmade | renewing)
  · exact absurd (here ▸ (sound.newest k inside).1) (Nat.not_lt.mpr unmade)
  · obtain ⟨k',inside',own',here',conn'⟩ := sound.owner renewing
    obtain rfl : k = k' := conn.symm.trans conn'
    have standing := sound.standing k inside
    cases stage : stages k with
    | renewing c =>
      rw [stage] at own here
      rw [List.mem_singleton.mp own] at other
      exact other rfl
    | running c task =>
      rw [stage] at own' standing
      exact standing.holds.renewed own'
    | stopped c =>
      rw [stage] at own
      cases own

/-- When a TcpModule is run, its `ModuleData` is free. -/
theorem Coupled.idle (coupled : Coupled cfg fsm graphs stages s) (fits : Fits cfg fsm graphs) (tcp : cfg.isTcp mod)
    (member : .calling (.run mod context lastModState) ∈ s.server.machine.tokens) :
    (s.tcp (cfg.clientPool mod)).ops ⟨context,mod.id⟩ = [] := by
  by_contra busy
  have waiting : .pending mod context ∈ s.server.machine.tokens := by
    rw [← List.count_pos_iff,coupled.pending mod context tcp,if_neg busy]
    exact Nat.one_pos
  obtain ⟨k,inside,one,_,conn⟩ := coupled.server.owner member
  obtain ⟨k',_,two,_,conn'⟩ := coupled.server.owner waiting
  obtain rfl : k = k' := conn.symm.trans conn'
  have standing := coupled.server.standing k inside
  cases stage : stages k with
  | renewing c =>
    rw [stage] at two
    cases List.mem_singleton.mp two
  | running c task =>
    rw [stage] at one two standing
    have same := standing.holds.single (by simp) (standing.apart _ (fits.apart c)) ⟨rfl,tcp⟩ (fits.kind mod tcp)
      (fits.kind mod tcp) one two rfl rfl
    cases same
  | stopped c =>
    rw [stage] at one
    cases one

theorem Coupled.idle_ended (coupled : Coupled cfg fsm graphs stages s) (tcp : cfg.isTcp mod)
    (ended : ends s.server.machine.log context = 1) : (s.tcp (cfg.clientPool mod)).ops ⟨context,mod.id⟩ = [] := by
  by_contra busy
  have waiting := coupled.pending mod context tcp
  rw [if_neg busy] at waiting
  have member : .pending mod context ∈ s.server.machine.tokens := List.count_pos_iff.mp (waiting ▸ Nat.one_pos)
  exact coupled.server.nothing_left ended member rfl

/-- A step of the server in which none of the modules is run or resumes. -/
structure Unheard (own : Module → Bool) (server server' : Server.State) : Prop where
  pending : ∀ mod context, own mod →
    server'.machine.tokens.count (.pending mod context) = server.machine.tokens.count (.pending mod context)
  arrivals : ∀ mod context, own mod →
    arrivals server'.machine.log context mod = arrivals server.machine.log context mod
  resumptions : ∀ mod context, own mod →
    resumptions server'.machine.log context mod = resumptions server.machine.log context mod
  runs : ∀ context, (runsOf server'.machine.log context).filter (own ·.1) =
    (runsOf server.machine.log context).filter (own ·.1)
  renewing : ∀ c, server'.machine.world.contexts ≤ c ∨ .calling (.handleRequest c) ∈ server'.machine.tokens →
    server.machine.world.contexts ≤ c ∨ .calling (.handleRequest c) ∈ server.machine.tokens

theorem Unheard.refl (own : Module → Bool) (server : Server.State) : Unheard own server server :=
  ⟨fun _ _ _ => rfl,fun _ _ _ => rfl,fun _ _ _ => rfl,fun _ => rfl,fun _ => id⟩

theorem Coupled.unheard (coupled : Coupled cfg fsm graphs stages s)
    (sound : Server.Sound cfg.machine fsm graphs stages' server') (unheard : Unheard cfg.isTcp s.server server') :
    Coupled cfg fsm graphs stages' { s with server := server' } where
  server := sound
  tcp := coupled.tcp
  pending mod context tcp := (unheard.pending mod context tcp).trans (coupled.pending mod context tcp)
  busy := coupled.busy
  returns mod context tcp := (unheard.arrivals mod context tcp).trans (coupled.returns mod context tcp)
  resumes mod context tcp := (unheard.resumptions mod context tcp).trans (coupled.resumes mod context tcp)
  untouched pool slot later := coupled.untouched pool slot (unheard.renewing slot.context later)

theorem accepted_unheard (cfg : ForkJoin.Config) (own : Module → Bool) (server : Server.State) (error : ErrorCode) :
    Unheard own server (Server.step cfg server (.accepted error)) := by
  unfold Server.step
  dsimp only
  split
  · exact .refl own server
  · unfold Server.onAccepted
    dsimp only
    split
    · exact ⟨fun _ _ _ => rfl,fun _ _ _ => rfl,fun _ _ _ => rfl,fun _ => rfl,fun _ => id⟩
    · refine ⟨fun _ _ _ => by simp [Server.startAccept,Machine.add],fun _ _ _ => rfl,fun _ _ _ => rfl,fun _ => rfl,?_⟩
      intro c later
      simp only [Server.startAccept,Machine.add,List.cons_append,List.nil_append,List.mem_cons] at later
      rcases later with unmade | made | before
      · exact .inl (Nat.le_of_succ_le unmade)
      · obtain rfl : c = server.machine.world.contexts := by simpa using made
        exact .inl le_rfl
      · exact .inr before

theorem turn_unheard {startMod endMod : Module} {calls : List Setup} (cfg : ForkJoin.Config) (own : Module → Bool)
    (table : server'.machine.world.fsm = configure startMod endMod calls) (turn : Token × Choice)
    (other : turn.1.holder.any own = false) : Unheard own server' (Server.step cfg server' (.turn turn)) := by
  obtain ⟨token,choice⟩ := turn
  have unowned (mod : Module) (owned : own mod) : token.holder ≠ some mod := by
    intro holder
    simp [holder,owned] at other
  have machine : (Server.step cfg server' (.turn (token,choice))).machine =
    ForkJoin.step cfg server'.machine (token,choice) := rfl
  by_cases taken : server'.machine.crashed = false ∧ token ∈ server'.machine.tokens ∧ cfg.admits choice token
  · have performed : ForkJoin.step cfg server'.machine (token,choice) =
        (server'.machine.take token).perform cfg choice token := if_pos taken
    have extended : Extends (configure startMod endMod calls) server'.machine.world.fsm := by
      rw [table]
      exact .refl _
    obtain ⟨turn,_⟩ := perform_turn cfg extended choice token
    obtain ⟨new,leaves⟩ := turn.leaves
    refine ⟨?_,?_,?_,?_,?_⟩ <;> rw [machine,performed]
    · intro mod context tcp
      have kept : (server'.machine.take token).tokens.count (.pending mod context) =
          server'.machine.tokens.count (.pending mod context) :=
        List.count_erase_of_ne fun same => unowned mod tcp (by rw [← same]; rfl)
      rw [← kept]
      by_cases run : ∃ mod' c state, token = .calling (.run mod' c state)
      · obtain ⟨mod',c,state,rfl⟩ := run
        rw [run_pending]
        have apart : mod' ≠ mod := fun same => unowned mod tcp (by rw [← same]; rfl)
        simp [apart]
      · exact perform_pending _ _ _ _ _ _ fun mod' c state same => run ⟨mod',c,state,same⟩
    · intro mod context tcp
      rw [leaves.arrivals]
      exact arrivals_other _ _ _ _ fun state same => unowned mod tcp (by rw [same]; rfl)
    · intro mod context tcp
      rw [leaves.resumptions]
      exact resumptions_other _ _ _ _ fun same => unowned mod tcp (by rw [same]; rfl)
    · intro context
      have silent : token.ran.filter (own ·.1) = [] := by
        refine List.filter_eq_nil_iff.mpr fun run member owned => ?_
        cases token with
        | calling call =>
          cases call with
          | run mod c state =>
            obtain rfl := List.mem_singleton.mp member
            exact unowned mod owned rfl
          | _ => cases member
        | _ => cases member
      rw [leaves.runs,List.filter_append]
      split
      · rw [silent,List.append_nil]
      · rw [List.filter_nil,List.append_nil]
    · exact turn.renewing
  · have idle : ForkJoin.step cfg server'.machine (token,choice) = server'.machine := if_neg taken
    refine ⟨?_,?_,?_,?_,?_⟩ <;> rw [machine,idle]
    · exact fun _ _ _ => rfl
    · exact fun _ _ _ => rfl
    · exact fun _ _ _ => rfl
    · exact fun _ => rfl
    · exact fun _ => id

theorem resetData_made (tcp : TcpModule.State) (slot : Slot) (made : tcp.data slot = ⟨none,.none,.idle,0⟩) :
    resetData slot tcp = tcp := by
  have same : { tcp.data slot with client := none, socketEvent := .none } = tcp.data slot := by rw [made]
  have none : (tcp.data slot).client = none := by rw [made]
  rw [resetData,none,same]
  simp [TcpModule.State.commit,TcpModule.State.setData]

theorem resetContext_made (cfg : Config) (fsm : Fsm) (tcp : Nat → TcpModule.State)
    (made : ∀ pool mod, (tcp pool).data ⟨context,mod⟩ = ⟨none,.none,.idle,0⟩) :
    resetContext cfg context fsm tcp = tcp := by
  unfold resetContext
  induction fsm.modMap.filterMap (·.2) with
  | nil => rfl
  | cons mod rest ih =>
    rw [List.foldl_cons]
    dsimp only
    rw [resetData_made _ _ (made (cfg.clientPool mod) mod.id),Function.update_eq_self,ite_self,ih]

theorem Coupled.turned_tcp (coupled : Coupled cfg fsm graphs stages s) (turn : Token × Choice) :
    (turned cfg turn s).tcp = s.tcp := by
  unfold turned
  dsimp only
  split
  · rename_i context called
    split
    · rename_i present
      exact resetContext_made cfg _ _ fun pool mod => coupled.untouched pool ⟨context,mod⟩ (.inr (called ▸ present))
    · rfl
  · rfl

theorem perform_step {startMod endMod : Module} {calls : List Setup}
    (sound : Server.Sound cfg.machine (configure startMod endMod calls) graphs stages server')
    (member : token ∈ server'.machine.tokens) (admitted : cfg.machine.admits choice token)
    (other : ∀ c, token ≠ .calling (.endRequest c)) :
    perform cfg choice token server' = Server.step cfg.machine server' (.turn (token,choice)) ∧
      ∃ new, Turn cfg.machine (configure startMod endMod calls) server'.machine token
        (perform cfg choice token server').machine ∧
        Leaves server'.machine token (perform cfg choice token server').machine new := by
  have performed : ForkJoin.step cfg.machine server'.machine (token,choice) =
      (server'.machine.take token).perform cfg.machine choice token := if_pos ⟨sound.crashed,member,admitted⟩
  have extended : Extends (configure startMod endMod calls) server'.machine.world.fsm := by
    rw [sound.table]
    exact .refl _
  obtain ⟨turn,_⟩ := perform_turn cfg.machine extended choice token
  obtain ⟨new,leaves⟩ := turn.leaves
  refine ⟨?_,new,turn,leaves⟩
  rw [Server.step,Server.turned_kept,performed]
  · rfl
  · rw [performed]
    exact turn.contexts other

theorem Coupled.untouched_step (coupled : Coupled cfg fsm graphs stages s) (pool : Nat) (a : TcpModule.Action)
    (sequential : TcpModule.Sequential (s.tcp pool) a) (run : ∀ slot args, a = .on slot (.run args) → ¬(s.server.machine.world.contexts ≤ slot.context ∨
      .calling (.handleRequest slot.context) ∈ s.server.machine.tokens)) (pool' : Nat) (slot : Slot)
    (later : s.server.machine.world.contexts ≤ slot.context ∨
      .calling (.handleRequest slot.context) ∈ s.server.machine.tokens) :
    (Function.update s.tcp pool (TcpModule.step (cfg.tcp pool) (s.tcp pool) a) pool').data slot =
      ⟨none,.none,.idle,0⟩ := by
  by_cases here : pool' = pool
  · subst here
    rw [Function.update_self]
    exact (TcpModule.step_moves (cfg.tcp pool') (coupled.tcp pool') a sequential).untouched (coupled.tcp pool')
      (coupled.untouched pool' slot later) fun args same => run slot args same later
  · rw [Function.update_of_ne here]
    exact coupled.untouched pool' slot later

theorem Coupled.sound_step (coupled : Coupled cfg fsm graphs stages s) (pool : Nat) (a : TcpModule.Action)
    (sequential : TcpModule.Sequential (s.tcp pool) a) (pool' : Nat) :
    TcpModule.Sound none (Function.update s.tcp pool (TcpModule.step (cfg.tcp pool) (s.tcp pool) a) pool') := by
  by_cases here : pool' = pool
  · subst here
    rw [Function.update_self]
    exact TcpModule.step_sound (cfg.tcp pool') (s.tcp pool') a sequential (coupled.tcp pool')
  · rw [Function.update_of_ne here]
    exact coupled.tcp pool'

/-- What a step of the TcpModules of one pool leaves as it was. -/
theorem update_view (tcp : Nat → TcpModule.State) (view : TcpModule.State → α)
    (same : pool' = pool → view tcp' = view (tcp pool)) :
    view (Function.update tcp pool tcp' pool') = view (tcp pool') := by
  by_cases here : pool' = pool
  · rw [here,Function.update_self]
    exact same here
  · rw [Function.update_of_ne here]

theorem Coupled.silent (coupled : Coupled cfg fsm graphs stages s) (pool : Nat)
    (sound : ∀ pool', TcpModule.Sound none (Function.update s.tcp pool tcp' pool'))
    (log : tcp'.log = (s.tcp pool).log ++ events) (silent : ∀ event ∈ events, event.silent)
    (same : ∀ slot, tcp'.ops slot = [] ↔ (s.tcp pool).ops slot = [])
    (untouched : ∀ pool' slot, s.server.machine.world.contexts ≤ slot.context ∨
      .calling (.handleRequest slot.context) ∈ s.server.machine.tokens →
        (Function.update s.tcp pool tcp' pool').data slot = ⟨none,.none,.idle,0⟩) :
    Coupled cfg fsm graphs stages { s with tcp := Function.update s.tcp pool tcp' } := by
  have ops (pool' : Nat) (slot : Slot) :
      (Function.update s.tcp pool tcp' pool').ops slot = [] ↔ (s.tcp pool').ops slot = [] :=
    iff_of_eq (update_view s.tcp (fun tcp => tcp.ops slot = []) fun _ => propext (same slot))
  have returns (pool' : Nat) (slot : Slot) :
      TcpModule.returnsOf (Function.update s.tcp pool tcp' pool').log slot =
        TcpModule.returnsOf (s.tcp pool').log slot :=
    update_view s.tcp (TcpModule.returnsOf ·.log slot) fun _ => by
      simp [log,TcpModule.returnsOf_silent events silent]
  have resumes (pool' : Nat) (slot : Slot) :
      TcpModule.resumesOf (Function.update s.tcp pool tcp' pool').log slot =
        TcpModule.resumesOf (s.tcp pool').log slot :=
    update_view s.tcp (TcpModule.resumesOf ·.log slot) fun _ => by
      simp [log,TcpModule.resumesOf_silent events silent]
  refine ⟨coupled.server,sound,?_,?_,?_,?_,untouched⟩
  · intro mod context own
    simpa only [ops] using coupled.pending mod context own
  · exact fun pool' slot busy => coupled.busy pool' slot fun idle => busy ((ops pool' slot).mpr idle)
  · exact fun mod context own => (coupled.returns mod context own).trans (returns _ _).symm
  · exact fun mod context own => (coupled.resumes mod context own).trans (resumes _ _).symm

theorem added_append {tcp : TcpModule.State} (log : tcp'.log = tcp.log ++ events) : added tcp tcp' = events := by
  rw [added,log,List.drop_left]

theorem onReturned_silent (cfg : Config) (exit : Bool) (token : Token) (server : Server.State)
    (events : List TcpModule.Event) (silent : ∀ event ∈ events, event.silent) :
    events.foldl (onReturned cfg exit token) server = server := by
  induction events with
  | nil => rfl
  | cons event rest ih =>
    have quiet := silent event List.mem_cons_self
    have same : onReturned cfg exit token server event = server := by
      cases event with
      | returned attempt state => cases quiet
      | _ => rfl
    rw [List.foldl_cons,same]
    exact ih fun event member => silent event (List.mem_cons_of_mem _ member)

theorem onResumed_silent (cfg : Config) (exit : Bool) (server : Server.State)
    (events : List TcpModule.Event) (silent : ∀ event ∈ events, event.silent) :
    events.foldl (onResumed cfg exit) server = server := by
  induction events with
  | nil => rfl
  | cons event rest ih =>
    have quiet := silent event List.mem_cons_self
    have same : onResumed cfg exit server event = server := by
      cases event with
      | resumed attempt state => cases quiet
      | _ => rfl
    rw [List.foldl_cons,same]
    exact ih fun event member => silent event (List.mem_cons_of_mem _ member)

/-- The TcpModules of a pool make a run of their own, in which none of them is run on a
`ModuleData` that is busy. -/
def RunsAlone (cfg : TcpModule.Config) (tcp next : TcpModule.State) : Prop :=
  ∃ actions, Along (TcpModule.step cfg) TcpModule.Sequential tcp actions ∧
    next = execute (TcpModule.step cfg) tcp actions

theorem RunsAlone.refl (cfg : TcpModule.Config) (tcp : TcpModule.State) : RunsAlone cfg tcp tcp := ⟨[],trivial,rfl⟩

theorem RunsAlone.trans {cfg : TcpModule.Config} {tcp middle next : TcpModule.State} (first : RunsAlone cfg tcp middle)
    (later : RunsAlone cfg middle next) : RunsAlone cfg tcp next := by
  obtain ⟨actions,sequential,rfl⟩ := first
  obtain ⟨actions',sequential',rfl⟩ := later
  exact ⟨actions ++ actions',(along_append _ actions actions').mpr ⟨sequential,sequential'⟩,(execute_append ..).symm⟩

/-- Each side has made steps of its own. -/
structure Refines (cfg : Config) (s next : State) : Prop where
  server : ∃ actions, next.server = execute (Server.step cfg.machine) s.server actions
  tcp : ∀ pool, RunsAlone (cfg.tcp pool) (s.tcp pool) (next.tcp pool)

theorem Refines.refl (cfg : Config) (s : State) : Refines cfg s s := ⟨⟨[],rfl⟩,fun _ => .refl ..⟩

theorem Refines.trans (first : Refines cfg s middle) (later : Refines cfg middle next) : Refines cfg s next := by
  obtain ⟨⟨servers,server⟩,tcp⟩ := first
  obtain ⟨⟨servers',server'⟩,tcp'⟩ := later
  refine ⟨⟨servers ++ servers',?_⟩,fun pool => (tcp pool).trans (tcp' pool)⟩
  rw [execute_append,← server]
  exact server'

/-- A step: at most one of the server, in which a token of the kind has moved, and of the pools. -/
structure Steps (cfg : Config) (moved : Token × Choice → Prop) (s next : State) : Prop where
  server : next.server = s.server ∨ ∃ action, next.server = Server.step cfg.machine s.server action ∧
    ∀ turn, action = .turn turn → moved turn
  tcp : ∀ pool, RunsAlone (cfg.tcp pool) (s.tcp pool) (next.tcp pool)

theorem Steps.refines (steps : Steps cfg moved s next) : Refines cfg s next := by
  refine ⟨?_,steps.tcp⟩
  rcases steps.server with same | ⟨action,made,_⟩
  · exact ⟨[],same⟩
  · exact ⟨[action],made⟩

theorem Steps.stay (cfg : Config) (moved : Token × Choice → Prop) (s : State) : Steps cfg moved s s :=
  ⟨.inl rfl,fun _ => .refl ..⟩

theorem Steps.imp (steps : Steps cfg moved s next) (weaker : ∀ turn, moved turn → moved' turn) :
    Steps cfg moved' s next :=
  ⟨steps.server.imp_right fun ⟨action,made,held⟩ => ⟨action,made,fun turn same => weaker turn (held turn same)⟩,
    steps.tcp⟩

def ofTcp (cfg : Config) (turn : Token × Choice) : Prop := turn.1.holder.any cfg.isTcp = true

theorem refines_update (cfg : Config) (s : State) (pool : Nat) (a : TcpModule.Action)
    (sequential : TcpModule.Sequential (s.tcp pool) a) (pool' : Nat) :
    RunsAlone (cfg.tcp pool') (s.tcp pool')
      (Function.update s.tcp pool (TcpModule.step (cfg.tcp pool) (s.tcp pool) a) pool') := by
  by_cases here : pool' = pool
  · subst here
    exact ⟨[a],⟨sequential,trivial⟩,Function.update_self ..⟩
  · rw [Function.update_of_ne here]
    exact .refl ..

section Steps

variable {startMod endMod : Module} {calls : List Setup}

/-- `_run` on a TcpModule: it has failed at once, or it is pending with an operation. -/
theorem called_coupled (fits : Fits cfg (configure startMod endMod calls) graphs)
    (coupled : Coupled cfg (configure startMod endMod calls) graphs stages s) (own : cfg.isTcp mod)
    (member : .calling (.run mod context lastModState) ∈ s.server.machine.tokens) (args : TcpModule.RunArgs)
    (exit : Bool) :
    let next := called cfg mod context lastModState args exit s
    (∃ stages, Coupled cfg (configure startMod endMod calls) graphs stages next) ∧ Steps cfg (ofTcp cfg) s next := by
  intro next
  let pool := cfg.clientPool mod
  let slot : Slot := ⟨context,mod.id⟩
  let token : Token := .calling (.run mod context lastModState)
  have idle : (s.tcp pool).ops slot = [] := coupled.idle fits own member
  have ran : TcpModule.step (cfg.tcp pool) (s.tcp pool) (.on slot (.run args)) =
    TcpModule.run slot args (s.tcp pool) := rfl
  have sound := coupled.sound_step pool (.on slot (.run args)) idle
  have tcps := refines_update cfg s pool (.on slot (.run args)) idle
  have outcome := (TcpModule.step_moves (cfg.tcp pool) (coupled.tcp pool) (.on slot (.run args)) idle).outcome
  have untouched := coupled.untouched_step pool (.on slot (.run args)) idle (by
    rintro slot' args' same
    obtain ⟨rfl,_⟩ := TcpModule.Action.on.inj same
    exact started coupled.server member (by simp [Token.context,callContext]))
  rw [ran] at sound tcps outcome untouched
  cases outcome with
  | silent events log silent same =>
    have goes : next = { s with tcp := Function.update s.tcp pool (TcpModule.run slot args (s.tcp pool)) } := by
      change State.mk _ _ = _
      rw [added_append log,onReturned_silent cfg exit _ _ events silent]
    rw [goes]
    exact ⟨⟨stages,coupled.silent pool sound log silent same untouched⟩,.inl rfl,tcps⟩
  | returned attempt state here log _ states others =>
    let choice : Choice := ⟨state,state == modAsync,exit⟩
    have goes : next = ⟨perform cfg choice token s.server,
        Function.update s.tcp pool (TcpModule.run slot args (s.tcp pool))⟩ := by
      change State.mk _ _ = _
      rw [added_append log]
      rfl
    have admitted : cfg.machine.admits choice token := by
      rcases states with ⟨rfl,_⟩ | ⟨rfl,_⟩
      · simp [ForkJoin.Config.admits,token,choice]
      · have produced := fits.states mod own modFailed (by simp)
        simp [ForkJoin.Config.admits,token,choice,ForkJoin.Config.produces,fits.kind mod own,produced]
        decide
    obtain ⟨steps,new,turn,leaves⟩ := perform_step coupled.server member admitted (by simp)
    obtain ⟨stages',server⟩ := Server.turn_sound fits.nested (configure_configured startMod endMod calls).entries
      coupled.server (token,choice)
    rw [← steps] at server
    rw [goes]
    have held (turn : Token × Choice) (same : Server.Action.turn (token,choice) = .turn turn) : ofTcp cfg turn := by
      obtain rfl := Server.Action.turn.inj same
      exact own
    refine ⟨⟨stages',server,sound,?_,?_,?_,?_,?_⟩,.inr ⟨.turn (token,choice),steps,held⟩,tcps⟩
    · intro mod' context' own'
      have before := coupled.pending mod' context' own'
      have count := run_pending cfg.machine choice mod' context' mod context lastModState
        (s.server.machine.take token)
      have kept : (s.server.machine.take token).tokens.count (.pending mod' context') =
          s.server.machine.tokens.count (.pending mod' context') := List.count_erase_of_ne (by simp [token])
      dsimp only
      rw [show (perform cfg choice token s.server).machine.tokens.count (.pending mod' context') = _ from count,
        kept,before]
      by_cases same : mod = mod' ∧ context = context'
      · obtain ⟨rfl,rfl⟩ := same
        have now : (Function.update s.tcp pool (TcpModule.run slot args (s.tcp pool)) pool).ops slot =
            (TcpModule.run slot args (s.tcp pool)).ops slot := by rw [Function.update_self]
        rw [if_pos idle,now]
        rcases states with ⟨rfl,busy⟩ | ⟨rfl,free⟩
        · rw [if_neg busy]
          simp [fits.kind mod own,choice]
        · rw [if_pos free]
          have async : choice.async = false := rfl
          simp [async]
      · have apart : ⟨context',mod'.id⟩ ≠ slot := fun here => same ((fits.slot_iff own own').mp here.symm)
        have none : ¬(cfg.machine.kind mod = .sequential ∧ choice.async = true ∧ mod = mod' ∧ context = context') :=
          fun both => same both.2.2
        rw [update_view s.tcp (·.ops ⟨context',mod'.id⟩) fun _ => others _ apart,if_neg none]
        rfl
    · intro pool' slot' busy
      by_cases here : pool' = pool ∧ slot' = slot
      · obtain ⟨rfl,rfl⟩ := here
        change cfg.isTcp (cfg.object mod.id) ∧ cfg.clientPool (cfg.object mod.id) = pool ∧
          (cfg.object mod.id).id = mod.id
        rw [fits.object mod own]
        exact ⟨own,rfl,rfl⟩
      · refine coupled.busy pool' slot' ?_
        rwa [← update_view s.tcp (·.ops slot') fun same => others slot' fun equal => here ⟨same,equal⟩]
    · intro mod' context' own'
      dsimp only
      rw [leaves.arrivals]
      by_cases same : mod = mod' ∧ context = context'
      · obtain ⟨rfl,rfl⟩ := same
        rw [Function.update_self,log,TcpModule.returnsOf_append,TcpModule.returnsOf_returned,if_pos here,
          ← coupled.returns mod context own]
        exact arrivals_run ..
      · have apart : attempt.slot ≠ ⟨context',mod'.id⟩ := here ▸ fun equal => same ((fits.slot_iff own own').mp equal)
        rw [update_view s.tcp (TcpModule.returnsOf ·.log ⟨context',mod'.id⟩) fun _ => by simp [log,apart],
          ← coupled.returns mod' context' own']
        refine arrivals_other _ _ _ _ fun state taken => ?_
        obtain ⟨rfl,rfl,_⟩ := Call.run.inj (Token.calling.inj taken)
        exact same ⟨rfl,rfl⟩
    · intro mod' context' own'
      dsimp only
      rw [leaves.resumptions,update_view s.tcp (TcpModule.resumesOf ·.log ⟨context',mod'.id⟩) fun _ => by simp [log],
        resumptions_other _ _ _ _ (by simp)]
      exact coupled.resumes mod' context' own'
    · intro pool' slot' later
      exact untouched pool' slot' (turn.renewing slot'.context later)

/-- A handler that resumes finds its module pending; one that does not leaves the Fsm alone. -/
theorem handled_coupled (fits : Fits cfg (configure startMod endMod calls) graphs)
    (coupled : Coupled cfg (configure startMod endMod calls) graphs stages s) (pool : Nat) (a : TcpModule.Action)
    (other : ∀ slot args, a ≠ .on slot (.run args)) (exit : Bool) :
    let next := handled cfg pool a exit s
    (∃ stages, Coupled cfg (configure startMod endMod calls) graphs stages next) ∧ Steps cfg (ofTcp cfg) s next := by
  intro next
  have sequential := TcpModule.sequential_other (s.tcp pool) a other
  have sound := coupled.sound_step pool a sequential
  have tcps := refines_update cfg s pool a sequential
  have outcome := (TcpModule.step_moves (cfg.tcp pool) (coupled.tcp pool) a sequential).outcome
  have untouched := coupled.untouched_step pool a sequential fun slot args same => absurd same (other slot args)
  have goes : next = ⟨(added (s.tcp pool) (TcpModule.step (cfg.tcp pool) (s.tcp pool) a)).foldl
      (onResumed cfg exit) s.server,Function.update s.tcp pool (TcpModule.step (cfg.tcp pool) (s.tcp pool) a)⟩ := rfl
  cases outcome with
  | silent events log silent same =>
    rw [goes,added_append log,onResumed_silent cfg exit _ events silent]
    exact ⟨⟨stages,coupled.silent pool sound log silent same untouched⟩,.inl rfl,tcps⟩
  | @returned slot args attempt state => exact absurd rfl (other slot args)
  | @resumed slot replies events attempt state here log silent states busy free others =>
    obtain ⟨own,rfl,address⟩ := coupled.busy pool slot busy
    let mod := cfg.object slot.module
    let token : Token := .pending mod slot.context
    let choice : Choice := ⟨state,false,exit⟩
    have place : (⟨slot.context,mod.id⟩ : Slot) = slot := by rw [address]
    have waiting := coupled.pending mod slot.context own
    rw [place,if_neg busy] at waiting
    have member : token ∈ s.server.machine.tokens := by
      rw [← List.count_pos_iff,waiting]
      exact Nat.one_pos
    have admitted : cfg.machine.admits choice token := by
      have produced := fits.states mod own state (by simpa using states)
      have done : state ≠ modAsync := by rcases states with rfl | rfl | rfl <;> decide
      simp [ForkJoin.Config.admits,token,choice,ForkJoin.Config.produces,fits.kind mod own,produced,done]
    obtain ⟨steps,new,turn,leaves⟩ := perform_step coupled.server member admitted (by simp)
    obtain ⟨stages',server⟩ := Server.turn_sound fits.nested (configure_configured startMod endMod calls).entries
      coupled.server (token,choice)
    rw [← steps] at server
    have resumes : onResumed cfg exit s.server (.resumed attempt state) = perform cfg choice token s.server := by
      rw [onResumed,here]
    rw [goes,added_append log,List.foldl_append,onResumed_silent cfg exit _ events silent,List.foldl_cons,
      List.foldl_nil,resumes]
    have held (turn : Token × Choice) (same : Server.Action.turn (token,choice) = .turn turn) : ofTcp cfg turn := by
      obtain rfl := Server.Action.turn.inj same
      exact own
    refine ⟨⟨stages',server,sound,?_,?_,?_,?_,?_⟩,.inr ⟨.turn (token,choice),steps,held⟩,tcps⟩
    · intro mod' context' own'
      have before := coupled.pending mod' context' own'
      have count := perform_pending cfg.machine choice mod' context' (s.server.machine.take token) token (by simp [token])
      dsimp only
      rw [show (perform cfg choice token s.server).machine.tokens.count (.pending mod' context') = _ from count]
      by_cases same : mod = mod' ∧ slot.context = context'
      · obtain ⟨same,rfl⟩ := same
        rw [← same,place,if_pos (by rw [Function.update_self]; exact free)]
        have taken : (s.server.machine.take token).tokens.count token = s.server.machine.tokens.count token - 1 :=
          List.count_erase_self
        exact taken.trans (by rw [waiting])
      · have apart : ⟨context',mod'.id⟩ ≠ slot := by
          rw [← place]
          exact fun here => same ((fits.slot_iff own own').mp here.symm)
        have kept : (s.server.machine.take token).tokens.count (.pending mod' context') =
            s.server.machine.tokens.count (.pending mod' context') :=
          List.count_erase_of_ne fun equal => same ⟨(Token.pending.inj equal).1.symm,(Token.pending.inj equal).2.symm⟩
        rw [update_view s.tcp (·.ops ⟨context',mod'.id⟩) fun _ => others _ apart,kept,before]
    · intro pool' slot' busy'
      by_cases here : pool' = cfg.clientPool mod ∧ slot' = slot
      · obtain ⟨rfl,rfl⟩ := here
        exact ⟨own,rfl,address⟩
      · refine coupled.busy pool' slot' ?_
        rwa [← update_view s.tcp (·.ops slot') fun same => others slot' fun equal => here ⟨same,equal⟩]
    · intro mod' context' own'
      dsimp only
      rw [leaves.arrivals,update_view s.tcp (TcpModule.returnsOf ·.log ⟨context',mod'.id⟩)
        fun _ => by simp [log,TcpModule.returnsOf_silent events silent],arrivals_other _ _ _ _ (by simp [token])]
      exact coupled.returns mod' context' own'
    · intro mod' context' own'
      dsimp only
      rw [leaves.resumptions]
      by_cases same : mod = mod' ∧ slot.context = context'
      · obtain ⟨same,rfl⟩ := same
        have before := coupled.resumes mod slot.context own
        rw [place] at before
        rw [← same,place,Function.update_self,log,TcpModule.resumesOf_append,TcpModule.resumesOf_append,
          TcpModule.resumesOf_silent events silent,TcpModule.resumesOf_resumed,if_pos here,Nat.zero_add,← before]
        exact resumptions_pending ..
      · have apart : attempt.slot ≠ ⟨context',mod'.id⟩ := by
          rw [here,← place]
          exact fun equal => same ((fits.slot_iff own own').mp equal)
        rw [update_view s.tcp (TcpModule.resumesOf ·.log ⟨context',mod'.id⟩)
          fun _ => by simp [log,TcpModule.resumesOf_silent events silent,apart],← coupled.resumes mod' context' own']
        exact resumptions_other _ _ _ _ fun taken => same (Token.pending.inj taken)
    · intro pool' slot' later
      exact untouched pool' slot' (turn.renewing slot'.context later)

theorem step_coupled (fits : Fits cfg (configure startMod endMod calls) graphs)
    (coupled : Coupled cfg (configure startMod endMod calls) graphs stages s) (a : Action) :
    (∃ stages, Coupled cfg (configure startMod endMod calls) graphs stages (step cfg s a)) ∧
      Steps cfg (fun turn => a = .turn turn ∨ ofTcp cfg turn) s (step cfg s a) := by
  have complete := (configure_configured startMod endMod calls).entries
  have still : (∃ stages, Coupled cfg (configure startMod endMod calls) graphs stages s) ∧
      Steps cfg (fun turn => a = .turn turn ∨ ofTcp cfg turn) s s := ⟨⟨stages,coupled⟩,.stay ..⟩
  unfold step
  rw [if_neg (by simp [coupled.server.crashed])]
  cases a with
  | accepted error =>
    obtain ⟨stages',sound⟩ := Server.accepted_sound complete coupled.server error
    exact ⟨⟨stages',coupled.unheard sound (accepted_unheard cfg.machine cfg.isTcp s.server error)⟩,
      .inr ⟨.accepted error,rfl,by simp⟩,fun _ => .refl ..⟩
  | turn turn =>
    dsimp only
    split
    · exact still
    · rename_i other
      obtain ⟨stages',sound⟩ := Server.turn_sound fits.nested complete coupled.server turn
      have goes : turned cfg turn s = { s with server := Server.step cfg.machine s.server (.turn turn) } :=
        congrArg _ (coupled.turned_tcp turn)
      have unheard := turn_unheard cfg.machine cfg.isTcp coupled.server.table turn (Bool.eq_false_iff.mpr other)
      rw [goes]
      exact ⟨⟨stages',coupled.unheard sound unheard⟩,
        .inr ⟨.turn turn,rfl,fun _ same => .inl (congrArg _ (Server.Action.turn.inj same))⟩,fun _ => .refl ..⟩
  | run mod context lastModState args exit =>
    dsimp only
    split
    · rename_i taken
      obtain ⟨next,steps⟩ := called_coupled fits coupled taken.1 taken.2 args exit
      exact ⟨next,steps.imp fun _ => .inr⟩
    · exact still
  | tcp pool action exit =>
    have heard (action : TcpModule.Action) (other : ∀ slot args, action ≠ .on slot (.run args)) :
        (∃ stages, Coupled cfg (configure startMod endMod calls) graphs stages (handled cfg pool action exit s)) ∧
          Steps cfg (fun turn => Action.tcp pool action exit = .turn turn ∨ ofTcp cfg turn) s
            (handled cfg pool action exit s) := by
      obtain ⟨next,steps⟩ := handled_coupled fits coupled pool action other exit
      exact ⟨next,steps.imp fun _ => .inr⟩
    cases action with
    | on slot action =>
      cases action with
      | run args => exact still
      | _ => exact heard _ (by simp)
    | _ => exact heard _ (by simp)

theorem initial_coupled (cfg : Config) (fsm : Fsm) (graphs : Nat → Graph) (joins : Nat → String → JoinData)
    (maxTimes : Nat → Int32) (checkTime : Nat → Int) :
    Coupled cfg fsm graphs (fun _ => .stopped 0) (initial fsm joins maxTimes checkTime) where
  server := Server.initial_sound cfg.machine fsm graphs joins
  tcp pool := TcpModule.initial_sound (maxTimes pool) (checkTime pool)
  pending _ _ _ := rfl
  busy _ _ busy := absurd rfl busy
  returns _ _ _ := rfl
  resumes _ _ _ := rfl
  untouched _ _ _ := rfl

theorem execute_coupled (fits : Fits cfg (configure startMod endMod calls) graphs) (joins : Nat → String → JoinData)
    (maxTimes : Nat → Int32) (checkTime : Nat → Int) (schedule : List Action) :
    let start := initial (configure startMod endMod calls) joins maxTimes checkTime
    let s := execute (step cfg) start schedule
    (∃ stages, Coupled cfg (configure startMod endMod calls) graphs stages s) ∧ Refines cfg start s := by
  intro start
  refine execute_invariant (I := fun s =>
    (∃ stages, Coupled cfg (configure startMod endMod calls) graphs stages s) ∧ Refines cfg start s) ?_ ?_ schedule
  · rintro s a ⟨⟨stages,coupled⟩,refines⟩
    obtain ⟨next,steps⟩ := step_coupled fits coupled a
    exact ⟨next,refines.trans steps.refines⟩
  · exact ⟨⟨_,initial_coupled cfg _ graphs joins maxTimes checkTime⟩,.refl cfg start⟩

end Steps

end Coupling

/-- In every run of the server with its TcpModules, each side makes a run of its own: a
TcpModule is run on a free `ModuleData` only, and resumes only what is pending. No call and
no continuation is lost or made twice, and a request waits for a TcpModule exactly as long
as an operation is outstanding there. -/
theorem tcp_modules_served (cfg : Config) (startMod endMod : Module) (calls : List Setup) (graphs : Nat → Graph)
    (fits : Fits cfg (configure startMod endMod calls) graphs) (joins : Nat → String → JoinData)
    (maxTimes : Nat → Int32) (checkTime : Nat → Int) (schedule : List Action) :
    let start := initial (configure startMod endMod calls) joins maxTimes checkTime
    let s := execute (step cfg) start schedule
    let m := s.server.machine
    Refines cfg start s ∧ m.crashed = false ∧
    (∀ mod, cfg.isTcp mod → ∀ c, let tcp := s.tcp (cfg.clientPool mod)
      m.tokens.count (.pending mod c) = (if tcp.ops ⟨c,mod.id⟩ = [] then 0 else 1) ∧
      (∀ lastModState, .calling (.run mod c lastModState) ∈ m.tokens → tcp.ops ⟨c,mod.id⟩ = []) ∧
      arrivals m.log c mod = TcpModule.returnsOf tcp.log ⟨c,mod.id⟩ ∧
      resumptions m.log c mod = TcpModule.resumesOf tcp.log ⟨c,mod.id⟩) ∧
    ∀ c < m.world.contexts, ends m.log c = 1 ↔
      (∀ token ∈ m.tokens, token.context = c → ∃ mod, cfg.isTcp mod ∧ token = .pending mod c) ∧
        ∀ mod, cfg.isTcp mod → (s.tcp (cfg.clientPool mod)).ops ⟨c,mod.id⟩ = [] := by
  intro start s m
  obtain ⟨⟨stages,coupled⟩,refines⟩ := execute_coupled fits joins maxTimes checkTime schedule
  refine ⟨refines,coupled.server.crashed,?_,?_⟩
  · intro mod own c
    exact ⟨coupled.pending mod c own,fun lastModState => coupled.idle fits own,coupled.returns mod c own,
      coupled.resumes mod c own⟩
  · intro c known
    constructor
    · intro ended
      exact ⟨fun token member here => absurd here (coupled.server.nothing_left ended member),
        fun mod own => coupled.idle_ended own ended⟩
    · rintro ⟨waiting,idle⟩
      refine (coupled.server.finished known fun token member here => ?_).1
      obtain ⟨mod,own,rfl⟩ := waiting token member here
      have none := coupled.pending mod c own
      rw [if_pos (idle mod own),List.count_eq_zero] at none
      exact none member

def fetchMod : Module := ⟨1,"fetch_mod"⟩
def doneMod : Module := ⟨2,"done_mod"⟩

def exampleConfig : Config where
  machine := ⟨fun _ => .sequential,fun _ _ => 0,fun _ _ => 0,
    fun _ state => state == modSucceed || state == modFailed || state == modTimeout⟩
  tcp _ := ⟨fun _ => 1,fun _ _ => 1⟩
  isTcp mod := mod == fetchMod
  clientPool _ := 0
  object _ := fetchMod

def exampleCalls : List Setup :=
  [.addModule fetchMod,.addModule doneMod,.linkModule fetchMod doneMod modElse]

def exampleGraph : Graph := .visit fetchMod fun _ => .visit doneMod fun _ => .leave

theorem exampleGraph_fits :
    Fits exampleConfig (configure fetchMod doneMod exampleCalls) fun _ => exampleGraph where
  nested c := by
    refine ⟨rfl,⟨rfl,fun state produced => ⟨?_,rfl,fun _ _ => ⟨⟨rfl,rfl⟩,trivial⟩⟩⟩,fun _ _ _ _ => trivial⟩
    have route : (configure fetchMod doneMod exampleCalls).route fetchMod state = some doneMod := by
      simp only [ForkJoin.Config.produces,exampleConfig,Bool.and_eq_true,Bool.or_eq_true,beq_iff_eq] at produced
      rcases produced.1 with (rfl | rfl) | rfl <;> decide
    exact leads_of_route doneMod (by decide) route rfl
  apart _ _ _ := trivial
  kind _ _ := rfl
  states _ _ state member := by simpa [exampleConfig,or_assoc] using member
  object mod own := (beq_iff_eq.mp own).symm

def exampleArgs : TcpModule.RunArgs := ⟨0,fun _ => false,some ("10.0.0.1",80),none,[],0⟩

/-- The first exchange with a server, from the connect to the last byte of the answer. -/
def exchange (pool : Nat) (slot : Slot) : List Action :=
  let replies : TcpModule.Replies := ⟨[1],true,true,0⟩
  let done : TcpModule.Action := .on slot (.complete 0 .success)
  let handler : TcpModule.Action := .on slot (.handler 0 replies)
  [done,handler,done,handler,.answer 0 [2,3],.on slot (.transfer 0 1),done,handler,.on slot (.transfer 0 1),done,
    handler].map (.tcp pool · false)

def exampleSchedule : List Action :=
  let now : Choice := ⟨modSucceed,false,false⟩
  ([.accepted .success,.turn (.calling (.handleRequest 0),now),.run fetchMod 0 modStart exampleArgs false] : List Action) ++
  exchange 0 ⟨0,1⟩ ++
  [.turn (.calling (.run doneMod 0 modSucceed),now),.turn (.calling (.endRequest 0),now)]

theorem example_served_by_tcp :
    let s := execute (step exampleConfig) (initial (configure fetchMod doneMod exampleCalls) (fun _ _ => ⟨0,false⟩)
      (fun _ => 3) fun _ => 60) exampleSchedule
    TcpModule.resumesOf (s.tcp 0).log ⟨0,1⟩ = 1 ∧
      ∀ mod, exampleConfig.isTcp mod → (s.tcp 0).ops ⟨0,mod.id⟩ = [] := by
  intro s
  obtain ⟨_,_,each,ended⟩ := tcp_modules_served exampleConfig fetchMod doneMod exampleCalls (fun _ => exampleGraph)
    exampleGraph_fits (fun _ _ => ⟨0,false⟩) (fun _ => 3) (fun _ => 60) exampleSchedule
  have resumed : resumptions s.server.machine.log 0 fetchMod = 1 := by decide +kernel
  exact ⟨(each fetchMod rfl 0).2.2.2.symm.trans resumed,((ended 0 (by decide +kernel)).mp (by decide +kernel)).2⟩

end Zerver.ServerTcp
