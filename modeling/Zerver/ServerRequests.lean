import Zerver.DeadlineTimer
import Zerver.ForkJoinTaskSteps

/-! All connections of a server process: `start_accept` and `on_accepted` of
`framework/tcp_server.cc` over the state machine. The contexts of all connections share one
Fsm, and their handlers run in any order. -/
namespace Zerver.Server

open Zerver.Asio
open Zerver.Fsm
open Zerver.ForkJoin
open Zerver.Interleaving
open Zerver.Schedule

/-- `conns` is `conn_` of each context, and `accepting` the connection that the pending
`async_accept` is for. -/
structure State where
  machine : Machine
  conns : Nat → Nat
  accepting : Nat

/-- The first `start_accept` has been called. -/
def initial (fsm : Fsm) (joins : Nat → String → JoinData) : State :=
  ⟨⟨⟨fsm,fun _ => false,0⟩,joins,[],[],false⟩,fun _ => 0,0⟩

def startAccept (s : State) : State := { s with accepting := s.accepting + 1 }

/-- The error is not looked at: the context is made, and accepting goes on, whatever it is.
The call of `handle_request` is left to do. -/
def onAccepted (conn : Nat) (_error : ErrorCode) (s : State) : State :=
  let w := s.machine.world
  -- `init` calls `create_data` of every module in the table.
  if w.fsm.modMap.any (·.2.isNone) then { s with machine := s.machine.crash }
  else startAccept { s with
    machine := { s.machine with
      world := { w with contexts := w.contexts + 1, exits := Function.update w.exits w.contexts false } }.add
        [.calling (.handleRequest w.contexts)]
    conns := Function.update s.conns w.contexts conn }

/-- A context made by `_end_request` takes the connection over. -/
def turned (cfg : Config) (turn : Token × Choice) (s : State) : State :=
  let m := ForkJoin.step cfg s.machine turn
  { s with
    machine := m
    conns := if s.machine.world.contexts < m.world.contexts then
      Function.update s.conns s.machine.world.contexts (s.conns turn.1.context) else s.conns }

inductive Action where
  | accepted (error : ErrorCode)
  | turn (turn : Token × Choice)

def step (cfg : Config) (s : State) : Action → State
  | .accepted error => if s.machine.crashed then s else onAccepted s.accepting error s
  | .turn turn => turned cfg turn s

inductive Stage where
  | renewing (context : Nat)
  | running (context : Nat) (task : Task)
  | stopped (context : Nat)

namespace Stage

def context : Stage → Nat
  | renewing context => context
  | running context _ => context
  | stopped context => context

def tokens : Stage → List Token
  | renewing context => [.calling (.handleRequest context)]
  | running _ task => task.tokens
  | stopped _ => []

end Stage

section Invariant

variable (cfg : Config) (fsm : Fsm) (graphs : Nat → Graph)

/-- A request that is over has run what its graph says. -/
structure Over (log : List Event) (context : Nat) : Prop where
  ends : ends log context = 1
  executes : ∃ last, Executes cfg (graphs context) modStart (runsOf log context) last
  spent : performances log context ≤ 1 + (graphs context).cost

/-- Nothing of a request that is under way is lost: what it has run, followed by whatever
its tokens have left, is what its graph says. -/
structure Running (m : Machine) (context : Nat) (task : Task) : Prop where
  holds : task.Holds cfg fsm context (m.joins context) none
  waits : task.isArrived = false
  unended : ends m.log context = 0
  single : successors m.log context = 0
  apart : ∀ rival, (graphs context).Apart rival → task.Apart rival
  spent : performances m.log context + task.weight ≤ 1 + (graphs context).cost
  remains : ∀ trace out, task.Remains cfg context none trace out →
    ∃ last, Executes cfg (graphs context) modStart (runsOf m.log context ++ trace) last

def Standing (m : Machine) : Stage → Prop
  | .renewing context => record m.log context = []
  | .running context task => Running cfg fsm graphs m context task
  | .stopped context => m.world.exits context = true ∧ successors m.log context = 0 ∧
      Over cfg graphs m.log context

structure Past (m : Machine) (context : Nat) : Prop where
  done : Over cfg graphs m.log context
  created : successors m.log context = 1
  stays : m.world.exits context = false

/-- Each connection has one stage, and all that is left to do belongs to one of them. -/
structure Sound (stages : Nat → Stage) (s : State) : Prop where
  table : s.machine.world.fsm = fsm
  crashed : s.machine.crashed = false
  log : ∀ event ∈ s.machine.log, event.context < s.machine.world.contexts
  newest : ∀ k < s.accepting, (stages k).context < s.machine.world.contexts ∧ s.conns (stages k).context = k
  tokens : s.machine.tokens.Perm ((List.range s.accepting).flatMap fun k => (stages k).tokens)
  standing : ∀ k < s.accepting, Standing cfg fsm graphs s.machine (stages k)
  earlier : ∀ c < s.machine.world.contexts, s.conns c < s.accepting ∧ (c = (stages (s.conns c)).context ∨
    (c < (stages (s.conns c)).context ∧ Past cfg graphs s.machine c))

end Invariant

section Soundness

variable {cfg : Config} {fsm : Fsm} {graphs : Nat → Graph} {stages : Nat → Stage} {s : State} {m m' : Machine}
  {context : Nat}

/-- A step in one context, seen from the others. -/
structure Local (context : Nat) (m m' : Machine) : Prop where
  log : ∃ events, m'.log = m.log ++ events ∧ ∀ event ∈ events, event.context = context
  joins : ∀ c, c ≠ context → m'.joins c = m.joins c
  exits : ∀ c < m.world.contexts, c ≠ context → m'.world.exits c = m.world.exits c

section Elsewhere

variable (step : Local context m m') (other : c ≠ context)

include step other

theorem Local.record : record m'.log c = record m.log c := by
  obtain ⟨events,log,own⟩ := step.log
  rw [log]
  apply record_append
  intro event member
  rw [own event member]
  exact Ne.symm other

theorem Local.ends : ends m'.log c = ends m.log c := by
  rw [ends_record,step.record other,← ends_record]

theorem Local.successors : successors m'.log c = successors m.log c := by
  rw [successors_record,step.record other,← successors_record]

theorem Local.performances : performances m'.log c = performances m.log c := by
  rw [performances_record,step.record other,← performances_record]

theorem Local.runsOf : runsOf m'.log c = runsOf m.log c := by
  obtain ⟨events,log,own⟩ := step.log
  rw [log]
  apply runsOf_append
  intro event member
  rw [own event member]
  exact Ne.symm other

theorem Over.elsewhere (done : Over cfg graphs m.log c) : Over cfg graphs m'.log c := by
  refine ⟨(step.ends other).trans done.ends,?_,(step.performances other).trans_le done.spent⟩
  rw [step.runsOf other]
  exact done.executes

theorem Past.elsewhere (past : Past cfg graphs m c) (known : c < m.world.contexts) : Past cfg graphs m' c :=
  ⟨past.done.elsewhere step other,(step.successors other).trans past.created,
    (step.exits c known other).trans past.stays⟩

end Elsewhere

theorem Standing.elsewhere {stage : Stage} (standing : Standing cfg fsm graphs m stage) (step : Local context m m')
    (known : stage.context < m.world.contexts) (other : stage.context ≠ context) :
    Standing cfg fsm graphs m' stage := by
  cases stage with
  | renewing c => exact (step.record other).trans standing
  | running c task =>
    obtain ⟨holds,waits,unended,single,apart,spent,remains⟩ := standing
    refine ⟨?_,waits,(step.ends other).trans unended,(step.successors other).trans single,apart,?_,?_⟩
    · rw [step.joins c other]
      exact holds
    · rw [step.performances (c := c) other]
      exact spent
    · rw [step.runsOf (c := c) other]
      exact remains
  | stopped c =>
    obtain ⟨exits,single,done⟩ := standing
    exact ⟨(step.exits c known other).trans exits,(step.successors other).trans single,done.elsewhere step other⟩

theorem Standing.here {stage : Stage} (standing : Standing cfg fsm graphs m stage) (member : token ∈ stage.tokens) :
    token.context = stage.context := by
  cases stage with
  | renewing c =>
    obtain rfl := List.mem_singleton.mp member
    rfl
  | running c task => exact standing.holds.here member
  | stopped c => cases member

theorem Sound.owner (sound : Sound cfg fsm graphs stages s) (member : token ∈ s.machine.tokens) :
    ∃ k < s.accepting, token ∈ (stages k).tokens ∧ token.context = (stages k).context ∧ s.conns token.context = k := by
  have listed := sound.tokens.mem_iff.mp member
  simp only [List.mem_flatMap,List.mem_range] at listed
  obtain ⟨k,inside,member⟩ := listed
  have here := (sound.standing k inside).here member
  exact ⟨k,inside,member,here,here ▸ (sound.newest k inside).2⟩

theorem Sound.apart (sound : Sound cfg fsm graphs stages s) (one : j < s.accepting) (two : k < s.accepting)
    (other : j ≠ k) : (stages j).context ≠ (stages k).context := by
  intro same
  apply other
  rw [← (sound.newest j one).2,← (sound.newest k two).2,same]

theorem Sound.advance (sound : Sound cfg fsm graphs stages s) (stage : Stage) (token : Token) (inside : k < s.accepting)
    (member : token ∈ (stages k).tokens) (step : Local (stages k).context s.machine m')
    (table : m'.world.fsm = s.machine.world.fsm) (crashed : m'.crashed = s.machine.crashed)
    (contexts : m'.world.contexts = s.machine.world.contexts) (same : stage.context = (stages k).context)
    (tokens : ∃ added, m'.tokens = added ++ s.machine.tokens.erase token ∧
      stage.tokens.Perm (added ++ (stages k).tokens.erase token))
    (standing : Standing cfg fsm graphs m' stage) :
    Sound cfg fsm graphs (Function.update stages k stage) { s with machine := m' } := by
  have kept (j : Nat) : (Function.update stages k stage j).context = (stages j).context := by
    by_cases here : j = k
    · subst here
      rw [Function.update_self,same]
    · rw [Function.update_of_ne here]
  refine ⟨table.trans sound.table,crashed.trans sound.crashed,?_,?_,?_,?_,?_⟩
  · obtain ⟨events,log,own⟩ := step.log
    intro event present
    dsimp only at present ⊢
    rw [contexts]
    rw [log] at present
    rcases List.mem_append.mp present with old | new
    · exact sound.log event old
    · rw [own event new]
      exact (sound.newest k inside).1
  · intro j bound
    dsimp only
    rw [kept,contexts]
    exact sound.newest j bound
  · obtain ⟨added,tokens,perm⟩ := tokens
    obtain ⟨rest,split⟩ := items_update Stage.tokens stages inside
    have whole := (split stage).trans (perm.append_right rest)
    rw [List.append_assoc] at whole
    dsimp only
    rw [tokens]
    have erased := (sound.tokens.erase token).trans (items_erase token split member)
    exact (erased.append_left added).trans whole.symm
  · intro j bound
    by_cases here : j = k
    · subst here
      rw [Function.update_self]
      exact standing
    · rw [Function.update_of_ne here]
      exact (sound.standing j bound).elsewhere step (sound.newest j bound).1 (sound.apart bound inside here)
  · intro c known
    dsimp only at known ⊢
    rw [contexts] at known
    obtain ⟨conn,newest | ⟨before,past⟩⟩ := sound.earlier c known
    · exact ⟨conn,.inl (newest.trans (kept _).symm)⟩
    · refine ⟨conn,.inr ⟨before.trans_eq (kept _).symm,past.elsewhere step ?_ known⟩⟩
      intro here
      rw [here,(sound.newest k inside).2] at before
      exact Nat.lt_irrefl _ before

theorem Sound.succeed (sound : Sound cfg fsm graphs stages s) (token : Token) (inside : k < s.accepting)
    (member : token ∈ (stages k).tokens) (step : Local (stages k).context s.machine m')
    (table : m'.world.fsm = s.machine.world.fsm) (crashed : m'.crashed = s.machine.crashed)
    (contexts : m'.world.contexts = s.machine.world.contexts + 1)
    (alone : (stages k).tokens.erase token = [])
    (tokens : m'.tokens = .calling (.handleRequest s.machine.world.contexts) :: s.machine.tokens.erase token)
    (past : Past cfg graphs m' (stages k).context) :
    Sound cfg fsm graphs (Function.update stages k (.renewing s.machine.world.contexts))
      { s with machine := m', conns := Function.update s.conns s.machine.world.contexts k } := by
  obtain ⟨events,log,own⟩ := step.log
  have new (j : Nat) (here : j = k) :
      Function.update stages k (.renewing s.machine.world.contexts) j = .renewing s.machine.world.contexts := by
    subst here
    exact Function.update_self ..
  have old (event : Event) (present : event ∈ m'.log) : event.context < s.machine.world.contexts := by
    rw [log] at present
    rcases List.mem_append.mp present with before | after
    · exact sound.log event before
    · rw [own event after]
      exact (sound.newest k inside).1
  have kept (c : Nat) (known : c < s.machine.world.contexts) :
      Function.update s.conns s.machine.world.contexts k c = s.conns c :=
    Function.update_of_ne (Nat.ne_of_lt known) _ _
  refine ⟨table.trans sound.table,crashed.trans sound.crashed,?_,?_,?_,?_,?_⟩
  · intro event present
    dsimp only at present ⊢
    have := old event present
    omega
  · intro j bound
    dsimp only at bound ⊢
    by_cases here : j = k
    · rw [new j here,contexts]
      exact ⟨Nat.lt_succ_self _,by simp [Stage.context,here]⟩
    · obtain ⟨known,conn⟩ := sound.newest j bound
      rw [Function.update_of_ne here,contexts]
      exact ⟨Nat.lt_succ_of_lt known,(kept _ known).trans conn⟩
  · obtain ⟨rest,split⟩ := items_update Stage.tokens stages inside
    have erased := (sound.tokens.erase token).trans (items_erase token split member)
    rw [alone,List.nil_append] at erased
    dsimp only
    rw [tokens]
    exact (erased.cons _).trans (split (.renewing s.machine.world.contexts)).symm
  · intro j bound
    by_cases here : j = k
    · rw [new j here]
      apply record_nil
      intro event present
      have := old event present
      omega
    · rw [Function.update_of_ne here]
      exact (sound.standing j bound).elsewhere step (sound.newest j bound).1 (sound.apart bound inside here)
  · intro c known
    dsimp only at known ⊢
    rw [contexts] at known
    by_cases newest : c = s.machine.world.contexts
    · subst newest
      rw [Function.update_self,new k rfl]
      exact ⟨inside,.inl rfl⟩
    · have known : c < s.machine.world.contexts := by omega
      rw [kept c known]
      obtain ⟨conn,place⟩ := sound.earlier c known
      refine ⟨conn,?_⟩
      by_cases here : s.conns c = k
      · rw [new _ here]
        refine .inr ⟨known,?_⟩
        rw [here] at place
        rcases place with rfl | ⟨before,earlier⟩
        · exact past
        · exact earlier.elsewhere step (Nat.ne_of_lt before) known
      · rw [Function.update_of_ne here]
        refine place.imp_right fun earlier => ⟨earlier.1,earlier.2.elsewhere step ?_ known⟩
        rintro rfl
        exact here (sound.newest k inside).2

theorem turned_kept (cfg : Config) (turn : Token × Choice) (s : State)
    (same : (ForkJoin.step cfg s.machine turn).world.contexts = s.machine.world.contexts) :
    turned cfg turn s = { s with machine := ForkJoin.step cfg s.machine turn } := by
  simp [turned,same]

theorem runsOf_clean (clean : record m.log context = []) : runsOf m.log context = [] := by
  have others := List.filter_eq_nil_iff.mp clean
  exact runsOf_append [] m.log context fun event member => by simpa using others event member

theorem renew_sound (nested : ∀ c, (graphs c).Nested cfg fsm c) (sound : Sound cfg fsm graphs stages s)
    (inside : k < s.accepting) (stage : stages k = .renewing context) (choice : Choice) :
    let token := Token.calling (.handleRequest context)
    ∃ stages, Sound cfg fsm graphs stages
      { s with machine := (s.machine.take token).perform cfg choice token } := by
  intro token
  let m' := (s.machine.take token).perform cfg choice token
  have clean : record s.machine.log context = [] := by
    have standing := sound.standing k inside
    rwa [stage] at standing
  have log : m'.log = s.machine.log ++ [.performed token] := rfl
  have graph := nested context
  refine ⟨_,sound.advance (.running context (.live (.calling (.run fsm.startMod context modStart))
    (graphs context))) token inside ?_ ⟨⟨_,log,?_⟩,?_,?_⟩ rfl rfl rfl ?_ ⟨[_],rfl,?_⟩ ⟨?_,rfl,?_,?_,fun _ apart => apart,?_,?_⟩⟩
  · rw [stage]
    exact List.mem_singleton_self _
  · rw [stage]
    simp [token,Event.context,Token.context,callContext,Stage.context]
  · rw [stage]
    exact fun c other => Function.update_of_ne other _ _
  · rw [stage]
    exact fun c _ other => Function.update_of_ne other _ _
  · rw [stage]
    rfl
  · rw [stage]
    simp [Stage.tokens,Task.tokens,token,sound.table,Machine.take]
  · refine ⟨.entering graph.start,graph.linked,graph.once,fun join _ => ?_⟩
    simp [Machine.perform,Machine.handleRequest,World.handleRequest,Machine.follow,Machine.add,token,
      JoinData.reset]
  · rw [log,ends_other _ _ _ (by simp [token]),ends_record,clean]
    rfl
  · rw [log,successors,List.countP_append,← successors,successors_record,clean]
    rfl
  · have one := performances_take s.machine.log token
    have zero : performances s.machine.log context = 0 := by
      rw [performances_record,clean]
      rfl
    change performances m'.log context = performances s.machine.log context + 1 at one
    change performances m'.log context + (graphs context).cost ≤ _
    omega
  · rintro trace out ⟨runs,last,left,closes⟩
    obtain rfl : trace = runs := closes
    have here : token.context = context := rfl
    rw [log,runsOf_take _ _ here,runsOf_clean clean]
    cases left with
    | entering executes => exact ⟨last,executes⟩

theorem run_sound (sound : Sound cfg fsm graphs stages s) (inside : k < s.accepting)
    (stage : stages k = .running context task) (choice : Choice) (member : token ∈ task.tokens)
    (admitted : cfg.admits choice token) (further : token ≠ .calling (.endRequest context)) :
    let m' := (s.machine.take token).perform cfg choice token
    m'.world.contexts = s.machine.world.contexts ∧ ∃ stages, Sound cfg fsm graphs stages { s with machine := m' } := by
  intro m'
  have standing := sound.standing k inside
  rw [stage] at standing
  obtain ⟨holds,_,unended,single,apart,spent,remains⟩ := standing
  have here := holds.here member
  obtain ⟨task',advance⟩ := holds.step sound.table choice member admitted further (by simp)
  obtain ⟨stays,others,_,tokens,stands,_,_,parted,waits,lighter,behind⟩ := advance
  refine ⟨stays.contexts,_,sound.advance (.running context task') token inside ?_
    ⟨⟨_,stays.log,?_⟩,?_,?_⟩ stays.fsm stays.crashed stays.contexts ?_ ?_
    ⟨stands,waits,?_,?_,fun own whole => parted own (apart own whole),?_,?_⟩⟩
  · rwa [stage]
  · rw [stage]
    simpa [Event.context,Stage.context] using here
  · rw [stage]
    exact others
  · rw [stage]
    exact fun c _ other => stays.exits c other
  · rw [stage]
    rfl
  · rw [stage]
    exact tokens
  · rw [stays.log,ends_other _ _ _ further,unended]
  · rw [stays.log,successors,List.countP_append,← successors,single]
    rfl
  · have one := performances_take s.machine.log token
    rw [here] at one
    rw [stays.log,one]
    omega
  · intro trace out remaining
    obtain ⟨out',before,_⟩ := behind trace out remaining
    obtain ⟨last,executes⟩ := remains _ out' before
    rw [stays.log,runsOf_take _ _ here,List.append_assoc]
    exact ⟨last,executes⟩

theorem end_sound (complete : fsm.modMap.any (·.2.isNone) = false) (sound : Sound cfg fsm graphs stages s)
    (inside : k < s.accepting) (stage : stages k = .running context task) (choice : Choice)
    (member : .calling (.endRequest context) ∈ task.tokens) :
    let token := Token.calling (.endRequest context)
    let m' := (s.machine.take token).perform cfg choice token
    ∃ stages, Sound cfg fsm graphs stages { s with
      machine := m'
      conns := if s.machine.world.contexts < m'.world.contexts then
        Function.update s.conns s.machine.world.contexts (s.conns context) else s.conns } := by
  intro token m'
  have standing := sound.standing k inside
  have newest := sound.newest k inside
  rw [stage] at standing newest
  obtain ⟨holds,_,unended,single,_,spent,remains⟩ := standing
  obtain ⟨_,rfl⟩ := holds.ending member
  have here : (stages k).context = context := by rw [stage]; rfl
  have alone : (stages k).tokens.erase token = [] := by
    rw [stage]
    exact List.erase_cons_head ..
  have conn : s.conns context = k := newest.2
  have done (log : List Event) (logged : log = s.machine.log ++ [.performed token] ∨
      ∃ c, log = s.machine.log ++ [.performed token] ++ [.created context c]) : Over cfg graphs log context := by
    obtain ⟨last,executes⟩ := remains [] modSucceed ⟨[],modSucceed,.ending,rfl⟩
    have own : token.context = context := rfl
    have ran := runsOf_take s.machine.log token own
    have ended : ends (s.machine.log ++ [.performed token]) context = 1 := by
      simpa [ends,List.countP_append,token] using unended
    rw [List.append_nil] at executes
    have one : performances (s.machine.log ++ [.performed token]) context ≤ 1 + (graphs context).cost :=
      (performances_take s.machine.log token).trans_le spent
    rcases logged with rfl | ⟨c,rfl⟩
    · exact ⟨ended,⟨last,by rw [ran]; simpa [Token.ran,token] using executes⟩,one⟩
    · refine ⟨?_,⟨last,?_⟩,?_⟩
      · rw [ends,List.countP_append,← ends,ended]
        rfl
      · rw [runsOf,List.filterMap_append,← runsOf,ran]
        simpa [Token.ran,token] using executes
      · rw [performances,List.countP_append,← performances]
        exact one
  by_cases exit : s.machine.world.exits context
  · have goes : m' = s.machine.take token := by
      simp [m',token,Machine.perform,Machine.endRequest,World.endRequest,Machine.take,exit,Machine.follow]
    rw [goes,if_neg (by simp [Machine.take])]
    refine ⟨_,sound.advance (.stopped context) token inside ?_ ⟨⟨_,rfl,?_⟩,fun _ _ => rfl,
      fun _ _ _ => rfl⟩ rfl rfl rfl here.symm ⟨[],rfl,?_⟩ ⟨exit,?_,done _ (.inl rfl)⟩⟩
    · rwa [stage]
    · rw [here]
      simp [token,Event.context,Token.context,callContext]
    · rw [alone]
      exact List.Perm.refl _
    · change successors (s.machine.log ++ [.performed token]) context = 0
      rw [successors,List.countP_append,← successors,single]
      rfl
  · have goes : m' = { s.machine with
        world := { s.machine.world with
          contexts := s.machine.world.contexts + 1
          exits := Function.update s.machine.world.exits s.machine.world.contexts false }
        tokens := .calling (.handleRequest s.machine.world.contexts) :: s.machine.tokens.erase token
        log := s.machine.log ++ [.performed token] ++ [.created context s.machine.world.contexts] } := by
      simp [m',token,Machine.perform,Machine.endRequest,World.endRequest,Machine.take,exit,Machine.follow,
        Machine.add,sound.table,complete]
    rw [goes,if_pos (Nat.lt_succ_self _),conn]
    refine ⟨_,sound.succeed token inside ?_ ⟨⟨_,List.append_assoc ..,?_⟩,fun _ _ => rfl,?_⟩ rfl rfl rfl alone
      rfl ?_⟩
    · rwa [stage]
    · rw [here]
      simp [token,Event.context,Token.context,callContext]
    · exact fun c known _ => Function.update_of_ne (Nat.ne_of_lt known) _ _
    · rw [here]
      refine ⟨done _ (.inr ⟨_,rfl⟩),?_,?_⟩
      · simpa [successors,List.countP_append,token] using single
      · have known : context < s.machine.world.contexts := newest.1
        simpa [Function.update_of_ne (Nat.ne_of_lt known)] using exit

/-- A connection is accepted, or its accept has failed: it gets a context either way. -/
theorem accepted_sound (complete : fsm.modMap.any (·.2.isNone) = false) (sound : Sound cfg fsm graphs stages s)
    (error : ErrorCode) : ∃ stages, Sound cfg fsm graphs stages (step cfg s (.accepted error)) := by
  have fresh : Function.update stages s.accepting (.renewing s.machine.world.contexts) s.accepting =
      .renewing s.machine.world.contexts := Function.update_self ..
  have before (k : Nat) (inside : k < s.accepting) :
      Function.update stages s.accepting (.renewing s.machine.world.contexts) k = stages k :=
    Function.update_of_ne (Nat.ne_of_lt inside) _ _
  have conn (c : Nat) (known : c < s.machine.world.contexts) :
      Function.update s.conns s.machine.world.contexts s.accepting c = s.conns c :=
    Function.update_of_ne (Nat.ne_of_lt known) _ _
  have goes : step cfg s (.accepted error) = startAccept { s with
      machine := { s.machine with
        world := { s.machine.world with
          contexts := s.machine.world.contexts + 1
          exits := Function.update s.machine.world.exits s.machine.world.contexts false } }.add
            [.calling (.handleRequest s.machine.world.contexts)]
      conns := Function.update s.conns s.machine.world.contexts s.accepting } := by
    simp [step,sound.crashed,onAccepted,sound.table,complete]
  rw [goes]
  -- The other contexts see nothing of it.
  have quiet : Local s.machine.world.contexts s.machine { s.machine with
      world := { s.machine.world with
        contexts := s.machine.world.contexts + 1
        exits := Function.update s.machine.world.exits s.machine.world.contexts false }
      tokens := .calling (.handleRequest s.machine.world.contexts) :: s.machine.tokens } :=
    ⟨⟨[],by simp,by simp⟩,fun _ _ => rfl,fun c known _ => Function.update_of_ne (Nat.ne_of_lt known) _ _⟩
  refine ⟨Function.update stages s.accepting (.renewing s.machine.world.contexts),sound.table,sound.crashed,
    ?_,?_,?_,?_,?_⟩
  · intro event present
    exact Nat.lt_succ_of_lt (sound.log event present)
  · intro k inside
    by_cases newest : k = s.accepting
    · subst newest
      rw [fresh]
      exact ⟨Nat.lt_succ_self _,Function.update_self ..⟩
    · have inside : k < s.accepting := Nat.lt_of_le_of_ne (Nat.le_of_lt_succ inside) newest
      obtain ⟨known,own⟩ := sound.newest k inside
      rw [before k inside]
      exact ⟨Nat.lt_succ_of_lt known,(conn _ known).trans own⟩
  · have others : ((List.range s.accepting).flatMap fun k =>
        (Function.update stages s.accepting (.renewing s.machine.world.contexts) k).tokens) =
          (List.range s.accepting).flatMap fun k => (stages k).tokens := by
      apply List.flatMap_congr
      intro k member
      rw [before k (List.mem_range.mp member)]
    simp only [startAccept,Machine.add,List.singleton_append,List.range_succ,List.flatMap_append,
      List.flatMap_singleton,fresh,others]
    exact (sound.tokens.cons _).trans (List.perm_append_singleton _ _).symm
  · intro k inside
    by_cases newest : k = s.accepting
    · subst newest
      rw [fresh]
      apply record_nil
      intro event present
      exact Nat.ne_of_lt (sound.log event present)
    · have inside : k < s.accepting := Nat.lt_of_le_of_ne (Nat.le_of_lt_succ inside) newest
      rw [before k inside]
      have known := (sound.newest k inside).1
      exact (sound.standing k inside).elsewhere quiet known (Nat.ne_of_lt known)
  · intro c known
    by_cases newest : c = s.machine.world.contexts
    · subst newest
      simp only [startAccept,Function.update_self]
      exact ⟨Nat.lt_succ_self _,.inl rfl⟩
    · have known : c < s.machine.world.contexts := Nat.lt_of_le_of_ne (Nat.le_of_lt_succ known) newest
      obtain ⟨inside,place⟩ := sound.earlier c known
      simp only [startAccept,conn c known,before _ inside]
      exact ⟨Nat.lt_succ_of_lt inside,place.imp_right fun earlier =>
        ⟨earlier.1,earlier.2.elsewhere quiet newest known⟩⟩

theorem turn_sound (nested : ∀ c, (graphs c).Nested cfg fsm c) (complete : fsm.modMap.any (·.2.isNone) = false)
    (sound : Sound cfg fsm graphs stages s) (turn : Token × Choice) :
    ∃ stages, Sound cfg fsm graphs stages (step cfg s (.turn turn)) := by
  obtain ⟨token,choice⟩ := turn
  by_cases taken : s.machine.crashed = false ∧ token ∈ s.machine.tokens ∧ cfg.admits choice token
  · have performed : ForkJoin.step cfg s.machine (token,choice) = (s.machine.take token).perform cfg choice token :=
      if_pos taken
    obtain ⟨_,member,admitted⟩ := taken
    obtain ⟨k,inside,own,here,_⟩ := sound.owner member
    cases stage : stages k with
    | renewing c =>
      rw [stage] at own
      obtain rfl := List.mem_singleton.mp own
      have stays := renew_sound nested sound inside stage choice
      rw [step,turned_kept _ _ _ (by rw [performed]; rfl),performed]
      exact stays
    | running c task =>
      rw [stage] at own here
      by_cases further : token = .calling (.endRequest c)
      · subst further
        have ended := end_sound complete sound inside stage choice own
        simp only [step,turned,performed]
        exact ended
      · obtain ⟨contexts,stays⟩ := run_sound sound inside stage choice own admitted further
        rw [step,turned_kept _ _ _ (by rw [performed]; exact contexts),performed]
        exact stays
    | stopped c =>
      rw [stage] at own
      cases own
  · have idle : ForkJoin.step cfg s.machine (token,choice) = s.machine := if_neg taken
    rw [step,turned_kept _ _ _ (by rw [idle]),idle]
    exact ⟨stages,sound⟩

theorem initial_sound (cfg : Config) (fsm : Fsm) (graphs : Nat → Graph) (joins : Nat → String → JoinData) :
    Sound cfg fsm graphs (fun _ => .stopped 0) (initial fsm joins) := by
  refine ⟨rfl,rfl,?_,?_,?_,?_,?_⟩ <;> simp [initial]

theorem execute_sound (nested : ∀ c, (graphs c).Nested cfg fsm c) (complete : fsm.modMap.any (·.2.isNone) = false)
    (joins : Nat → String → JoinData) (schedule : List Action) :
    ∃ stages, Sound cfg fsm graphs stages (execute (step cfg) (initial fsm joins) schedule) := by
  refine execute_invariant (I := fun s => ∃ stages, Sound cfg fsm graphs stages s) ?_
    ⟨_,initial_sound cfg fsm graphs joins⟩ schedule
  rintro s (error | turn) ⟨stages,sound⟩
  · exact accepted_sound complete sound error
  · exact turn_sound nested complete sound turn

theorem Sound.done (sound : Sound cfg fsm graphs stages s) (known : c < s.machine.world.contexts)
    (ended : ends s.machine.log c = 1) : Over cfg graphs s.machine.log c := by
  obtain ⟨inside,newest | ⟨_,past⟩⟩ := sound.earlier c known
  · have standing := sound.standing _ inside
    generalize stages (s.conns c) = stage at newest standing
    cases stage with
    | renewing d =>
      obtain rfl : c = d := newest
      have clean : record s.machine.log c = [] := standing
      rw [ends_record,clean] at ended
      cases ended
    | running d task =>
      obtain rfl : c = d := newest
      rw [standing.unended] at ended
      cases ended
    | stopped d =>
      obtain rfl : c = d := newest
      exact standing.2.2
  · exact past.done

theorem Sound.under_way (sound : Sound cfg fsm graphs stages s) (member : token ∈ s.machine.tokens)
    (reset : ∀ c, token ≠ .calling (.handleRequest c)) :
    ∃ task, token ∈ task.tokens ∧ Running cfg fsm graphs s.machine token.context task := by
  obtain ⟨k,inside,own,here,_⟩ := sound.owner member
  have standing := sound.standing k inside
  cases stage : stages k with
  | renewing c =>
    rw [stage] at own
    exact absurd (List.mem_singleton.mp own) (reset c)
  | running c task =>
    rw [stage] at own here standing
    obtain rfl : token.context = c := here
    exact ⟨task,own,standing⟩
  | stopped c =>
    rw [stage] at own
    cases own

theorem Sound.unended (sound : Sound cfg fsm graphs stages s) (member : token ∈ s.machine.tokens) :
    ends s.machine.log token.context = 0 ∧ successors s.machine.log token.context = 0 := by
  obtain ⟨k,inside,own,here,_⟩ := sound.owner member
  have standing := sound.standing k inside
  cases stage : stages k with
  | renewing c =>
    rw [stage] at standing here
    have clean : record s.machine.log token.context = [] := here ▸ standing
    rw [ends_record,successors_record,clean]
    exact ⟨rfl,rfl⟩
  | running c task =>
    rw [stage] at standing here
    rw [here]
    exact ⟨standing.unended,standing.single⟩
  | stopped c =>
    rw [stage] at own
    cases own

/-- What the log says of a context, whatever its stage. -/
structure Kept (graph : Graph) (m : Machine) (context : Nat) : Prop where
  ends : ends m.log context ≤ 1
  successors : successors m.log context ≤ 1
  exits : m.world.exits context = true → ForkJoin.successors m.log context = 0
  steps : performances m.log context ≤ 1 + graph.cost

theorem kept_clean (clean : record m.log context = []) : Kept graph m context where
  ends := by rw [ends_record,clean]; exact Nat.zero_le _
  successors := by rw [successors_record,clean]; exact Nat.zero_le _
  exits _ := by rw [successors_record,clean]; rfl
  steps := by rw [performances_record,clean]; exact Nat.zero_le _

theorem Standing.kept {stage : Stage} (standing : Standing cfg fsm graphs m stage) :
    Kept (graphs stage.context) m stage.context := by
  cases stage with
  | renewing c => exact kept_clean standing
  | running c task =>
    obtain ⟨_,_,unended,single,_,spent,_⟩ := standing
    exact ⟨unended.trans_le zero_le_one,single.trans_le zero_le_one,fun _ => single,
      (Nat.le_add_right _ _).trans spent⟩
  | stopped c =>
    obtain ⟨_,single,done⟩ := standing
    exact ⟨done.ends.le,single.trans_le zero_le_one,fun _ => single,done.spent⟩

theorem Sound.kept (sound : Sound cfg fsm graphs stages s) (c : Nat) : Kept (graphs c) s.machine c := by
  by_cases known : c < s.machine.world.contexts
  · obtain ⟨inside,newest | ⟨_,past⟩⟩ := sound.earlier c known
    · rw [newest]
      exact (sound.standing _ inside).kept
    · exact ⟨past.done.ends.le,past.created.le,fun exits => absurd exits (by simp [past.stays]),past.done.spent⟩
  · apply kept_clean
    apply record_nil
    intro event present
    have := sound.log event present
    omega

theorem Sound.nothing_left (sound : Sound cfg fsm graphs stages s) (ended : ends s.machine.log c = 1)
    (member : token ∈ s.machine.tokens) : token.context ≠ c := by
  rintro rfl
  rw [(sound.unended member).1] at ended
  cases ended

theorem Sound.finished (sound : Sound cfg fsm graphs stages s) (known : c < s.machine.world.contexts)
    (none : ∀ token ∈ s.machine.tokens, token.context ≠ c) :
    ends s.machine.log c = 1 ∧ successors s.machine.log c = if s.machine.world.exits c then 0 else 1 := by
  obtain ⟨inside,newest | ⟨_,past⟩⟩ := sound.earlier c known
  · have standing := sound.standing _ inside
    have all (token : Token) (own : token ∈ (stages (s.conns c)).tokens) : token ∈ s.machine.tokens := by
      rw [sound.tokens.mem_iff,List.mem_flatMap]
      exact ⟨_,List.mem_range.mpr inside,own⟩
    generalize stages (s.conns c) = stage at newest standing all
    cases stage with
    | renewing d =>
      obtain rfl : c = d := newest
      exact absurd rfl (none (.calling (.handleRequest c)) (all _ List.mem_cons_self))
    | running d task =>
      obtain rfl : c = d := newest
      obtain ⟨token,own⟩ := standing.holds.exists_token standing.waits
      exact absurd (standing.holds.here own) (none token (all token own))
    | stopped d =>
      obtain rfl : c = d := newest
      obtain ⟨exits,single,done⟩ := standing
      exact ⟨done.ends,by simp [exits,single]⟩
  · exact ⟨past.done.ends,by simp [past.stays,past.created]⟩

end Soundness

def isAccept : Action → Bool
  | .accepted _ => true
  | .turn _ => false

theorem step_accepting (sound : Sound cfg fsm graphs stages s) (complete : fsm.modMap.any (·.2.isNone) = false)
    (a : Action) : (step cfg s a).accepting = s.accepting + if isAccept a then 1 else 0 := by
  cases a with
  | accepted error => simp [step,sound.crashed,onAccepted,sound.table,complete,startAccept,isAccept]
  | turn turn => rfl

theorem execute_accepting {cfg : Config} {fsm : Fsm} {graphs : Nat → Graph}
    (nested : ∀ c, (graphs c).Nested cfg fsm c) (complete : fsm.modMap.any (·.2.isNone) = false)
    (joins : Nat → String → JoinData) (schedule : List Action) :
    (execute (step cfg) (initial fsm joins) schedule).accepting = schedule.countP isAccept := by
  induction schedule using List.reverseRecOn with
  | nil => rfl
  | append_singleton before a ih =>
    obtain ⟨stages,sound⟩ := execute_sound nested complete joins before
    rw [execute_append,execute_cons,execute_nil,step_accepting sound complete,ih,List.countP_append,
      List.countP_singleton]

/-- Every accept that completes, with success or not, starts the requests of one connection.
Its contexts follow one another: there is something left to do in the newest only, and a
context of which nothing is left has ended, with one successor or none after `exit()`. -/
theorem connections_served (cfg : Config) (startMod endMod : Module) (calls : List Setup) (graphs : Nat → Graph)
    (nested : ∀ c, (graphs c).Nested cfg (configure startMod endMod calls) c) (joins : Nat → String → JoinData)
    (schedule : List Action) :
    let s := execute (step cfg) (initial (configure startMod endMod calls) joins) schedule
    let m := s.machine
    m.crashed = false ∧ s.accepting = schedule.countP isAccept ∧
    (∀ k, k < s.accepting ↔ ∃ c < m.world.contexts, s.conns c = k) ∧
    (∀ one ∈ m.tokens, ∀ two ∈ m.tokens, s.conns one.context = s.conns two.context → one.context = two.context) ∧
    (∀ c d, c < d → d < m.world.contexts → s.conns c = s.conns d →
      ends m.log c = 1 ∧ ∀ token ∈ m.tokens, token.context ≠ c) ∧
    ∀ c < m.world.contexts, (∀ token ∈ m.tokens, token.context ≠ c) →
      ends m.log c = 1 ∧ successors m.log c = if m.world.exits c then 0 else 1 := by
  intro s m
  have complete := (configure_configured startMod endMod calls).entries
  obtain ⟨stages,sound⟩ := execute_sound nested complete joins schedule
  have newest (token : Token) (member : token ∈ m.tokens) :
      token.context = (stages (s.conns token.context)).context := by
    obtain ⟨k,_,_,here,conn⟩ := sound.owner member
    rw [conn]
    exact here
  refine ⟨sound.crashed,execute_accepting nested complete joins schedule,?_,?_,?_,fun c known none => sound.finished known none⟩
  · intro k
    constructor
    · intro inside
      exact ⟨_,sound.newest k inside⟩
    · rintro ⟨c,known,rfl⟩
      exact (sound.earlier c known).1
  · intro one first two second same
    rw [newest one first,newest two second,same]
  · intro c d before known same
    obtain ⟨_,place⟩ := sound.earlier d known
    have later : d ≤ (stages (s.conns c)).context := by
      rw [same]
      exact place.elim le_of_eq fun earlier => earlier.1.le
    have past : Past cfg graphs m c := by
      obtain ⟨_,last | ⟨_,past⟩⟩ := sound.earlier c (before.trans known)
      · exact absurd (later.trans last.symm.le) (Nat.not_le.mpr before)
      · exact past
    refine ⟨past.done.ends,?_⟩
    rintro token member rfl
    have here := newest token member
    exact absurd (later.trans here.symm.le) (Nat.not_le.mpr before)

/-- Two accepts, of which one has failed, and the whole first request of the other. -/
def exampleSchedule : List Action :=
  [.accepted .success,.accepted .failed] ++ exampleTurns.map .turn

theorem example_served :
    let s := execute (step exampleConfig) (initial (configure fsForkMod endMod exampleCalls) fun _ _ => ⟨65535,true⟩)
      exampleSchedule
    s.accepting = 2 ∧ s.conns 2 = 0 ∧ ends s.machine.log 0 = 1 ∧
      ∀ token ∈ s.machine.tokens, token.context ≠ 0 := by
  intro s
  obtain ⟨_,accepts,_,_,earlier,_⟩ := connections_served exampleConfig fsForkMod endMod exampleCalls
    (fun _ => exampleGraph) exampleGraph_nested (fun _ _ => ⟨65535,true⟩) exampleSchedule
  exact ⟨accepts.trans (by decide),by decide,earlier 0 2 (by decide) (by decide) (by decide)⟩

/-- Whatever the order in which the handlers of all connections run, a request that has
ended has made the runs of a structured execution of its graph, each join with the decision
on its own branches. -/
theorem requests_serialized (cfg : Config) (startMod endMod : Module) (calls : List Setup) (graphs : Nat → Graph)
    (nested : ∀ c, (graphs c).Nested cfg (configure startMod endMod calls) c) (joins : Nat → String → JoinData)
    (schedule : List Action) :
    let m := (execute (step cfg) (initial (configure startMod endMod calls) joins) schedule).machine
    ∀ c < m.world.contexts, ends m.log c = 1 →
      ∃ last, Executes cfg (graphs c) modStart (runsOf m.log c) last := by
  intro m c known ended
  have complete := (configure_configured startMod endMod calls).entries
  obtain ⟨stages,sound⟩ := execute_sound nested complete joins schedule
  exact (sound.done known ended).executes

theorem example_serialized :
    ∃ last, Executes exampleConfig exampleGraph modStart
      (runsOf (execute (step exampleConfig) (initial (configure fsForkMod endMod exampleCalls)
        fun _ _ => ⟨65535,true⟩) exampleSchedule).machine.log 0) last :=
  requests_serialized exampleConfig fsForkMod endMod exampleCalls (fun _ => exampleGraph) exampleGraph_nested
    (fun _ _ => ⟨65535,true⟩) exampleSchedule 0 (by decide) (by decide)

end Zerver.Server
