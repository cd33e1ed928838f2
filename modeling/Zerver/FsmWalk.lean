import Mathlib.Logic.Function.Iterate
import Zerver.Fsm

/-! Requests of one connection without forks. Control is in one call, or with one module
that has returned `Mod_async` and will resume once. The modules visited are those of the
walk of the transition graph, whichever modules finish synchronously. -/
namespace Zerver.FsmWalk

open Zerver.Fsm

structure Visit where
  context : Nat
  mod : Module
  lastModState : ModState
  deriving DecidableEq, Repr

/-- What a module does, given the visits so far, its own being the last: the state it
produces and whether it calls `exit()` before it has produced it. -/
structure Behaviour where
  produce : List Visit → ModState
  exits : List Visit → Bool
  finishes : ∀ visits, produce visits ≠ modAsync

inductive Control where
  | calling (call : Call)
  | waiting (mod : Module) (state : ModState) (context : Nat)
  | stopped
  | crashed
  deriving DecidableEq, Repr

structure Machine where
  world : World
  log : List Visit
  control : Control

def Machine.follow (m : Machine) (next : Outcome × World) : Machine where
  world := next.2
  log := m.log
  control :=
    match next.1 with
    | .call call => .calling call
    | .returned => .stopped
    | .crashed => .crashed

section Run

variable (b : Behaviour) (async : List Visit → Bool)

/-- `mod->run` and what `_run` makes of its result. -/
def enter (mod : Module) (context : Nat) (lastModState : ModState) (m : Machine) : Machine :=
  let log := m.log ++ [⟨context,mod,lastModState⟩]
  let world := if b.exits log then m.world.exit context else m.world
  if async log then
    ⟨(world.afterRun mod modAsync context).2,log,.waiting mod (b.produce log) context⟩
  else ({ m with log := log }).follow (world.afterRun mod (b.produce log) context)

def step (m : Machine) : Machine :=
  match m.control with
  | .calling (.handleRequest context) => m.follow (m.world.handleRequest context)
  | .calling (.run mod context lastModState) => enter b async mod context lastModState m
  | .calling (.resume lastMod state context) => m.follow (m.world.resume lastMod state context)
  | .calling (.endRequest context) => m.follow (m.world.endRequest context)
  | .waiting mod state context => { m with control := .calling (.resume mod state context) }
  | .stopped | .crashed => m

end Run

def start (fsm : Fsm) : Machine := ⟨⟨fsm,fun _ => false,1⟩,[],.calling (.handleRequest 0)⟩

def machine (fsm : Fsm) (b : Behaviour) (async : List Visit → Bool) (k : Nat) : Machine :=
  (step b async)^[k] (start fsm)

/-- A walk of the graph: the visits, and whether `exit()` was called in the current
context before the last of them. -/
structure Walk where
  visits : List Visit
  exit : Bool

section Walks

variable (fsm : Fsm) (b : Behaviour)

/-- The abstract behaviour: one more edge of the graph. A walk ends at `end_mod_` once
`exit()` has been called, and wherever the graph has no edge. -/
def next (w : Walk) : Option Walk :=
  match w.visits.getLast? with
  | none => none
  | some v =>
    let exit := w.exit || b.exits w.visits
    if v.mod = fsm.endMod then
      if exit then none else some ⟨w.visits ++ [⟨v.context + 1,fsm.startMod,modStart⟩],false⟩
    else
      (fsm.route v.mod (b.produce w.visits)).map fun mod =>
        ⟨w.visits ++ [⟨v.context,mod,b.produce w.visits⟩],exit⟩

def walk : Nat → Walk
  | 0 => ⟨[⟨0,fsm.startMod,modStart⟩],false⟩
  | n + 1 => (next fsm b (walk n)).getD (walk n)

/-- What the machine's world has to do with the walk. A null entry is left only where
`exit()` is set at once, so the next context never meets it. -/
structure Agrees (world : World) (context : Nat) (exit : Bool) : Prop where
  fsm : Extends fsm world.fsm
  exits : world.exits context = exit
  contexts : world.contexts = context + 1
  entries : exit = false → world.fsm.modMap.any (·.2.isNone) = false

/-- Where the machine is while the last visit of the walk is entered, running, over,
and followed by a fresh context. The rank falls until the next visit is entered. -/
inductive Phase : Nat → Machine → Walk → Prop where
  | entering (v : Visit) : m.control = .calling (.run v.mod v.context v.lastModState) →
      w.visits = m.log ++ [v] → Agrees fsm m.world v.context w.exit → Phase 5 m w
  | waiting (v : Visit) : m.control = .waiting v.mod (b.produce w.visits) v.context →
      w.visits = m.log → w.visits.getLast? = some v →
      Agrees fsm m.world v.context (w.exit || b.exits w.visits) → Phase 4 m w
  | resuming (v : Visit) : m.control = .calling (.resume v.mod (b.produce w.visits) v.context) →
      w.visits = m.log → w.visits.getLast? = some v →
      Agrees fsm m.world v.context (w.exit || b.exits w.visits) → Phase 3 m w
  | ending (context : Nat) (exit : Bool) : m.control = .calling (.endRequest context) →
      w.visits = m.log → Agrees fsm m.world context exit →
      next fsm b w = (if exit then none else
        some ⟨w.visits ++ [⟨context + 1,fsm.startMod,modStart⟩],false⟩) → Phase 2 m w
  | renewing (context : Nat) : m.control = .calling (.handleRequest context) → w.visits = m.log →
      Agrees fsm m.world context false →
      next fsm b w = some ⟨w.visits ++ [⟨context,fsm.startMod,modStart⟩],false⟩ → Phase 1 m w
  | stopped (context : Nat) : m.control = .stopped → w.visits = m.log →
      m.world.exits context = true → m.world.contexts = context + 1 → next fsm b w = none → Phase 0 m w

end Walks

theorem continue_phase (b : Behaviour) (m : Machine) (w : Walk) (v : Visit) (same : w.visits = m.log)
    (last : w.visits.getLast? = some v)
    (agrees : Agrees fsm m.world v.context (w.exit || b.exits w.visits)) :
    Phase fsm b 2 (m.follow (m.world.resume v.mod (b.produce w.visits) v.context)) w ∨
      ∃ w', next fsm b w = some w' ∧
        Phase fsm b 5 (m.follow (m.world.resume v.mod (b.produce w.visits) v.context)) w' := by
  have edge : next fsm b w = if v.mod = fsm.endMod then
      if (w.exit || b.exits w.visits) then none
      else some ⟨w.visits ++ [⟨v.context + 1,fsm.startMod,modStart⟩],false⟩
    else (fsm.route v.mod (b.produce w.visits)).map fun mod =>
      ⟨w.visits ++ [⟨v.context,mod,b.produce w.visits⟩],(w.exit || b.exits w.visits)⟩ := by
    simp [next,last]
  have continued := m.world.resume_continued v.mod (b.produce w.visits) v.context
  generalize m.world.resume v.mod (b.produce w.visits) v.context = outcome at continued ⊢
  cases continued with
  | atEnd atEnd =>
    rw [agrees.fsm.endMod] at atEnd
    rw [if_pos atEnd] at edge
    exact .inl (.ending v.context _ rfl same agrees edge)
  | linked inner route =>
    rename_i mod
    rw [agrees.fsm.endMod] at inner
    rw [agrees.fsm.route] at route
    rw [if_neg inner,route] at edge
    exact .inr ⟨_,edge,.entering ⟨v.context,mod,b.produce w.visits⟩ rfl (by rw [same]; rfl) agrees⟩
  | unlinked table inner route extended =>
    rw [agrees.fsm.endMod] at inner
    rw [agrees.fsm.route] at route
    rw [if_neg inner,route] at edge
    refine .inl (.ending v.context true rfl same ⟨agrees.fsm.trans extended,?_,agrees.contexts,by simp⟩ edge)
    simp [Machine.follow,World.exit]

theorem step_phase (async : List Visit → Bool) (phase : Phase fsm b rank m w) :
    (rank = 0 ∧ step b async m = m) ∨ (∃ lower < rank, Phase fsm b lower (step b async m) w) ∨
      ∃ w', next fsm b w = some w' ∧ Phase fsm b 5 (step b async m) w' := by
  cases phase with
  | entering v control visits agrees =>
    right
    have last : w.visits.getLast? = some v := by simp [visits]
    simp only [step,control,enter]
    rw [← visits]
    -- The visit may call `exit()`; nothing else of the world changes before it is halted.
    have entered : Agrees fsm (if b.exits w.visits then m.world.exit v.context else m.world) v.context
        (w.exit || b.exits w.visits) := by
      split
      · rename_i exits
        exact ⟨agrees.fsm,by simp [World.exit,exits],agrees.contexts,by simp [exits]⟩
      · rename_i stays
        simpa [stays] using agrees
    generalize (if b.exits w.visits then m.world.exit v.context else m.world) = world at entered ⊢
    split
    · exact .inl ⟨4,by omega,.waiting v rfl rfl last (by simpa [World.afterRun] using entered)⟩
    · rw [World.afterRun_eq_resume _ _ _ _ (b.finishes _)]
      have goes := continue_phase b ⟨world,w.visits,m.control⟩ w v rfl last entered
      exact goes.imp_left fun ending => ⟨2,by omega,ending⟩
  | waiting v control visits last agrees =>
    right
    left
    refine ⟨3,by omega,.resuming v ?_ ?_ last ?_⟩ <;> simp only [step,control]
    · exact visits
    · exact agrees
  | resuming v control visits last agrees =>
    right
    simp only [step,control]
    exact (continue_phase b m w v visits last agrees).imp_left fun ending => ⟨2,by omega,ending⟩
  | ending context exit control visits agrees edge =>
    right
    left
    simp only [step,control,World.endRequest,agrees.exits]
    cases exit with
    | true => exact ⟨0,by omega,.stopped context rfl visits agrees.exits agrees.contexts edge⟩
    | false =>
      rw [agrees.entries rfl,agrees.contexts]
      refine ⟨1,by omega,.renewing (context + 1) rfl visits ?_ edge⟩
      exact ⟨agrees.fsm,by simp [Machine.follow],rfl,fun _ => agrees.entries rfl⟩
  | renewing context control visits agrees edge =>
    right
    right
    simp only [step,control,World.handleRequest,agrees.fsm.startMod]
    refine ⟨_,edge,.entering ⟨context,fsm.startMod,modStart⟩ rfl (by rw [visits]; rfl) ?_⟩
    exact ⟨agrees.fsm,by simp [Machine.follow],agrees.contexts,agrees.entries⟩
  | stopped context control visits exits contexts edge =>
    left
    simp [step,control]

theorem machine_succ (fsm : Fsm) (b : Behaviour) (async : List Visit → Bool) (k : Nat) :
    machine fsm b async (k + 1) = step b async (machine fsm b async k) :=
  Function.iterate_succ_apply' _ _ _

theorem walk_of_next (edge : next fsm b (walk fsm b n) = some w) : walk fsm b (n + 1) = w := by
  simp [walk,edge]

theorem first_phase (startMod endMod : Module) (calls : List Setup) (b : Behaviour)
    (async : List Visit → Bool) :
    let fsm := configure startMod endMod calls
    Phase fsm b 5 (machine fsm b async 1) (walk fsm b 0) := by
  intro fsm
  have configured := configure_configured startMod endMod calls
  refine .entering ⟨0,fsm.startMod,modStart⟩ rfl rfl ⟨.refl fsm,rfl,rfl,fun _ => configured.entries⟩

/-- The machine is always at some visit of the walk. -/
theorem machine_phase (startMod endMod : Module) (calls : List Setup) (b : Behaviour)
    (async : List Visit → Bool) (k : Nat) :
    let fsm := configure startMod endMod calls
    ∃ rank n, Phase fsm b rank (machine fsm b async (k + 1)) (walk fsm b n) := by
  intro fsm
  induction k with
  | zero => exact ⟨5,0,first_phase startMod endMod calls b async⟩
  | succ k ih =>
    obtain ⟨rank,n,phase⟩ := ih
    rw [machine_succ]
    rcases step_phase async phase with ⟨_,same⟩ | ⟨lower,_,later⟩ | ⟨w,edge,later⟩
    · rw [same]
      exact ⟨rank,n,phase⟩
    · exact ⟨lower,n,later⟩
    · exact ⟨5,n + 1,walk_of_next edge ▸ later⟩

theorem Phase.advances (async : List Visit → Bool) (phase : Phase fsm b rank m w) :
    ∃ j, Phase fsm b 0 ((step b async)^[j] m) w ∨
      ∃ w', next fsm b w = some w' ∧ Phase fsm b 5 ((step b async)^[j] m) w' := by
  induction rank using Nat.strongRecOn generalizing m with
  | ind rank ih =>
    rcases step_phase async phase with ⟨rfl,_⟩ | ⟨lower,less,later⟩ | entered
    · exact ⟨0,.inl phase⟩
    · obtain ⟨j,reached⟩ := ih lower less later
      exact ⟨j + 1,reached⟩
    · exact ⟨1,.inr entered⟩

/-- Every visit of the walk is entered, unless the machine has stopped before. -/
theorem walk_reached (startMod endMod : Module) (calls : List Setup) (b : Behaviour)
    (async : List Visit → Bool) (n : Nat) :
    let fsm := configure startMod endMod calls
    ∃ k, Phase fsm b 0 (machine fsm b async k) (walk fsm b n) ∨
      Phase fsm b 5 (machine fsm b async k) (walk fsm b n) := by
  intro fsm
  induction n with
  | zero => exact ⟨1,.inr (first_phase startMod endMod calls b async)⟩
  | succ n ih =>
    have reach {rank : Nat} {k : Nat} (phase : Phase fsm b rank (machine fsm b async k) (walk fsm b n)) :
        ∃ k, Phase fsm b 0 (machine fsm b async k) (walk fsm b (n + 1)) ∨
          Phase fsm b 5 (machine fsm b async k) (walk fsm b (n + 1)) := by
      obtain ⟨j,reached⟩ := phase.advances async
      rw [machine,← Function.iterate_add_apply] at reached
      refine ⟨j + k,?_⟩
      rcases reached with halted | ⟨w,edge,entered⟩
      · cases halted with
        | stopped context control visits exits contexts edge =>
          left
          simp only [walk,edge,Option.getD_none]
          exact .stopped context control visits exits contexts edge
      · exact .inr (walk_of_next edge ▸ entered)
    obtain ⟨k,phase | phase⟩ := ih
    · exact reach phase
    · exact reach phase

theorem walk_shorter (log : List Visit) (v : Visit) (n : Nat) (visits : (walk fsm b n).visits = log ++ [v]) :
    log = [] ∨ ∃ n, log = (walk fsm b n).visits := by
  induction n with
  | zero =>
    left
    have lengths := congrArg List.length visits
    exact List.eq_nil_of_length_eq_zero (by simpa [walk] using lengths.symm)
  | succ n ih =>
    cases edge : next fsm b (walk fsm b n) with
    | none =>
      simp only [walk,edge,Option.getD_none] at visits
      exact ih visits
    | some w =>
      rw [walk_of_next edge] at visits
      have extended : ∃ v, w.visits = (walk fsm b n).visits ++ [v] := by
        simp only [next] at edge
        split at edge
        · simp at edge
        · split at edge
          · split at edge
            · simp at edge
            · obtain rfl := Option.some.inj edge
              exact ⟨_,rfl⟩
          · obtain ⟨mod,_,rfl⟩ := Option.map_eq_some_iff.mp edge
            exact ⟨_,rfl⟩
      obtain ⟨v',extended⟩ := extended
      rw [visits] at extended
      exact .inr ⟨n,(List.append_inj' extended rfl).1⟩

theorem Phase.log (phase : Phase fsm b rank m (walk fsm b n)) :
    m.log = [] ∨ ∃ n, m.log = (walk fsm b n).visits := by
  cases phase with
  | entering v control visits agrees => exact walk_shorter m.log v n visits
  | waiting v control visits last agrees => exact .inr ⟨n,visits.symm⟩
  | resuming v control visits last agrees => exact .inr ⟨n,visits.symm⟩
  | ending context exit control visits agrees edge => exact .inr ⟨n,visits.symm⟩
  | renewing context control visits agrees edge => exact .inr ⟨n,visits.symm⟩
  | stopped context control visits exits contexts edge => exact .inr ⟨n,visits.symm⟩

theorem Phase.logged (async : List Visit → Bool) (phase : Phase fsm b 5 m w) :
    (step b async m).log = w.visits := by
  cases phase with
  | entering v control visits agrees =>
    simp only [step,control,enter]
    split <;> exact visits.symm

theorem machine_log (startMod endMod : Module) (calls : List Setup) (b : Behaviour)
    (async : List Visit → Bool) (k : Nat) :
    let fsm := configure startMod endMod calls
    (machine fsm b async k).log = [] ∨ ∃ n, (machine fsm b async k).log = (walk fsm b n).visits := by
  intro fsm
  cases k with
  | zero => exact .inl rfl
  | succ k =>
    obtain ⟨rank,n,phase⟩ := machine_phase startMod endMod calls b async k
    exact phase.log

theorem walk_logged (startMod endMod : Module) (calls : List Setup) (b : Behaviour)
    (async : List Visit → Bool) (n : Nat) :
    let fsm := configure startMod endMod calls
    ∃ k, (machine fsm b async k).log = (walk fsm b n).visits := by
  intro fsm
  obtain ⟨k,halted | entering⟩ := walk_reached startMod endMod calls b async n
  · cases halted with
    | stopped context control visits exits contexts edge => exact ⟨k,visits.symm⟩
  · refine ⟨k + 1,?_⟩
    rw [machine_succ]
    exact entering.logged async

/-- The modules a connection runs, with the states they are given, are the walk of the
graph from `start_mod_`, for every choice of synchronous and asynchronous modules. It
never meets a null module, and it stops exactly where the walk does, with `exit()` set. -/
theorem execution_is_walk (startMod endMod : Module) (calls : List Setup) (b : Behaviour)
    (async : List Visit → Bool) :
    let fsm := configure startMod endMod calls
    (∀ k, (machine fsm b async k).log = [] ∨ ∃ n, (machine fsm b async k).log = (walk fsm b n).visits) ∧
    (∀ n, ∃ k, (machine fsm b async k).log = (walk fsm b n).visits) ∧
    (∀ async' k, ∃ k', (machine fsm b async' k').log = (machine fsm b async k).log) ∧
    (∀ k, (machine fsm b async k).control ≠ .crashed) ∧
    (∀ k, (machine fsm b async k).control = .stopped →
      machine fsm b async (k + 1) = machine fsm b async k ∧
      ∃ n, (machine fsm b async k).log = (walk fsm b n).visits ∧ next fsm b (walk fsm b n) = none ∧
        ∃ context, (machine fsm b async k).world.contexts = context + 1 ∧
          (machine fsm b async k).world.exits context = true) ∧
    (∀ n, next fsm b (walk fsm b n) = none → ∃ k, (machine fsm b async k).control = .stopped ∧
      (machine fsm b async k).log = (walk fsm b n).visits) := by
  intro fsm
  have logs := machine_log startMod endMod calls b async
  refine ⟨logs,walk_logged startMod endMod calls b async,?_,?_,?_,?_⟩
  · intro async' k
    rcases logs k with none | ⟨n,same⟩
    · exact ⟨0,by rw [none]; rfl⟩
    · obtain ⟨k',reached⟩ := walk_logged startMod endMod calls b async' n
      exact ⟨k',reached.trans same.symm⟩
  · intro k
    cases k with
    | zero => simp [machine,start]
    | succ k =>
      obtain ⟨rank,n,phase⟩ := machine_phase startMod endMod calls b async k
      cases phase <;> simp_all [fsm]
  · intro k halted
    refine ⟨by rw [machine_succ]; simp [step,halted],?_⟩
    cases k with
    | zero => simp [machine,start] at halted
    | succ k =>
      obtain ⟨rank,n,phase⟩ := machine_phase startMod endMod calls b async k
      cases phase with
      | stopped context control visits exits contexts edge =>
        exact ⟨n,visits.symm,edge,context,contexts,exits⟩
      | _ => simp_all [fsm]
  · intro n edge
    obtain ⟨k,halted | entering⟩ := walk_reached startMod endMod calls b async n
    · cases halted with
      | stopped context control visits exits contexts edge => exact ⟨k,control,visits.symm⟩
    · obtain ⟨j,halted | ⟨w,later,_⟩⟩ := entering.advances async
      · rw [machine,← Function.iterate_add_apply] at halted
        cases halted with
        | stopped context control visits exits contexts edge => exact ⟨j + k,control,visits.symm⟩
      · exact absurd (edge.symm.trans later) (by simp)

end Zerver.FsmWalk
