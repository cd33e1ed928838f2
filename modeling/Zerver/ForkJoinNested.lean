import Zerver.ForkJoinTraversals
import Zerver.ServerRequests

/-! Requests over properly nested graphs, along whole runs of a connection: no request is
lost or duplicated between forks and joins. A connection is a server that has accepted
once; how often a join resumes is known in any graph. -/
namespace Zerver.ForkJoin

open Zerver.Fsm
open Zerver.Schedule

section Connection

variable {cfg : Config} {fsm : Fsm} {graphs : Nat → Graph} {startMod endMod : Module} {calls : List Setup}
  {m : Machine} {context : Nat} {join : Module}

/-- The first connection that a server accepts, with no other beside it. -/
theorem accepted_start (cfg : Config) (complete : fsm.modMap.any (·.2.isNone) = false)
    (joins : Nat → String → JoinData) :
    (Server.step cfg (Server.initial fsm joins) (.accepted .success)).machine = start fsm joins := by
  simp [Server.step,Server.initial,Server.onAccepted,Server.startAccept,complete,Machine.add,start]

theorem turns_machine (cfg : Config) (s : Server.State) (turns : List (Token × Choice)) :
    (execute (Server.step cfg) s (turns.map .turn)).machine = execute (step cfg) s.machine turns := by
  induction turns generalizing s with
  | nil => rfl
  | cons turn rest ih => exact ih (Server.step cfg s (.turn turn))

theorem turns_accepting (turns : List (Token × Choice)) :
    (Server.Action.accepted .success :: turns.map .turn).countP Server.isAccept = 1 := by
  rw [List.countP_cons_of_pos rfl,List.countP_map]
  simp [Function.comp_def,Server.isAccept]

/-- The run of a connection is that of a server. -/
theorem execute_server (nested : ∀ c, (graphs c).Nested cfg fsm c) (complete : fsm.modMap.any (·.2.isNone) = false)
    (joins : Nat → String → JoinData) (turns : List (Token × Choice)) :
    ∃ stages s, Server.Sound cfg fsm graphs stages s ∧ s.machine = execute (step cfg) (start fsm joins) turns ∧
      s.accepting = 1 := by
  let schedule := Server.Action.accepted .success :: turns.map .turn
  obtain ⟨stages,sound⟩ := Server.execute_sound nested complete joins schedule
  refine ⟨stages,_,sound,?_,?_⟩
  · rw [execute_cons,turns_machine,accepted_start cfg complete]
  · exact (Server.execute_accepting nested complete joins schedule).trans (turns_accepting turns)

theorem Graph.Nested.start_kind {graph : Graph} (nested : graph.Nested cfg fsm context) :
    cfg.kind fsm.startMod ≠ .join := by
  obtain ⟨start,linked,_⟩ := nested
  intro kind
  cases graph with
  | leave => cases start
  | visit mod next =>
    rw [← Option.some.inj start] at kind
    have sequential := linked.1
    rw [kind] at sequential
    cases sequential
  | region fork join width branch next =>
    rw [← Option.some.inj start] at kind
    obtain ⟨⟨forkNum,forks,_⟩,_⟩ := linked
    rw [kind] at forks
    cases forks

/-- What the log says of a join. A join that the Fsm does not have is never entered. -/
structure Bounded (cfg : Config) (fsm : Fsm) (m : Machine) (context : Nat) (join : Module) : Prop where
  within : arrivals m.log context join ≤ (cfg.getActiveJoinNum context join).toNat
  absent : ¬ Registered fsm join → arrivals m.log context join = 0 ∧ resumes m.log context join = 0

theorem Stage.counter (stage : Stage cfg context join m) (member : .calling (.run join context state) ∈ m.tokens)
    (within : arrivals m.log context join ≤ (cfg.getActiveJoinNum context join).toNat) :
    (m.joins context join.name).moduleJoinedNum.toNat = arrivals m.log context join := by
  obtain ⟨_,⟨same,_⟩ | ⟨_,_,fits⟩⟩ := stage.own member rfl
  · cases same
  · have small := (cfg.getActiveJoinNum context join).toNat_lt
    rw [arrivals_eq] at within ⊢
    rw [fits.data]
    change (UInt16.ofNat _).toNat = _
    rw [UInt16.toNat_ofNat']
    exact Nat.mod_eq_of_lt (by omega)

/-- Up to its active number, a join has resumed or will just if all branches have arrived. -/
theorem Stage.resumes (stage : Stage cfg context join m)
    (within : arrivals m.log context join ≤ (cfg.getActiveJoinNum context join).toNat) :
    ForkJoin.resumes m.log context join + (m.tokens.filterMap (joining context join)).length =
      if 0 < arrivals m.log context join ∧
        arrivals m.log context join = (cfg.getActiveJoinNum context join).toNat then 1 else 0 := by
  have scheduled := stage.resumed.length_eq
  rw [List.length_append,← resumes_eq] at scheduled
  rw [scheduled]
  by_cases waits : 0 < cfg.getActiveJoinNum context join
  · have positive : 0 < (cfg.getActiveJoinNum context join).toNat := UInt16.lt_iff_toNat_lt.mp waits
    rw [arrivals_eq] at within ⊢
    rw [scheduledBy_first _ waits _ within]
    by_cases all : (arrivedWith context join m.log).length = (cfg.getActiveJoinNum context join).toNat
    · rw [if_pos all,if_pos ⟨by omega,all⟩]
      rfl
    · rw [if_neg all,if_neg fun both => all both.2]
      rfl
  · have none : (cfg.getActiveJoinNum context join).toNat = 0 := by
      have := UInt16.lt_iff_toNat_lt.not.mp waits
      simpa using this
    have empty : arrivedWith context join m.log = [] := by
      rw [← List.length_eq_zero_iff,← arrivals_eq]
      omega
    rw [empty,if_neg (by omega)]
    rfl

theorem performances_step (choice : Choice) (table : m.world.fsm = configure startMod endMod calls)
    (live : m.crashed = false) (member : token ∈ m.tokens) (admitted : cfg.admits choice token) :
    performances (step cfg m (token,choice)).log token.context = performances m.log token.context + 1 := by
  obtain ⟨turn,_⟩ := perform_turn cfg (table ▸ Extends.refl _ : Extends (configure startMod endMod calls) m.world.fsm)
    choice token
  obtain ⟨new,leaves⟩ := turn.leaves
  rw [step,if_pos ⟨live,member,admitted⟩,leaves.performances,performances_take]

theorem step_bounded {s : Server.State} {stages : Nat → Server.Stage}
    (sound : Server.Sound cfg (configure startMod endMod calls) graphs stages s) (kind : cfg.kind join = .join)
    (stage : Registered (configure startMod endMod calls) join → Stage cfg context join s.machine)
    (bounded : Bounded cfg (configure startMod endMod calls) s.machine context join) (turn : Token × Choice) :
    Bounded cfg (configure startMod endMod calls) (step cfg s.machine turn) context join := by
  obtain ⟨token,choice⟩ := turn
  by_cases taken : s.machine.crashed = false ∧ token ∈ s.machine.tokens ∧ cfg.admits choice token
  · obtain ⟨turn,_⟩ := perform_turn cfg (sound.table ▸ Extends.refl _ :
      Extends (configure startMod endMod calls) s.machine.world.fsm) choice token
    obtain ⟨new,leaves⟩ := turn.leaves
    obtain ⟨within,absent⟩ := bounded
    rw [step,if_pos taken]
    have member := taken.2.1
    refine ⟨?_,fun unknown => ⟨?_,?_⟩⟩
    · rw [leaves.arrivals]
      by_cases arrives : ∃ state, token = .calling (.run join context state)
      · obtain ⟨state,rfl⟩ := arrives
        obtain ⟨task,own,running⟩ := sound.under_way member (by simp)
        obtain ⟨registered,waits⟩ := (running.holds.arriving own kind).resolve_left (by simp)
        have waits : (s.machine.joins context join.name).moduleJoinedNum.toNat <
            (cfg.getActiveJoinNum context join).toNat := waits
        rw [(stage registered).counter member within] at waits
        rw [arrivals_run]
        exact waits
      · rw [arrivals_other _ _ _ _ fun state same => arrives ⟨state,same⟩]
        exact within
    · rw [leaves.arrivals,arrivals_other]
      · exact (absent unknown).1
      · rintro state rfl
        obtain ⟨task,own,running⟩ := sound.under_way member (by simp)
        exact unknown ((running.holds.arriving own kind).resolve_left (by simp)).1
    · rw [leaves.resumes,resumes_other]
      · exact (absent unknown).2
      · rintro state rfl
        obtain ⟨task,own,running⟩ := sound.under_way member (by simp)
        exact unknown (running.holds.joining own)
  · rw [step,if_neg taken]
    exact bounded

theorem execute_nested_stage (nested : ∀ c, (graphs c).Nested cfg (configure startMod endMod calls) c)
    (registered : Registered (configure startMod endMod calls) join) (kind : cfg.kind join = .join)
    (joins : Nat → String → JoinData) (turns : List (Token × Choice)) :
    Stage cfg context join (execute (step cfg) (start (configure startMod endMod calls) joins) turns) := by
  refine execute_stage registered kind (fun joins => absurd joins ?_) joins turns
  rw [← (configure_configured startMod endMod calls).startMod]
  exact (nested context).start_kind

theorem execute_bounded (nested : ∀ c, (graphs c).Nested cfg (configure startMod endMod calls) c)
    (kind : cfg.kind join = .join) (joins : Nat → String → JoinData) (turns : List (Token × Choice)) :
    Bounded cfg (configure startMod endMod calls)
      (execute (step cfg) (start (configure startMod endMod calls) joins) turns) context join := by
  have complete := (configure_configured startMod endMod calls).entries
  induction turns using List.reverseRecOn with
  | nil => exact ⟨Nat.zero_le _,fun _ => ⟨rfl,rfl⟩⟩
  | append_singleton before turn ih =>
    obtain ⟨stages,s,sound,same,_⟩ := execute_server nested complete joins before
    rw [execute_append,execute_cons,execute_nil]
    rw [← same] at ih ⊢
    refine step_bounded sound kind (fun registered => ?_) ih turn
    rw [same]
    exact execute_nested_stage nested registered kind joins before

end Connection

/-- Requests of a connection over properly nested graphs, in whatever order tokens are
performed. A join resumes once, when all of its branches have arrived; a context of
which nothing is left to do has reached `_end_request` once and has one successor, or
none after `exit()`; there is never anything left to do in two contexts. Each token
performed is a step of its context, of which a graph allows only so many. -/
theorem requests_conserved (cfg : Config) (startMod endMod : Module) (calls : List Setup)
    (graphs : Nat → Graph) (nested : ∀ c, (graphs c).Nested cfg (configure startMod endMod calls) c)
    (joins : Nat → String → JoinData) (turns : List (Token × Choice)) :
    let m := execute (step cfg) (start (configure startMod endMod calls) joins) turns
    m.crashed = false ∧
    (∀ c join, cfg.kind join = .join →
      arrivals m.log c join ≤ (cfg.getActiveJoinNum c join).toNat ∧ resumes m.log c join ≤ 1 ∧
      (resumes m.log c join = 1 → arrivals m.log c join = (cfg.getActiveJoinNum c join).toNat)) ∧
    (∀ c, ends m.log c ≤ 1 ∧ successors m.log c ≤ 1 ∧
      (m.world.exits c → successors m.log c = 0) ∧ performances m.log c ≤ 1 + (graphs c).cost) ∧
    (∀ token ∈ m.tokens, ∀ choice, cfg.admits choice token →
      performances (step cfg m (token,choice)).log token.context =
        performances m.log token.context + 1) ∧
    (∀ c < m.world.contexts, (∀ token ∈ m.tokens, token.context ≠ c) →
      ends m.log c = 1 ∧ successors m.log c = (if m.world.exits c then 0 else 1) ∧
      ∀ join, cfg.kind join = .join → 0 < arrivals m.log c join → resumes m.log c join = 1) ∧
    (∀ token ∈ m.tokens, ends m.log token.context = 0 ∧ successors m.log token.context = 0) ∧
    ∀ one ∈ m.tokens, ∀ two ∈ m.tokens, one.context = two.context := by
  intro m
  have complete := (configure_configured startMod endMod calls).entries
  obtain ⟨stages,s,sound,same,single⟩ : ∃ stages s, Server.Sound cfg _ graphs stages s ∧ s.machine = m ∧ s.accepting = 1 :=
    execute_server nested complete joins turns
  have bounded (c : Nat) (join : Module) (kind : cfg.kind join = .join) :
      Bounded cfg (configure startMod endMod calls) m c join := execute_bounded nested kind joins turns
  have resumed (c : Nat) (join : Module) (kind : cfg.kind join = .join)
      (registered : Registered (configure startMod endMod calls) join) :
      resumes m.log c join + (m.tokens.filterMap (joining c join)).length =
        if 0 < arrivals m.log c join ∧ arrivals m.log c join = (cfg.getActiveJoinNum c join).toNat then 1 else 0 :=
    (execute_nested_stage nested registered kind joins turns).resumes (bounded c join kind).within
  have newest (token : Token) (member : token ∈ m.tokens) : token.context = (stages 0).context := by
    obtain ⟨k,inside,_,here,_⟩ := sound.owner (same ▸ member)
    obtain rfl : k = 0 := by omega
    exact here
  rw [← same] at bounded resumed newest ⊢
  refine ⟨sound.crashed,?_,?_,?_,?_,fun token member => sound.unended member,?_⟩
  · intro c join kind
    obtain ⟨within,absent⟩ := bounded c join kind
    by_cases registered : Registered (configure startMod endMod calls) join
    · have count := resumed c join kind registered
      split at count <;> exact ⟨within,by omega,by omega⟩
    · obtain ⟨none,unresumed⟩ := absent registered
      exact ⟨within,by omega,by omega⟩
  · intro c
    have kept := sound.kept c
    exact ⟨kept.ends,kept.successors,kept.exits,kept.steps⟩
  · intro token member choice admitted
    exact performances_step choice sound.table sound.crashed member admitted
  · intro c created none
    obtain ⟨ended,successor⟩ := sound.finished created none
    refine ⟨ended,successor,?_⟩
    intro join kind entered
    have registered : Registered (configure startMod endMod calls) join := by
      by_contra unknown
      have := ((bounded c join kind).absent unknown).1
      omega
    -- The graph has been executed to its end, so the join has not been left half entered.
    obtain ⟨last,executes⟩ := (sound.done created ended).executes
    have all := executes.visits_join (nested c).linked (nested c).once kind
    rw [visits_runsOf] at all
    have silent : s.machine.tokens.filterMap (joining c join) = [] :=
      List.filterMap_eq_nil_iff.mpr fun token member => joining_other (none token member)
    have count := resumed c join kind registered
    rw [silent,if_pos ⟨entered,all.resolve_left (by omega)⟩] at count
    exact count
  · intro one first two second
    rw [newest one first,newest two second]

theorem example_conserved :
    let m := execute (step exampleConfig) (start (configure fsForkMod endMod exampleCalls)
      fun _ _ => ⟨65535,true⟩) exampleTurns
    m.tokens = [.calling (.handleRequest 1)] ∧ ends m.log 0 = 1 ∧ successors m.log 0 = 1 ∧
      resumes m.log 0 psJoinMod = 1 ∧ resumes m.log 0 fsJoinMod = 1 := by
  intro m
  have left : m.tokens = [.calling (.handleRequest 1)] := by decide
  have conserved := requests_conserved exampleConfig fsForkMod endMod exampleCalls (fun _ => exampleGraph)
    exampleGraph_nested (fun _ _ => ⟨65535,true⟩) exampleTurns
  obtain ⟨_,_,_,_,finished,_,_⟩ := conserved
  have others : ∀ token ∈ m.tokens, token.context ≠ 0 := by simp [left,Token.context,callContext]
  obtain ⟨ended,created,joined⟩ := finished 0 (by decide) others
  exact ⟨left,ended,created.trans (by decide),joined psJoinMod rfl (by decide),
    joined fsJoinMod rfl (by decide)⟩

end Zerver.ForkJoin
