import Zerver.ForkJoinSteps
import Zerver.FsmRouting

/-! What performing one token does, in any graph. Only `JoinModule::run` and the reset of a
context change the data of joins, and only `_end_request` leaves the context. -/
namespace Zerver.ForkJoin

open Zerver.Fsm

/-- A route of a configured Fsm leads to a module that is in the table under its own name. -/
theorem route_registered {startMod endMod : Module} {calls : List Setup}
    (route : (configure startMod endMod calls).route mod state = some next) :
    Registered (configure startMod endMod calls) next := by
  rw [configure_route,specified,Option.bind_eq_some_iff] at route
  obtain ⟨name,_,added⟩ := route
  have named : next.name = name := by
    obtain ⟨call,found,taken⟩ := Option.bind_eq_some_iff.mp added
    have key := List.find?_some found
    cases call with
    | addModule mod =>
      cases taken
      simpa [Setup.key] using key
    | linkModule origin target state => contradiction
  rw [Registered,configure_lookup,named,added]
  rfl

/-- What a token other than `_end_request`'s can leave in its context, the timer of a join
apart. -/
def Follows (fsm : Fsm) (context : Nat) : Token → Prop
  | .calling (.run mod c _) => c = context ∧ Registered fsm mod
  | .calling (.endRequest c) | .onForked _ _ c | .pending _ c => c = context
  | _ => False

/-- The token is gone, `new` has come, and the log shows no other token performed. -/
structure Leaves (m : Machine) (token : Token) (m' : Machine) (new : List Token) : Prop where
  tokens : m'.tokens = new ++ m.tokens.erase token
  log : ∃ created, m'.log = m.log ++ .performed token :: created ∧
    ∀ event ∈ created, ∃ c successor, event = .created c successor

inductive Turn (cfg : Config) (fsm : Fsm) (m : Machine) (token : Token) (m' : Machine) : Prop where
  | renewed (c : Nat) : token = .calling (.handleRequest c) →
      m'.joins = Function.update m.joins c (fun _ => .reset) → m'.world.contexts = m.world.contexts →
      Leaves m token m' [.calling (.run m.world.fsm.startMod c modStart)] → Turn cfg fsm m token m'
  | joined (join : Module) (c : Nat) (lastModState : ModState) :
      token = .calling (.run join c lastModState) → cfg.kind join = .join →
      m'.joins = (m.setData c join.name ((m.joins c join.name).arrive lastModState)).joins →
      m'.world.contexts = m.world.contexts →
      Leaves m token m' (if (m.joins c join.name).moduleJoinedNum + 1 = cfg.getActiveJoinNum c join then
        [.onJoined join ((m.joins c join.name).arrive lastModState).state c] else []) →
      Turn cfg fsm m token m'
  | created (c : Nat) : token = .calling (.endRequest c) → m'.joins = m.joins →
      m'.world.contexts = m.world.contexts + 1 →
      Leaves m token m' [.calling (.handleRequest m.world.contexts)] → Turn cfg fsm m token m'
  | went (new : List Token) : (∀ c, token ≠ .calling (.handleRequest c)) →
      (∀ join c lastModState, token = .calling (.run join c lastModState) → cfg.kind join = .join →
        m.dataKind cfg join ≠ some .join) →
      m'.joins = m.joins → m'.world.contexts = m.world.contexts →
      (∀ t ∈ new, Follows fsm token.context t) → Leaves m token m' new → Turn cfg fsm m token m'

theorem Turn.leaves (turn : Turn cfg fsm m token m') : ∃ new, Leaves m token m' new := by
  cases turn with
  | renewed _ _ _ _ leaves => exact ⟨_,leaves⟩
  | joined _ _ _ _ _ _ _ leaves => exact ⟨_,leaves⟩
  | created _ _ _ _ leaves => exact ⟨_,leaves⟩
  | went _ _ _ _ _ _ leaves => exact ⟨_,leaves⟩

/-- Of what a token leaves in the log, only the token itself is counted. -/
theorem Leaves.countP (leaves : Leaves m token m' new) (p : Event → Bool)
    (created : ∀ c successor, p (.created c successor) = false) :
    m'.log.countP p = (m.log ++ [Event.performed token]).countP p := by
  obtain ⟨later,log,only⟩ := leaves.log
  have none : later.countP p = 0 := by
    refine List.countP_eq_zero.mpr fun event member => ?_
    obtain ⟨c,successor,rfl⟩ := only event member
    simp [created]
  rw [log,List.append_cons,List.countP_append,none,Nat.add_zero]

theorem Leaves.arrivals (leaves : Leaves m token m' new) (context : Nat) (mod : Module) :
    arrivals m'.log context mod = ForkJoin.arrivals (m.log ++ [.performed token]) context mod :=
  leaves.countP _ fun _ _ => rfl

theorem Leaves.resumes (leaves : Leaves m token m' new) (context : Nat) (join : Module) :
    resumes m'.log context join = ForkJoin.resumes (m.log ++ [.performed token]) context join :=
  leaves.countP _ fun _ _ => rfl

theorem Leaves.performances (leaves : Leaves m token m' new) (context : Nat) :
    performances m'.log context = ForkJoin.performances (m.log ++ [.performed token]) context :=
  leaves.countP _ fun _ _ => rfl

section Perform

variable {cfg : Config} {startMod endMod : Module} {calls : List Setup} {m : Machine}

theorem follow_resume_turn (m : Machine) (extended : Extends (configure startMod endMod calls) m.world.fsm)
    (mod : Module) (state : ModState) (context : Nat) :
    let m' := m.follow (m.world.resume mod state context)
    m'.joins = m.joins ∧ m'.world.contexts = m.world.contexts ∧ m'.log = m.log ∧
      Extends (configure startMod endMod calls) m'.world.fsm ∧
      ∃ t, m'.tokens = t :: m.tokens ∧ Follows (configure startMod endMod calls) context t := by
  have continued := m.world.resume_continued mod state context
  generalize m.world.resume mod state context = outcome at continued ⊢
  cases continued with
  | atEnd atEnd => exact ⟨rfl,rfl,rfl,extended,_,rfl,rfl⟩
  | linked inner route =>
    rw [extended.route] at route
    exact ⟨rfl,rfl,rfl,extended,_,rfl,rfl,route_registered route⟩
  | unlinked table inner route later => exact ⟨rfl,rfl,rfl,extended.trans later,_,rfl,rfl⟩

/-- A machine that differs from the one the token was taken from in no token, datum or
event, and where the Fsm then follows a state. -/
theorem resume_turn (extended : Extends (configure startMod endMod calls) m.world.fsm) (m' : Machine)
    (token : Token)
    (fsm : m'.world.fsm = m.world.fsm) (contexts : m'.world.contexts = m.world.contexts)
    (joins : m'.joins = m.joins) (tokens : m'.tokens = m.tokens.erase token)
    (log : m'.log = m.log ++ [.performed token]) (mod : Module) (state : ModState)
    (other : ∀ c, token ≠ .calling (.handleRequest c))
    (apart : ∀ join c lastModState, token = .calling (.run join c lastModState) → cfg.kind join = .join →
      m.dataKind cfg join ≠ some .join) :
    let next := m'.follow (m'.world.resume mod state token.context)
    Turn cfg (configure startMod endMod calls) m token next ∧
      Extends (configure startMod endMod calls) next.world.fsm := by
  intro next
  obtain ⟨sameJoins,sameContexts,sameLog,later,t,added,follows⟩ :=
    follow_resume_turn m' (fsm ▸ extended) mod state token.context
  refine ⟨.went [t] other apart (sameJoins.trans joins) (sameContexts.trans contexts) ?_ ⟨?_,[],?_,by simp⟩,later⟩
  · intro t' member
    rw [List.mem_singleton.mp member]
    exact follows
  · rw [added,tokens]
    rfl
  · rw [sameLog,log]

theorem runFork_turn (cfg : Config) (m : Machine) (fork : Module) (context : Nat) :
    ∃ new, (∀ t ∈ new, ∃ index, t = .onForked fork index context) ∧
      (m.runFork cfg fork context).joins = m.joins ∧ (m.runFork cfg fork context).world = m.world ∧
      (m.runFork cfg fork context).log = m.log ∧ (m.runFork cfg fork context).tokens = new ++ m.tokens := by
  have crashes : ∃ new : List Token, (∀ t ∈ new, ∃ index, t = .onForked fork index context) ∧
      m.crash.joins = m.joins ∧ m.crash.world = m.world ∧ m.crash.log = m.log ∧
      m.crash.tokens = new ++ m.tokens := ⟨[],by simp,rfl,rfl,rfl,rfl⟩
  unfold Machine.runFork
  dsimp only
  split
  · exact ⟨[],by simp,rfl,rfl,rfl,rfl⟩
  · split
    · split
      · refine ⟨_,?_,rfl,rfl,rfl,rfl⟩
        intro t member
        obtain ⟨i,_,rfl⟩ := List.mem_map.mp member
        exact ⟨_,rfl⟩
      · exact crashes
    · exact crashes

theorem endRequest_turn (extended : Extends (configure startMod endMod calls) m.world.fsm) (context : Nat) :
    let token := Token.calling (.endRequest context)
    let next := (m.take token).endRequest context
    Turn cfg (configure startMod endMod calls) m token next ∧
      Extends (configure startMod endMod calls) next.world.fsm := by
  intro token next
  have stays (next : Machine) (joins : next.joins = m.joins) (contexts : next.world.contexts = m.world.contexts)
      (log : next.log = m.log ++ [.performed token]) (tokens : next.tokens = m.tokens.erase token) :
      Turn cfg (configure startMod endMod calls) m token next :=
    .went [] (by simp [token]) (by simp [token]) joins contexts (by simp) ⟨tokens,[],log,by simp⟩
  let w := (m.take token).world
  simp only [next,Machine.endRequest]
  by_cases exits : w.exits context
  · rw [show (m.take token).world.endRequest context = (.returned,w) from if_pos exits]
    exact ⟨stays _ rfl rfl (List.append_nil _) rfl,extended⟩
  · by_cases null : w.fsm.modMap.any (·.2.isNone)
    · rw [show (m.take token).world.endRequest context = (.crashed,w) from (if_neg exits).trans (if_pos null)]
      exact ⟨stays _ rfl rfl (List.append_nil _) rfl,extended⟩
    · rw [show (m.take token).world.endRequest context = (.call (.handleRequest w.contexts),
          { w with contexts := w.contexts + 1, exits := Function.update w.exits w.contexts false })
        from (if_neg exits).trans (if_neg null)]
      refine ⟨.created context rfl rfl rfl ⟨rfl,[.created context m.world.contexts],?_,?_⟩,extended⟩
      · simp [Machine.take,Machine.follow,Machine.add,w]
      · intro event member
        exact ⟨_,_,List.mem_singleton.mp member⟩

theorem visit_turn (extended : Extends (configure startMod endMod calls) m.world.fsm) (choice : Choice)
    (mod : Module) (context : Nat) (lastModState : ModState) (kind : cfg.kind mod = .sequential) :
    let token := Token.calling (.run mod context lastModState)
    let next := (m.take token).perform cfg choice token
    Turn cfg (configure startMod endMod calls) m token next ∧
      Extends (configure startMod endMod calls) next.world.fsm := by
  intro token next
  have apart (join : Module) (c : Nat) (state : ModState) (same : token = .calling (.run join c state))
      (joins : cfg.kind join = .join) : m.dataKind cfg join ≠ some .join := by
    obtain ⟨rfl,_,_⟩ := Call.run.inj (Token.calling.inj same)
    rw [kind] at joins
    contradiction
  let entered := (m.take token).exitIf choice.exit context
  have halts (new : List Token) (follows : ∀ t ∈ new, Follows (configure startMod endMod calls) context t) :
      Turn cfg (configure startMod endMod calls) m token (entered.add new) ∧
        Extends (configure startMod endMod calls) (entered.add new).world.fsm := by
    refine ⟨.went new (by simp [token]) apart (exitIf_joins _ _ _) (exitIf_contexts _ _ _) follows
      ⟨?_,[],exitIf_log _ _ _,by simp⟩,?_⟩
    · simp only [Machine.add,entered,exitIf_tokens]
      rfl
    · change Extends _ entered.world.fsm
      rw [exitIf_fsm]
      exact extended
  by_cases async : choice.async
  · have waits : next = entered.add [.pending mod context] := by
      simp only [next,token,Machine.perform,Machine.run,kind,async,↓reduceIte,follow_async]
      rfl
    rw [waits]
    exact halts _ (by simp [Follows])
  · have runs : next = entered.follow (entered.world.afterRun mod choice.state context) := by
      simp [next,token,Machine.perform,Machine.run,kind,async,entered]
    rw [runs]
    by_cases done : choice.state = modAsync
    · rw [done,follow_async]
      exact halts [] (by simp)
    · rw [World.afterRun_eq_resume _ _ _ _ done]
      exact resume_turn extended entered token (exitIf_fsm _ _ _) (exitIf_contexts _ _ _)
        (exitIf_joins _ _ _) (exitIf_tokens _ _ _) (exitIf_log _ _ _) mod choice.state (by simp [token]) apart

theorem run_turn (extended : Extends (configure startMod endMod calls) m.world.fsm) (choice : Choice)
    (mod : Module) (context : Nat) (lastModState : ModState) :
    let token := Token.calling (.run mod context lastModState)
    let next := (m.take token).perform cfg choice token
    Turn cfg (configure startMod endMod calls) m token next ∧
      Extends (configure startMod endMod calls) next.world.fsm := by
  intro token next
  cases kind : cfg.kind mod with
  | sequential => exact visit_turn extended choice mod context lastModState kind
  | fork forkNum =>
    obtain ⟨new,timers,joins,world,log,tokens⟩ := runFork_turn cfg (m.take token) mod context
    have runs : next = (m.take token).runFork cfg mod context := by
      simp only [next,token,Machine.perform,Machine.run,kind,follow_async]
    rw [runs]
    refine ⟨.went new (by simp [token]) ?_ joins (by rw [world]; rfl) ?_ ⟨tokens,[],log,by simp⟩,?_⟩
    · intro join c state same joins
      obtain ⟨rfl,_,_⟩ := Call.run.inj (Token.calling.inj same)
      rw [kind] at joins
      contradiction
    · intro t member
      obtain ⟨index,rfl⟩ := timers t member
      rfl
    · rw [world]
      exact extended
  | join =>
    have runs : next = (m.take token).runJoin cfg mod context lastModState := by
      simp only [next,token,Machine.perform,Machine.run,kind,follow_async]
    have same : (m.take token).dataKind cfg mod = m.dataKind cfg mod := rfl
    by_cases own : m.dataKind cfg mod = some .join
    · let data := (m.joins context mod.name).arrive lastModState
      let counted := (m.take token).setData context mod.name data
      have arrives : next = if (m.joins context mod.name).moduleJoinedNum + 1 = cfg.getActiveJoinNum context mod
          then counted.add [.onJoined mod data.state context] else counted := by
        rw [runs,Machine.runJoin,same,own]
        rfl
      rw [arrives]
      split
      · rename_i last
        refine ⟨.joined mod context lastModState rfl kind rfl rfl ⟨?_,[],rfl,by simp⟩,extended⟩
        rw [if_pos last]
        rfl
      · rename_i early
        refine ⟨.joined mod context lastModState rfl kind rfl rfl ⟨?_,[],rfl,by simp⟩,extended⟩
        rw [if_neg early]
        rfl
    · have crashes : next = (m.take token).crash := by
        rw [runs,Machine.runJoin,same]
        split
        · contradiction
        · rfl
      rw [crashes]
      refine ⟨.went [] (by simp [token]) ?_ rfl rfl (by simp) ⟨rfl,[],rfl,by simp⟩,extended⟩
      intro join c state same _
      obtain ⟨rfl,_,_⟩ := Call.run.inj (Token.calling.inj same)
      exact own

theorem perform_turn (cfg : Config) (extended : Extends (configure startMod endMod calls) m.world.fsm) (choice : Choice)
    (token : Token) :
    let next := (m.take token).perform cfg choice token
    Turn cfg (configure startMod endMod calls) m token next ∧
      Extends (configure startMod endMod calls) next.world.fsm := by
  intro next
  have resumes (mod : Module) (state : ModState) (other : ∀ call, token ≠ .calling call) :
      let next := (m.take token).follow ((m.take token).world.resume mod state token.context)
      Turn cfg (configure startMod endMod calls) m token next ∧
        Extends (configure startMod endMod calls) next.world.fsm :=
    resume_turn extended (m.take token) token rfl rfl rfl rfl rfl mod state
      (fun c => other _) (fun _ _ _ same => absurd same (other _))
  cases token with
  | onForked fork forkIndex context => exact resumes fork forkIndex (by simp)
  | onJoined join state context => exact resumes join state (by simp)
  | pending mod context =>
    exact resume_turn extended ((m.take _).exitIf choice.exit context) _ (exitIf_fsm _ _ _)
      (exitIf_contexts _ _ _) (exitIf_joins _ _ _) (exitIf_tokens _ _ _) (exitIf_log _ _ _) mod choice.state
      (by simp) (by simp)
  | calling call =>
    cases call with
    | handleRequest context =>
      exact ⟨.renewed context rfl rfl rfl ⟨rfl,[],rfl,by simp⟩,extended⟩
    | resume lastMod state context =>
      exact resume_turn extended (m.take _) _ rfl rfl rfl rfl rfl lastMod state (by simp) (by simp)
    | endRequest context => exact endRequest_turn extended context
    | run mod context lastModState => exact run_turn extended choice mod context lastModState

end Perform

end Zerver.ForkJoin
