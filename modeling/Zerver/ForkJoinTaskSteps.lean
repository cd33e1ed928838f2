import Zerver.ForkJoinTasks

/-! One step of a request under way: what each kind of token does to the machine, and what
that makes of the tree. -/
namespace Zerver.ForkJoin

open Zerver.Fsm
open Zerver.Interleaving

section Effects

variable {cfg : Config} {fsm : Fsm} {context : Nat} {m m' : Machine} {outer : Option Module} {token : Token}
  {next : ModState → Graph}

/-- The token that goes on with a graph in a state. -/
inductive Onward (context : Nat) (outer : Option Module) (graph : Graph) (state : ModState) : Token → Prop where
  | entering : graph.head outer = some mod → Onward context outer graph state (.calling (.run mod context state))
  | ending : graph = .leave → outer = none → Onward context outer graph state (.calling (.endRequest context))

/-- What performing a token does to the machine. -/
structure Effect (context : Nat) (token : Token) (m m' : Machine) (added : List Token)
    (data : String → JoinData) : Prop where
  stays : Stays context token m m'
  tokens : m'.tokens = added ++ m.tokens.erase token
  joins : m'.joins = Function.update m.joins context data

theorem Onward.ready (onward : Onward context outer graph state after) :
    Ready cfg fsm context after graph outer := by
  cases onward with
  | entering head => exact .entering head
  | ending left none =>
    subst left
    subst none
    exact .ending

theorem Onward.executes (onward : Onward context outer graph state after)
    (left : Left cfg context after graph runs last) :
    ∃ last', Executes cfg graph state runs last' ∧ (outer = none ∨ last' = last) := by
  cases onward with
  | entering head =>
    cases left with
    | entering executes => exact ⟨last,executes,.inr rfl⟩
  | ending leave none =>
    cases left with
    | ending => exact ⟨state,.leave,.inl none⟩

theorem resume_effect (same : m.world.fsm = fsm) (stays : Stays context token m m') (joins : m'.joins = m.joins)
    (tokens : m'.tokens = m.tokens.erase token) (leads : Graph.Leads fsm outer mod state graph) :
    ∃ after, Onward context outer graph state after ∧
      Effect context token m (m'.follow (m'.world.resume mod state context)) [after] (m.joins context) := by
  have kept : m'.world.fsm = fsm := stays.fsm.trans same
  have effect (call : Call) : Effect context token m (m'.add [.calling call]) [.calling call] (m.joins context) :=
    ⟨stays.add _,by simp [Machine.add,tokens],by simp [Machine.add,joins]⟩
  subst kept
  unfold Graph.Leads at leads
  have continued := m'.world.resume_continued mod state context
  generalize m'.world.resume mod state context = outcome at continued ⊢
  cases continued with
  | atEnd atEnd =>
    rw [if_pos atEnd] at leads
    exact ⟨_,.ending leads.1 leads.2,effect _⟩
  | linked inner route =>
    rw [if_neg inner] at leads
    exact ⟨_,.entering (leads.2.symm.trans route),effect _⟩
  | unlinked table inner route extended =>
    rw [if_neg inner,route] at leads
    rw [← leads.2] at leads
    simp at leads

section Perform

variable (same : m.world.fsm = fsm) (choice : Choice)

include same

theorem visit_effect (kind : cfg.kind mod = .sequential)
    (leads : ∀ state, cfg.produces mod state → (next state).Leads fsm outer mod state)
    (admitted : cfg.admits choice (.calling (.run mod context lastModState))) :
    let token := Token.calling (.run mod context lastModState)
    ∃ after, Effect context token m ((m.take token).perform cfg choice token) [after] (m.joins context) ∧
      (after = .pending mod context ∨
        (cfg.produces mod choice.state ∧ Onward context outer (next choice.state) choice.state after)) := by
  intro token
  have stays : Stays context token m _ := .exitIf choice.exit m token
  by_cases async : choice.async
  · have waits : (m.take token).perform cfg choice token =
        ((m.take token).exitIf choice.exit context).add [.pending mod context] := by
      simp [token,Machine.perform,Machine.run,kind,async,follow_async]
    rw [waits]
    exact ⟨_,⟨stays.add _,by simp [Machine.add,Machine.take],by simp [Machine.add,Machine.take]⟩,.inl rfl⟩
  · have produced : cfg.produces mod choice.state := by simpa [Config.admits,kind,async] using admitted
    have goes : (m.take token).perform cfg choice token = ((m.take token).exitIf choice.exit context).follow
        (((m.take token).exitIf choice.exit context).world.resume mod choice.state context) := by
      simp [token,Machine.perform,Machine.run,kind,async,
        World.afterRun_eq_resume _ _ _ _ (produces_finishes kind produced)]
    rw [goes]
    obtain ⟨after,onward,effect⟩ := resume_effect same stays (by simp [Machine.take]) (by simp [Machine.take])
      (leads choice.state produced)
    exact ⟨after,effect,.inr ⟨produced,onward⟩⟩

theorem pending_effect (leads : (next choice.state).Leads fsm outer mod choice.state) :
    let token := Token.pending mod context
    ∃ after, Onward context outer (next choice.state) choice.state after ∧
      Effect context token m ((m.take token).perform cfg choice token) [after] (m.joins context) := by
  intro token
  have stays : Stays context token m _ := .exitIf choice.exit m token
  exact resume_effect same stays (by simp [Machine.take]) (by simp [Machine.take]) leads

theorem timer_effect (leads : graph.Leads fsm outer mod state)
    (timer : token = .onForked mod state context ∨ token = .onJoined mod state context) :
    ∃ after, Onward context outer graph state after ∧
      Effect context token m ((m.take token).perform cfg choice token) [after] (m.joins context) := by
  rcases timer with rfl | rfl
  · exact resume_effect same (.take m _) rfl rfl leads
  · exact resume_effect same (.take m _) rfl rfl leads

theorem fork_effect (lastModState : ModState) (kind : cfg.kind fork = .fork forkNum) (registered : Registered fsm fork)
    (enough : cfg.getActiveForkNum context fork ≤ forkNum) (wide : 0 < width)
    (active : (cfg.getActiveForkNum context fork).toNat = width) :
    let token := Token.calling (.run fork context lastModState)
    Effect context token m ((m.take token).perform cfg choice token)
      ((List.range width).map fun i => .onForked fork (modFork0 + UInt32.ofNat i) context) (m.joins context) := by
  intro token
  have data : (m.take token).dataKind cfg fork = some (.fork forkNum) := by
    rw [dataKind_registered (m := m.take token) same registered,kind]
  have some : cfg.getActiveForkNum context fork ≠ 0 := by
    intro none
    rw [none] at active
    simp at active
    omega
  have forks : (m.take token).perform cfg choice token = (m.take token).add ((List.range width).map fun i =>
      .onForked fork (modFork0 + UInt32.ofNat i) context) := by
    simp only [token,Machine.perform,Machine.run,kind,Machine.runFork,data,if_neg some,if_pos enough,active,
      follow_async]
  rw [forks]
  exact ⟨(Stays.take m token).add _,rfl,by simp [Machine.add,Machine.take]⟩

theorem join_effect (kind : cfg.kind join = .join) (registered : Registered fsm join) :
    let token := Token.calling (.run join context lastModState)
    let arrived := (m.joins context join.name).arrive lastModState
    Effect context token m ((m.take token).perform cfg choice token)
      (if arrived.moduleJoinedNum = cfg.getActiveJoinNum context join then
        [.onJoined join arrived.state context] else [])
      (Function.update (m.joins context) join.name arrived) := by
  intro token arrived
  let counted := (m.take token).setData context join.name arrived
  have runs : (m.take token).perform cfg choice token =
      if arrived.moduleJoinedNum = cfg.getActiveJoinNum context join then
        counted.add [.onJoined join arrived.state context] else counted := by
    have found : (m.take token).dataKind cfg join = some .join := by
      rw [dataKind_registered (m := m.take token) same registered,kind]
    simp only [token,Machine.perform,Machine.run,kind,Machine.runJoin,found,follow_async]
    rfl
  have stays : Stays context token m counted := ⟨rfl,rfl,fun _ _ => rfl,rfl,rfl⟩
  rw [runs]
  split
  · exact ⟨stays.add _,rfl,rfl⟩
  · exact ⟨stays,rfl,rfl⟩

end Perform

end Effects

section Advance

variable {cfg : Config} {fsm : Fsm} {context : Nat} {m m' : Machine} {outer : Option Module} {token : Token}
  {task task' : Task} {graph : Graph} {join : Module} {next : ModState → Graph} {width i : Nat}
  {child : Nat → Task}

/-- A step has made one task of another, and has left alone whatever the task does not claim. -/
structure Advance (cfg : Config) (fsm : Fsm) (context : Nat) (m m' : Machine) (outer : Option Module)
    (token : Token) (task task' : Task) : Prop where
  stays : Stays context token m m'
  others : ∀ c, c ≠ context → m'.joins c = m.joins c
  frame : ∀ join, Registered fsm join → join ∉ task.claims cfg →
    m'.joins context join.name = m.joins context join.name
  tokens : ∃ added, m'.tokens = added ++ m.tokens.erase token ∧
    task'.tokens.Perm (added ++ task.tokens.erase token)
  holds : task'.Holds cfg fsm context (m'.joins context) outer
  claims : task'.claims cfg ⊆ task.claims cfg
  mentions : ∀ mod, task'.Mentions mod → task.Mentions mod
  apart : ∀ rival, task.Apart rival → task'.Apart rival
  waits : task'.isArrived = false
  lighter : task'.weight < task.weight
  remains : ∀ trace out, task'.Remains cfg context outer trace out →
    ∃ out', task.Remains cfg context outer (token.ran ++ trace) out' ∧ (outer = none ∨ out' = out)

theorem Effect.others (effect : Effect context token m m' added data) (c : Nat) (other : c ≠ context) :
    m'.joins c = m.joins c := by
  rw [effect.joins,Function.update_of_ne other]

theorem Effect.onward (effect : Effect context token m m' [after] (m.joins context))
    (holds : (Task.live token graph).Holds cfg fsm context (m.joins context) outer)
    (onward : Onward context outer graph' state after)
    (linked : graph'.Linked cfg fsm context outer) (once : graph'.Once cfg)
    (fewer : graph'.joins cfg ⊆ graph.joins cfg) (mentions : ∀ mod, graph'.Mentions mod → graph.Mentions mod)
    (apart : ∀ rival, graph.Apart rival → graph'.Apart rival)
    (lighter : graph'.cost < (Task.live token graph).weight)
    (behind : ∀ runs last, Executes cfg graph' state runs last → Left cfg context token graph (token.ran ++ runs) last) :
    Advance cfg fsm context m m' outer token (.live token graph) (.live after graph') where
  stays := effect.stays
  others := effect.others
  frame join _ _ := by rw [effect.joins,Function.update_self]
  tokens := ⟨[after],effect.tokens,by simp [Task.tokens]⟩
  holds := by
    rw [effect.joins,Function.update_self]
    exact ⟨onward.ready,linked,once,fun join ahead => holds.2.2.2 join (fewer ahead)⟩
  claims := fewer
  mentions := mentions
  apart := apart
  waits := rfl
  lighter := by
    cases onward <;> exact lighter
  remains := by
    rintro trace out ⟨runs,last,left,closes⟩
    obtain ⟨last',executes,same⟩ := onward.executes left
    rcases same with rfl | rfl
    · obtain rfl : trace = runs := closes
      exact ⟨out,⟨_,_,behind trace last' executes,rfl⟩,.inl rfl⟩
    · exact ⟨out,⟨_,_,behind runs last' executes,closes.prepend _⟩,.inr rfl⟩

theorem visit_advance (same : m.world.fsm = fsm) (choice : Choice)
    (holds : (Task.live (.calling (.run mod context lastModState)) (.visit mod next)).Holds cfg fsm context
      (m.joins context) outer)
    (admitted : cfg.admits choice (.calling (.run mod context lastModState))) :
    let token := Token.calling (.run mod context lastModState)
    ∃ task', Advance cfg fsm context m ((m.take token).perform cfg choice token) outer token
      (.live token (.visit mod next)) task' := by
  intro token
  have ⟨_,⟨kind,after⟩,once,_⟩ := holds
  obtain ⟨then_,effect,waits | ⟨produced,onward⟩⟩ :=
    visit_effect same choice kind (fun state produced => (after state produced).1) admitted
  · subst waits
    refine ⟨.live (.pending mod context) (.visit mod next),effect.stays,effect.others,?_,
      ⟨_,effect.tokens,by simp [Task.tokens,token]⟩,?_,subset_rfl,fun _ mentions => mentions,fun _ apart => apart,
      rfl,?_,?_⟩
    · intro join _ _
      rw [effect.joins,Function.update_self]
    · rw [effect.joins,Function.update_self]
      exact ⟨.waiting,holds.2⟩
    · simp only [token,Task.weight,Graph.cost]
      omega
    · rintro trace out ⟨runs,last,left,closes⟩
      cases left with
      | waiting produced executes =>
        exact ⟨out,⟨_,last,.entering (.visit produced executes),closes.prepend [_]⟩,.inr rfl⟩
  · refine ⟨_,effect.onward holds onward (after _ produced).2 (once _ produced)
      (fun join entered => ⟨choice.state,produced,entered⟩) (fun _ mentions => .inr ⟨choice.state,mentions⟩)
      (fun _ apart => apart choice.state) ?_ ?_⟩
    · have bound := Graph.cost_le_iSup next choice.state
      simp only [Task.weight,Graph.cost]
      omega
    · intro runs last executes
      exact .entering (.visit produced executes)

theorem fork_advance (same : m.world.fsm = fsm) (choice : Choice)
    (holds : (Task.live (.calling (.run fork context lastModState)) (.region fork join width branch next)).Holds
      cfg fsm context (m.joins context) outer) :
    let token := Token.calling (.run fork context lastModState)
    Advance cfg fsm context m ((m.take token).perform cfg choice token) outer token
      (.live token (.region fork join width branch next))
      (.region join next width fun i => .live (.onForked fork (modFork0 + UInt32.ofNat i) context) (branch i)) := by
  intro token
  have ⟨_,⟨⟨forkNum,kind,enough⟩,joinKind,registered,joinRegistered,wide,active,joinActive,branches,after⟩,
    ⟨own,later,apart,ahead⟩,clean⟩ := holds
  have effect := fork_effect same choice lastModState kind registered enough wide active
  refine ⟨effect.stays,effect.others,?_,⟨_,effect.tokens,?_⟩,?_,?_,fun _ mentions => .inr (.inr mentions),
    fun _ apart => apart,rfl,?_,?_⟩
  · intro join _ _
    rw [effect.joins,Function.update_self]
  · simp [Task.tokens,token,List.map_eq_flatMap]
  · rw [effect.joins,Function.update_self]
    refine ⟨⟨joinKind,joinRegistered,joinActive,fun state produced => (after state produced).1,
      fun state produced => (after state produced).2,fun state produced => later state produced,?_,
      fun i inside => (own i inside).2,apart,ahead⟩,?_,⟨0,wide,rfl⟩,?_⟩
    · intro state produced join' entered
      exact clean join' (.inr (.inr ⟨state,produced,entered⟩))
    · rw [clean join (.inl rfl)]
      simp [Task.joinData,Task.isArrived,Task.isFailed,JoinData.reset]
    · intro i inside
      obtain ⟨leads,linked⟩ := branches i inside
      exact ⟨.forking leads,linked,(own i inside).1,fun join' entered => clean join' (.inr (.inl ⟨i,inside,entered⟩))⟩
  · rintro join' (rfl | ⟨state,produced,entered⟩ | ⟨i,inside,entered⟩)
    · exact .inl rfl
    · exact .inr (.inr ⟨state,produced,entered⟩)
    · exact .inr (.inl ⟨i,inside,entered⟩)
  · have sum : ((List.range width).map fun i => (branch i).cost + 1).sum =
        ((List.range width).map fun i => 1 + (branch i).cost).sum := by
      simp only [Nat.add_comm]
    simp only [token,Task.weight,Graph.cost,sum]
    omega
  · rintro trace out ⟨branches,arriving,inside,runs,last,children,merge,executes,closes⟩
    have split (i : Nat) (bound : i < width) : branches i = (branches i).dropLast ++ [(join,arriving i)] ∧
        Executes cfg (branch i) (modFork0 + UInt32.ofNat i) (branches i).dropLast (arriving i) := by
      obtain ⟨own,last,left,whole,rfl⟩ := children i bound
      rw [whole,List.dropLast_concat]
      cases left with
      | forked executes => exact ⟨rfl,executes⟩
    have executed : Executes cfg (.region fork join width branch next) lastModState
        ((fork,lastModState) :: (inside ++ runs)) last :=
      .region _ arriving (fun i bound => (split i bound).2) (merge.congr fun i bound => (split i bound).1.symm)
        executes
    exact ⟨out,⟨_,last,.entering executed,closes.prepend [_]⟩,.inr rfl⟩

theorem live_advance (same : m.world.fsm = fsm) (choice : Choice)
    (holds : (Task.live token graph).Holds cfg fsm context (m.joins context) outer)
    (admitted : cfg.admits choice token) (further : token ≠ .calling (.endRequest context))
    (inner : ∀ join state, outer = some join → ¬(token = .calling (.run join context state) ∧ graph = .leave)) :
    ∃ task', Advance cfg fsm context m ((m.take token).perform cfg choice token) outer token
      (.live token graph) task' := by
  have ⟨ready,linked,once,_⟩ := holds
  cases ready with
  | ending => exact absurd rfl further
  | forking leads =>
    obtain ⟨after,onward,effect⟩ := timer_effect same choice leads (.inl rfl)
    refine ⟨_,effect.onward holds onward linked once subset_rfl (fun _ mentions => mentions)
      (fun _ apart => apart) (Nat.lt_succ_self _) ?_⟩
    intro runs last executes
    exact .forked executes
  | joining leads kind registered fresh =>
    obtain ⟨after,onward,effect⟩ := timer_effect same choice leads (.inr rfl)
    refine ⟨_,effect.onward holds onward linked once subset_rfl (fun _ mentions => mentions)
      (fun _ apart => apart) (Nat.lt_succ_self _) ?_⟩
    intro runs last executes
    exact .joined executes
  | @waiting mod next =>
    obtain ⟨kind,after⟩ := linked
    obtain ⟨leads,linked⟩ := after choice.state admitted
    obtain ⟨token,onward,effect⟩ := pending_effect same choice leads
    refine ⟨_,effect.onward holds onward linked (once choice.state admitted)
      (fun join entered => ⟨choice.state,admitted,entered⟩) (fun _ mentions => .inr ⟨choice.state,mentions⟩)
      (fun _ apart => apart choice.state) ?_ ?_⟩
    · have bound := Graph.cost_le_iSup next choice.state
      simp only [Task.weight,Graph.cost]
      omega
    · intro runs last executes
      exact .waiting admitted executes
  | entering entered =>
    cases graph with
    | leave => exact absurd ⟨rfl,rfl⟩ (inner _ _ entered)
    | visit mod next =>
      obtain rfl := Option.some.inj entered
      exact visit_advance same choice holds admitted
    | region fork join width branch next =>
      obtain rfl := Option.some.inj entered
      exact ⟨_,fork_advance same choice holds⟩

theorem arrive_advance (same : m.world.fsm = fsm) (choice : Choice)
    (holds : (Task.region join next width child).Holds cfg fsm context (m.joins context) outer) (inside : i < width)
    (arrives : child i = .live (.calling (.run join context state)) .leave) :
    let token := Token.calling (.run join context state)
    ∃ task', Advance cfg fsm context m ((m.take token).perform cfg choice token) outer token
      (.region join next width child) task' := by
  intro token
  have ⟨opened,counted,_,children⟩ := holds
  let child' := Function.update child i (.arrived state)
  have waits : (child i).isArrived = false := by rw [arrives]; rfl
  have lighter : (Task.arrived state).weight < (child i).weight := by
    rw [arrives]
    exact Nat.one_pos
  have data : (m.joins context join.name).arrive state = Task.joinData width child' := by
    rw [counted,joinData_arrive inside waits]
  have effect : Effect context token m ((m.take token).perform cfg choice token)
      (if (Task.joinData width child').moduleJoinedNum = cfg.getActiveJoinNum context join then
        [.onJoined join (Task.joinData width child').state context] else [])
      (Function.update (m.joins context) join.name (Task.joinData width child')) := by
    rw [← data]
    exact join_effect same choice opened.kind opened.registered
  have full : (Task.joinData width child').moduleJoinedNum = cfg.getActiveJoinNum context join ↔
      ∀ j < width, (child' j).isArrived = true := by
    have short : width < 65536 := by
      rw [← opened.active]
      exact UInt16.toNat_lt _
    rw [← joinData_full short,← UInt16.toNat_inj,opened.active]
  have untouched (join' : Module) (registered : Registered fsm join') (other : join' ≠ join) :
      ((m.take token).perform cfg choice token).joins context join'.name = m.joins context join'.name := by
    rw [effect.joins,Function.update_self,Function.update_of_ne]
    exact fun names => other (registered.name_injective opened.registered names)
  have ahead (state : ModState) (produced : cfg.produces join state) (join' : Module)
      (later : join' ∈ (next state).joins cfg) :
      ((m.take token).perform cfg choice token).joins context join'.name = m.joins context join'.name := by
    apply untouched _ (opened.claims state produced later).2
    rintro rfl
    exact (opened.once state produced).2 later
  have frame (join' : Module) (registered : Registered fsm join')
      (free : join' ∉ (Task.region join next width child).claims cfg) :
      ((m.take token).perform cfg choice token).joins context join'.name = m.joins context join'.name := by
    apply untouched _ registered
    rintro rfl
    exact free (.inl rfl)
  obtain ⟨rest,perm⟩ := items_update Task.tokens child inside
  have erased : ((Task.region join next width child).tokens.erase token).Perm rest := by
    have others := items_erase token perm (by rw [arrives]; exact List.mem_singleton_self _)
    simpa [arrives,Task.tokens,token] using others
  have behind (trace : List Run) (out : ModState)
      (remains : (Task.region join next width child').Remains cfg context outer trace out) :
      (Task.region join next width child).Remains cfg context outer (token.ran ++ trace) out := by
    refine remains_lift inside token ?_ remains
    rintro trace out ⟨rfl,rfl⟩
    rw [arrives]
    exact ⟨[],_,.entering .leave,rfl,rfl⟩
  by_cases all : ∀ j < width, (child' j).isArrived = true
  · rw [if_pos (full.mpr all)] at effect
    have produced : cfg.produces join (Task.joinData width child').state := state_produced opened.kind _
    refine ⟨.live (.onJoined join (Task.joinData width child').state context) (next (Task.joinData width child').state),
      effect.stays,effect.others,frame,⟨_,effect.tokens,?_⟩,?_,?_,fun _ mentions => .inr ⟨_,mentions⟩,
      fun _ apart => apart.2.2 _,rfl,?_,?_⟩
    · have none : (Task.region join next width child').tokens = [] := by
        rw [Task.tokens,List.flatMap_eq_nil_iff]
        intro j member
        rw [(child' j).eq_arrived (all j (List.mem_range.mp member))]
        rfl
      have others : (Task.region join next width child').tokens.Perm rest := perm (.arrived state)
      rw [none] at others
      obtain rfl := others.symm.eq_nil
      rw [erased.eq_nil]
      simp [Task.tokens]
    · obtain ⟨once,fresh⟩ := opened.once _ produced
      refine ⟨.joining (opened.leads _ produced) opened.kind opened.registered fresh,opened.linked _ produced,once,?_⟩
      intro join' later
      rw [ahead _ produced join' later]
      exact opened.clean _ produced join' later
    · intro join' later
      exact .inr (.inl ⟨_,produced,later⟩)
    · have bound := Graph.cost_le_iSup next (Task.joinData width child').state
      have gone : (Task.region join next width child').weight < (Task.region join next width child).weight :=
        weight_update inside lighter
      simp only [Task.weight] at gone ⊢
      omega
    · rintro trace out ⟨runs,last,left,closes⟩
      cases left with
      | joined executes => exact ⟨out,behind trace out (remains_arrived all executes closes),.inr rfl⟩
  · rw [if_neg (mt full.mp all)] at effect
    refine ⟨.region join next width child',effect.stays,effect.others,frame,⟨_,effect.tokens,?_⟩,?_,?_,
      fun _ mentions => mentions_update inside (fun (never : (Task.arrived state).Mentions _) => False.elim never) mentions,
      fun own apart => apart_update inside (fun _ (never : (Task.arrived state).Mentions _) => False.elim never) trivial apart,rfl,
      weight_update inside lighter,?_⟩
    · exact (perm (.arrived state)).trans (by simpa [Task.tokens] using erased.symm)
    · refine ⟨opened.replace (fun j _ => claims_update (by simp [Task.claims]) j) ahead,?_,?_,?_⟩
      · rw [effect.joins,Function.update_self,Function.update_self]
      · simpa using all
      · intro j bound
        by_cases same : j = i
        · subst same
          rw [show child' j = .arrived state from Function.update_self ..]
          trivial
        · rw [show child' j = child j from Function.update_of_ne same ..]
          apply (children j bound).frame
          intro join' claimed
          apply untouched _ ((children j bound).claims claimed)
          rintro rfl
          exact opened.own j bound claimed
    · exact region_claims_update (by simp [Task.claims])
    · intro trace out remains
      exact ⟨out,behind trace out remains,.inr rfl⟩

theorem Advance.inside (holds : (Task.region join next width child).Holds cfg fsm context (m.joins context) outer)
    (inside : i < width) (member : token ∈ (child i).tokens)
    (advance : Advance cfg fsm context m m' (some join) token (child i) task') :
    Advance cfg fsm context m m' outer token (.region join next width child)
      (.region join next width (Function.update child i task')) := by
  obtain ⟨opened,counted,_,children⟩ := holds
  obtain ⟨added,tokens,perm⟩ := advance.tokens
  obtain ⟨rest,split⟩ := items_update Task.tokens child inside
  have untouched (join' : Module) (registered : Registered fsm join') (free : join' ∉ (child i).claims cfg) :
      m'.joins context join'.name = m.joins context join'.name := advance.frame join' registered free
  refine ⟨advance.stays,advance.others,?_,⟨added,tokens,?_⟩,⟨?_,?_,⟨i,inside,?_⟩,?_⟩,
    region_claims_update advance.claims,fun mod => mentions_update inside (advance.mentions mod),
    fun own apart => apart_update inside advance.mentions (advance.apart own (apart.1 i inside)) apart,rfl,
    weight_update inside advance.lighter,?_⟩
  · intro join' registered free
    exact untouched join' registered fun claimed => free (.inr (.inr ⟨i,inside,claimed⟩))
  · have own := (split task').trans (perm.append_right rest)
    rw [List.append_assoc] at own
    exact own.trans ((items_erase _ split member).symm.append_left added)
  · refine opened.replace (fun j _ => claims_update advance.claims j) ?_
    intro state produced join' later
    exact untouched join' (opened.claims state produced later).2 fun claimed =>
      Set.disjoint_left.mp (opened.ahead i inside state produced) claimed later
  · rw [untouched join opened.registered (opened.own i inside),counted,
      joinData_update (Task.live_of_token member) advance.waits]
  · rw [Function.update_self]
    exact advance.waits
  · intro j bound
    by_cases same : j = i
    · subst same
      rw [Function.update_self]
      exact advance.holds
    · rw [Function.update_of_ne same]
      apply (children j bound).frame
      intro join' claimed
      exact untouched join' ((children j bound).claims claimed) fun own =>
        Set.disjoint_left.mp (opened.apart i inside j bound (Ne.symm same)) own claimed
  · intro trace out remains
    refine ⟨out,remains_lift inside token ?_ remains,.inr rfl⟩
    intro trace out remains
    obtain ⟨out',before,none | rfl⟩ := advance.remains trace out remains
    · cases none
    · exact before

/-- Whatever token of a request is performed, its tree advances. -/
theorem Task.Holds.step (same : m.world.fsm = fsm) (choice : Choice)
    (holds : task.Holds cfg fsm context (m.joins context) outer) (member : token ∈ task.tokens)
    (admitted : cfg.admits choice token) (further : token ≠ .calling (.endRequest context))
    (inner : ∀ join state, outer = some join → task ≠ .live (.calling (.run join context state)) .leave) :
    ∃ task', Advance cfg fsm context m ((m.take token).perform cfg choice token) outer token task task' := by
  induction task generalizing outer with
  | arrived state => cases member
  | live token' graph =>
    obtain rfl := List.mem_singleton.mp member
    apply live_advance same choice holds admitted further
    rintro join state around ⟨rfl,rfl⟩
    exact inner join state around rfl
  | region join next width child ih =>
    obtain ⟨i,inside,member⟩ := mem_region_tokens.mp member
    by_cases arrives : ∃ state, child i = .live (.calling (.run join context state)) .leave
    · obtain ⟨state,arrives⟩ := arrives
      rw [arrives] at member
      obtain rfl := List.mem_singleton.mp member
      exact arrive_advance same choice holds inside arrives
    · obtain ⟨task',advance⟩ := ih i (holds.2.2.2 i inside) member (by
        rintro join' state around arriving
        obtain rfl := Option.some.inj around
        exact arrives ⟨state,arriving⟩)
      exact ⟨_,advance.inside holds inside member⟩

end Advance

end Zerver.ForkJoin
