import Mathlib.Data.Int.CardIntervalMod
import Zerver.ForkJoinTurns
import Zerver.JoinArrivals

/-! A region that a request enters again. The counter and the flag of a join are cleared
by the reset of the context alone, so they go on counting through all its traversals. -/
namespace Zerver.ForkJoin

open Zerver.Fsm Zerver.Schedule
open Zerver.JoinArrivals (verdict)

section Log

variable (context : Nat) (join : Module)

/-- The state with which a token gives control to the join. -/
def arriving : Token → Option ModState
  | .calling (.run mod c lastModState) => if mod = join ∧ c = context then some lastModState else none
  | _ => none

/-- The state with which a token resumes the Fsm after the join. -/
def joining : Token → Option ModState
  | .onJoined mod state c => if mod = join ∧ c = context then some state else none
  | _ => none

def performed (f : Token → Option ModState) (log : List Event) : List ModState :=
  log.filterMap fun
    | .performed token => f token
    | .created _ _ => none

def arrivedWith (log : List Event) : List ModState := performed (arriving context join) log

def resumedWith (log : List Event) : List ModState := performed (joining context join) log

end Log

/-- The states of the continuations a join schedules: the counter is 16 bits wide and is
never set back, and the flag has seen all the arrivals. -/
def scheduledBy (active : UInt16) (arrived : List ModState) : List ModState :=
  ((List.range arrived.length).filter fun i => (i + 1) % 65536 = active.toNat).map fun i =>
    verdict (arrived.take (i + 1))

theorem arrivals_eq (log : List Event) (context : Nat) (join : Module) :
    arrivals log context join = (arrivedWith context join log).length := by
  rw [arrivals,arrivedWith,performed,List.length_filterMap_eq_countP]
  congr 1
  funext event
  cases event with
  | created c successor => rfl
  | performed token =>
    cases token with
    | calling call =>
      cases call with
      | run mod c lastModState => by_cases same : mod = join ∧ c = context <;> simp [arriving,same]
      | _ => rfl
    | _ => rfl

theorem resumes_eq (log : List Event) (context : Nat) (join : Module) :
    resumes log context join = (resumedWith context join log).length := by
  rw [resumes,resumedWith,performed,List.length_filterMap_eq_countP]
  congr 1
  funext event
  cases event with
  | created c successor => rfl
  | performed token =>
    cases token with
    | onJoined mod state c => by_cases same : mod = join ∧ c = context <;> simp [joining,same]
    | _ => rfl

theorem scheduledBy_append (active : UInt16) (arrived : List ModState) (lastModState : ModState) :
    scheduledBy active (arrived ++ [lastModState]) = scheduledBy active arrived ++
      if (arrived.length + 1) % 65536 = active.toNat then [verdict (arrived ++ [lastModState])] else [] := by
  have before : ((List.range arrived.length).filter fun i => (i + 1) % 65536 = active.toNat).map
      (fun i => verdict ((arrived ++ [lastModState]).take (i + 1))) = scheduledBy active arrived := by
    apply List.map_congr_left
    intro i member
    have inside := List.mem_range.mp (List.mem_filter.mp member).1
    rw [List.take_append_of_le_length (by omega)]
  rw [scheduledBy,List.length_append,List.length_singleton,List.range_succ,List.filter_append,List.map_append,
    before]
  congr 1
  have all : (arrived ++ [lastModState]).take (arrived.length + 1) = arrived ++ [lastModState] :=
    List.take_of_length_le (by simp)
  by_cases last : (arrived.length + 1) % 65536 = active.toNat <;> simp [last,all]

theorem Leaves.performed (leaves : Leaves m token m' new) (f : Token → Option ModState) :
    performed f m'.log = performed f m.log ++ (f token).toList := by
  obtain ⟨created,log,silent⟩ := leaves.log
  have none : created.filterMap (fun
      | .performed token => f token
      | .created _ _ => none) = [] := by
    rw [List.filterMap_eq_nil_iff]
    intro event member
    obtain ⟨c,successor,rfl⟩ := silent event member
    rfl
  rw [ForkJoin.performed,log,List.filterMap_append,ForkJoin.performed]
  congr 1
  rw [List.filterMap_cons]
  cases taken : f token <;> simp [none,taken]

theorem Leaves.conserved (leaves : Leaves m token m' new) (member : token ∈ m.tokens)
    (f : Token → Option ModState) :
    (ForkJoin.performed f m'.log ++ m'.tokens.filterMap f).Perm
      (ForkJoin.performed f m.log ++ m.tokens.filterMap f ++ new.filterMap f) := by
  have split := (List.perm_cons_erase member).filterMap f
  have taken : ((token :: m.tokens.erase token).filterMap f) =
      (f token).toList ++ (m.tokens.erase token).filterMap f := by
    rw [List.filterMap_cons]
    cases f token <;> rfl
  rw [taken] at split
  rw [leaves.performed,leaves.tokens,List.filterMap_append,List.append_assoc,List.append_assoc]
  refine List.Perm.append_left _ ?_
  refine (List.perm_append_comm_assoc _ _ _).trans ?_
  exact (split.symm.append_left _).trans List.perm_append_comm

section Join

variable {cfg : Config} {startMod endMod : Module} {calls : List Setup} {context : Nat} {join : Module}
  {m m' : Machine} {token : Token} {new : List Token}

/-- The data of the join, and its continuations, against the arrivals of the context. -/
structure Fits (cfg : Config) (context : Nat) (join : Module) (m : Machine) : Prop where
  data : m.joins context join.name = ⟨UInt16.ofNat (arrivedWith context join m.log).length,
    !(arrivedWith context join m.log).all (· == modSucceed)⟩
  scheduled : (resumedWith context join m.log ++ m.tokens.filterMap (joining context join)).Perm
    (scheduledBy (cfg.getActiveJoinNum context join) (arrivedWith context join m.log))

structure Untouched (context : Nat) (join : Module) (m : Machine) : Prop where
  arrived : arrivedWith context join m.log = []
  resumed : resumedWith context join m.log = []

/-- A context is not there yet, is about to be reset, or has been. Once it is served, every
join to be run under the name of the join is the join. -/
inductive Stage (cfg : Config) (context : Nat) (join : Module) (m : Machine) : Prop where
  | unborn : m.world.contexts ≤ context → (∀ t ∈ m.tokens, t.context ≠ context) →
      Untouched context join m → Stage cfg context join m
  | created : context < m.world.contexts →
      m.tokens.filter (·.context = context) = [.calling (.handleRequest context)] →
      Untouched context join m → Stage cfg context join m
  | serving : context < m.world.contexts → .calling (.handleRequest context) ∉ m.tokens →
      (∀ mod lastModState, .calling (.run mod context lastModState) ∈ m.tokens →
        cfg.kind mod = .join → mod.name = join.name → mod = join) →
      Fits cfg context join m → Stage cfg context join m

theorem eq_of_arriving {state : ModState} (arrives : arriving context join token = some state) :
    token = .calling (.run join context state) := by
  unfold arriving at arrives
  split at arrives
  · split at arrives
    · rename_i same
      rw [same.1,same.2,Option.some.inj arrives]
    · contradiction
  · contradiction

theorem eq_of_joining {state : ModState} (joins : joining context join token = some state) :
    token = .onJoined join state context := by
  unfold joining at joins
  split at joins
  · split at joins
    · rename_i same
      rw [same.1,same.2,Option.some.inj joins]
    · contradiction
  · contradiction

theorem arriving_other (other : token.context ≠ context) : arriving context join token = none := by
  by_contra some
  obtain ⟨state,some⟩ := Option.ne_none_iff_exists'.mp some
  exact other (by rw [eq_of_arriving some]; rfl)

theorem joining_other (other : token.context ≠ context) : joining context join token = none := by
  by_contra some
  obtain ⟨state,some⟩ := Option.ne_none_iff_exists'.mp some
  exact other (by rw [eq_of_joining some]; rfl)

theorem Follows.context_eq (follows : Follows fsm c token) : token.context = c := by
  cases token with
  | calling call =>
    cases call with
    | run mod c' lastModState => exact follows.1
    | endRequest c' => exact follows
    | handleRequest c' => exact follows.elim
    | resume lastMod state c' => exact follows.elim
  | onForked fork forkIndex c' => exact follows
  | onJoined other state c' => exact follows.elim
  | pending mod c' => exact follows

theorem Follows.not_joining (follows : Follows fsm c token) : joining context join token = none := by
  cases token with
  | onJoined other state c' => exact follows.elim
  | _ => rfl

theorem Leaves.performed_none (leaves : Leaves m token m' new) {f : Token → Option ModState}
    (none : f token = none) : ForkJoin.performed f m'.log = ForkJoin.performed f m.log := by
  rw [leaves.performed,none]
  exact List.append_nil _

theorem Leaves.tokens_other (leaves : Leaves m token m' new) (member : token ∈ m.tokens)
    (other : token.context ≠ context) (elsewhere : ∀ t ∈ new, t.context ≠ context) :
    (m'.tokens.filter (·.context = context)).Perm (m.tokens.filter (·.context = context)) := by
  have split := (List.perm_cons_erase member).filter (·.context = context)
  have none : new.filter (·.context = context) = [] := by
    rw [List.filter_eq_nil_iff]
    intro t here
    simpa using elsewhere t here
  rw [List.filter_cons_of_neg (by simpa using other)] at split
  rw [leaves.tokens,List.filter_append,none]
  exact split.symm

theorem filterMap_joining (tokens : List Token) :
    tokens.filterMap (joining context join) =
      (tokens.filter (·.context = context)).filterMap (joining context join) := by
  rw [List.filterMap_filter]
  apply List.filterMap_congr
  intro t _
  by_cases own : t.context = context
  · simp [own]
  · simp [own,joining_other own]

theorem Stage.other (stage : Stage cfg context join m) (leaves : Leaves m token m' new)
    (member : token ∈ m.tokens) (other : token.context ≠ context) (elsewhere : ∀ t ∈ new, t.context ≠ context)
    (joins : m'.joins context = m.joins context)
    (contexts : m'.world.contexts ≤ context ↔ m.world.contexts ≤ context) : Stage cfg context join m' := by
  have tokens := leaves.tokens_other member other elsewhere
  have mem (t : Token) (here : t.context = context) : t ∈ m'.tokens ↔ t ∈ m.tokens := by
    have same := tokens.mem_iff (a := t)
    simpa [here] using same
  have arrived : arrivedWith context join m'.log = arrivedWith context join m.log :=
    leaves.performed_none (arriving_other other)
  have resumed : resumedWith context join m'.log = resumedWith context join m.log :=
    leaves.performed_none (joining_other other)
  cases stage with
  | unborn later none untouched =>
    refine .unborn (contexts.mpr later) ?_ ⟨arrived.trans untouched.arrived,resumed.trans untouched.resumed⟩
    intro t here same
    exact none t ((mem t same).mp here) same
  | created born only untouched =>
    rw [only] at tokens
    exact .created (by omega) (List.perm_singleton.mp tokens)
      ⟨arrived.trans untouched.arrived,resumed.trans untouched.resumed⟩
  | serving born reset named fits =>
    refine .serving (by omega) ((mem _ rfl).not.mpr reset) ?_ ⟨?_,?_⟩
    · intro mod lastModState here
      exact named mod lastModState ((mem _ rfl).mp here)
    · rw [joins,arrived]
      exact fits.data
    · rw [arrived,resumed,filterMap_joining]
      refine List.Perm.trans ?_ fits.scheduled
      rw [filterMap_joining m.tokens]
      exact (tokens.filterMap _).append_left _

theorem Fits.arrive (fits : Fits cfg context join m) (member : token ∈ m.tokens) {lastModState : ModState}
    (runs : token = .calling (.run join context lastModState))
    (joins : m'.joins = (m.setData context join.name ((m.joins context join.name).arrive lastModState)).joins)
    (leaves : Leaves m token m'
      (if (m.joins context join.name).moduleJoinedNum + 1 = cfg.getActiveJoinNum context join then
        [.onJoined join ((m.joins context join.name).arrive lastModState).state context] else [])) :
    Fits cfg context join m' := by
  have arrived : arrivedWith context join m'.log = arrivedWith context join m.log ++ [lastModState] := by
    rw [arrivedWith,leaves.performed,runs]
    simp [arrivedWith,arriving]
  have data : (m.joins context join.name).arrive lastModState =
      ⟨UInt16.ofNat (arrivedWith context join m.log ++ [lastModState]).length,
        !(arrivedWith context join m.log ++ [lastModState]).all (· == modSucceed)⟩ := by
    rw [JoinData.arrive,fits.data]
    simp [UInt16.ofNat_add,bne]
  have state : ((m.joins context join.name).arrive lastModState).state =
      verdict (arrivedWith context join m.log ++ [lastModState]) := by
    rw [data,JoinData.state,verdict]
    cases (arrivedWith context join m.log ++ [lastModState]).all (· == modSucceed) <;> rfl
  have reached : (m.joins context join.name).moduleJoinedNum + 1 = cfg.getActiveJoinNum context join ↔
      ((arrivedWith context join m.log).length + 1) % 65536 = (cfg.getActiveJoinNum context join).toNat := by
    have next (n : Nat) : UInt16.ofNat n + 1 = UInt16.ofNat (n + 1) := (UInt16.ofNat_add n 1).symm
    rw [fits.data,next,← UInt16.toNat_inj,UInt16.toNat_ofNat']
  constructor
  · rw [joins,arrived,← data]
    simp [Machine.setData]
  · rw [arrived,scheduledBy_append]
    refine (leaves.conserved member (joining context join)).trans ?_
    refine fits.scheduled.append ?_
    simp only [reached,state]
    split <;> simp [joining]

theorem Fits.stay (fits : Fits cfg context join m) (member : token ∈ m.tokens)
    (silent : arriving context join token = none) (joins : m'.joins context join.name = m.joins context join.name)
    (quiet : ∀ t ∈ new, joining context join t = none) (leaves : Leaves m token m' new) :
    Fits cfg context join m' := by
  have arrived : arrivedWith context join m'.log = arrivedWith context join m.log := leaves.performed_none silent
  have none : new.filterMap (joining context join) = [] := List.filterMap_eq_nil_iff.mpr quiet
  constructor
  · rw [joins,arrived]
    exact fits.data
  · rw [arrived]
    refine (leaves.conserved member (joining context join)).trans ?_
    rw [none,List.append_nil]
    exact fits.scheduled

theorem Untouched.renewed (untouched : Untouched context join m)
    (only : m.tokens.filter (·.context = context) = [.calling (.handleRequest context)])
    (runs : token = .calling (.handleRequest context)) (member : token ∈ m.tokens)
    (joins : m'.joins = Function.update m.joins context (fun _ => .reset))
    (leaves : Leaves m token m' [.calling (.run startMod context modStart)])
    (born : context < m'.world.contexts) (named : cfg.kind startMod = .join → startMod.name = join.name → startMod = join) :
    Stage cfg context join m' := by
  have arrived : arrivedWith context join m'.log = [] := by
    rw [arrivedWith,leaves.performed,runs]
    exact congrArg (· ++ _) untouched.arrived
  have resumed : resumedWith context join m'.log = [] := by
    rw [resumedWith,leaves.performed,runs]
    exact congrArg (· ++ _) untouched.resumed
  have others (t : Token) (here : t.context = context) (left : t ∈ m'.tokens) :
      t = .calling (.run startMod context modStart) := by
    rw [leaves.tokens] at left
    rcases List.mem_append.mp left with new | old
    · exact List.mem_singleton.mp new
    · have rest := (List.perm_cons_erase member).filter (·.context = context)
      rw [only,List.filter_cons_of_pos (by simp [runs,Token.context,callContext]),runs] at rest
      have empty := List.perm_nil.mp (List.perm_cons _ |>.mp rest.symm)
      have : t ∈ (m.tokens.erase (.calling (.handleRequest context))).filter (·.context = context) :=
        List.mem_filter.mpr ⟨runs ▸ old,by simpa using here⟩
      rw [empty] at this
      simp at this
  refine .serving born ?_ ?_ ⟨?_,?_⟩
  · intro left
    exact absurd (others _ rfl left) (by simp)
  · intro mod lastModState left
    obtain ⟨rfl,_,_⟩ := Call.run.inj (Token.calling.inj (others _ rfl left))
    exact named
  · rw [arrived,joins]
    simp [JoinData.reset]
  · have silent : m'.tokens.filterMap (joining context join) = [] := by
      rw [filterMap_joining,List.filterMap_eq_nil_iff]
      intro t left
      obtain ⟨left,here⟩ := List.mem_filter.mp left
      rw [others t (by simpa using here) left]
      rfl
    rw [arrived,resumed,silent]
    exact List.Perm.refl _

theorem Stage.serve (born : context < m'.world.contexts) (reset : .calling (.handleRequest context) ∉ m.tokens)
    (named : ∀ mod lastModState, .calling (.run mod context lastModState) ∈ m.tokens →
      cfg.kind mod = .join → mod.name = join.name → mod = join) (leaves : Leaves m token m' new)
    (fresh : .calling (.handleRequest context) ∉ new)
    (named' : ∀ mod lastModState, .calling (.run mod context lastModState) ∈ new →
      cfg.kind mod = .join → mod.name = join.name → mod = join) (fits : Fits cfg context join m') : Stage cfg context join m' := by
  refine .serving born ?_ ?_ fits
  · rw [leaves.tokens]
    intro left
    rcases List.mem_append.mp left with here | old
    · exact fresh here
    · exact reset (List.mem_of_mem_erase old)
  · intro mod lastModState left
    rw [leaves.tokens] at left
    rcases List.mem_append.mp left with here | old
    · exact named' mod lastModState here
    · exact named mod lastModState (List.mem_of_mem_erase old)

/-- What a token can belong to: the reset of its context, or a context that is served. -/
theorem Stage.own (stage : Stage cfg context join m) (member : token ∈ m.tokens) (own : token.context = context) :
    context < m.world.contexts ∧
    ((token = .calling (.handleRequest context) ∧
        m.tokens.filter (·.context = context) = [.calling (.handleRequest context)] ∧ Untouched context join m) ∨
      (.calling (.handleRequest context) ∉ m.tokens ∧
        (∀ mod lastModState, .calling (.run mod context lastModState) ∈ m.tokens →
          cfg.kind mod = .join → mod.name = join.name → mod = join) ∧ Fits cfg context join m)) := by
  cases stage with
  | unborn later none untouched => exact absurd own (none token member)
  | created born only untouched =>
    have here : token ∈ m.tokens.filter (·.context = context) := List.mem_filter.mpr ⟨member,by simpa using own⟩
    rw [only] at here
    exact ⟨born,.inl ⟨List.mem_singleton.mp here,only,untouched⟩⟩
  | serving born reset named fits => exact ⟨born,.inr ⟨reset,named,fits⟩⟩

theorem renewed_stage (named : cfg.kind startMod = .join → startMod.name = join.name → startMod = join)
    (extended : Extends (configure startMod endMod calls) m.world.fsm) (member : token ∈ m.tokens)
    (c : Nat) (runs : token = .calling (.handleRequest c))
    (joins : m'.joins = Function.update m.joins c (fun _ => .reset))
    (contexts : m'.world.contexts = m.world.contexts)
    (leaves : Leaves m token m' [.calling (.run m.world.fsm.startMod c modStart)])
    (stage : Stage cfg context join m) : Stage cfg context join m' := by
  have start : m.world.fsm.startMod = startMod :=
    extended.startMod.trans (configure_configured startMod endMod calls).startMod
  rw [start] at leaves
  by_cases own : c = context
  · subst own
    obtain ⟨born,⟨_,only,untouched⟩ | ⟨reset,_,_⟩⟩ := stage.own member (by rw [runs]; rfl)
    · exact untouched.renewed only runs member joins leaves (by omega) named
    · exact absurd (runs ▸ member) reset
  · apply stage.other leaves member (by rw [runs]; exact own) _ _ (by rw [contexts])
    · simpa [Token.context,callContext] using own
    · rw [joins,Function.update_of_ne (Ne.symm own)]

theorem joined_stage (member : token ∈ m.tokens) (mod : Module) (c : Nat) (lastModState : ModState)
    (kind : cfg.kind mod = .join) (runs : token = .calling (.run mod c lastModState))
    (joins : m'.joins = (m.setData c mod.name ((m.joins c mod.name).arrive lastModState)).joins)
    (contexts : m'.world.contexts = m.world.contexts)
    (leaves : Leaves m token m' (if (m.joins c mod.name).moduleJoinedNum + 1 = cfg.getActiveJoinNum c mod then
      [.onJoined mod ((m.joins c mod.name).arrive lastModState).state c] else []))
    (stage : Stage cfg context join m) : Stage cfg context join m' := by
  by_cases own : c = context
  · subst own
    obtain ⟨born,⟨same,_,_⟩ | ⟨reset,named,fits⟩⟩ := stage.own member (by rw [runs]; rfl)
    · rw [runs] at same
      cases same
    · refine Stage.serve (by omega) reset named leaves ?_ ?_ ?_
      · split <;> simp
      · intro other state here
        split at here <;> simp at here
      · by_cases same : mod = join
        · subst same
          exact fits.arrive member runs joins leaves
        · have apart : mod.name ≠ join.name := fun name => same (named mod lastModState (runs ▸ member) kind name)
          refine fits.stay member ?_ ?_ ?_ leaves
          · simp [runs,arriving,same]
          · rw [joins]
            simp [Machine.setData,Function.update_of_ne (Ne.symm apart)]
          · intro t here
            split at here
            · rw [List.mem_singleton.mp here]
              simp [joining,same]
            · simp at here
  · apply stage.other leaves member (by rw [runs]; exact own) _ _ (by rw [contexts])
    · intro t here
      split at here
      · rw [List.mem_singleton.mp here]
        exact own
      · simp at here
    · rw [joins]
      simp [Machine.setData,Function.update_of_ne (Ne.symm own)]

theorem created_stage (member : token ∈ m.tokens) (c : Nat) (runs : token = .calling (.endRequest c))
    (joins : m'.joins = m.joins) (contexts : m'.world.contexts = m.world.contexts + 1)
    (leaves : Leaves m token m' [.calling (.handleRequest m.world.contexts)])
    (stage : Stage cfg context join m) : Stage cfg context join m' := by
  by_cases own : c = context
  · subst own
    obtain ⟨born,⟨same,_,_⟩ | ⟨reset,named,fits⟩⟩ := stage.own member (by rw [runs]; rfl)
    · rw [runs] at same
      cases same
    · refine Stage.serve (by omega) reset named leaves ?_ (by simp) (fits.stay member ?_ (by rw [joins]) ?_ leaves)
      · simp
        omega
      · rw [runs]
        rfl
      · simp [joining]
  · have other : token.context ≠ context := by rw [runs]; exact own
    by_cases fresh : m.world.contexts = context
    · subst fresh
      cases stage with
      | unborn _ none untouched =>
        refine .created (by omega) ?_ ⟨?_,?_⟩
        · have old : (m.tokens.erase token).filter (·.context = m.world.contexts) = [] := by
            rw [List.filter_eq_nil_iff]
            intro t left
            simpa using none t (List.mem_of_mem_erase left)
          rw [leaves.tokens,List.filter_append,old]
          simp [Token.context,callContext]
        · exact (leaves.performed_none (arriving_other other)).trans untouched.arrived
        · exact (leaves.performed_none (joining_other other)).trans untouched.resumed
      | created born _ _ => omega
      | serving born _ _ _ => omega
    · apply stage.other leaves member other _ (by rw [joins]) (by omega)
      simpa [Token.context,callContext] using fresh

theorem went_stage (registered : Registered (configure startMod endMod calls) join) (kind : cfg.kind join = .join)
    (extended : Extends (configure startMod endMod calls) m.world.fsm) (member : token ∈ m.tokens)
    (new : List Token) (served : ∀ c, token ≠ .calling (.handleRequest c))
    (apart : ∀ join c lastModState, token = .calling (.run join c lastModState) → cfg.kind join = .join →
      m.dataKind cfg join ≠ some .join)
    (joins : m'.joins = m.joins) (contexts : m'.world.contexts = m.world.contexts)
    (follows : ∀ t ∈ new, Follows (configure startMod endMod calls) token.context t)
    (leaves : Leaves m token m' new) (stage : Stage cfg context join m) : Stage cfg context join m' := by
  have here (t : Token) (left : t ∈ new) : t.context = token.context := (follows t left).context_eq
  by_cases own : token.context = context
  · obtain ⟨born,⟨same,_,_⟩ | ⟨reset,named,fits⟩⟩ := stage.own member own
    · exact absurd same (served _)
    · refine Stage.serve (by omega) reset named leaves ?_ ?_ (fits.stay member ?_ (by rw [joins]) ?_ leaves)
      · exact fun left => follows _ left
      · intro mod lastModState left _
        exact (follows _ left).2.name_injective registered
      · -- The join has the data of a join, so it does not crash.
        by_contra arrives
        obtain ⟨state,arrives⟩ := Option.ne_none_iff_exists'.mp arrives
        refine apart join context state (eq_of_arriving arrives) kind ?_
        have data : (m.world.fsm.modMap.lookup join.name).join = some join := by
          rw [extended.modMap,registered]
          rfl
        rw [Machine.dataKind,data]
        exact congrArg some kind
      · exact fun t left => (follows t left).not_joining
  · apply stage.other leaves member own _ (by rw [joins]) (by rw [contexts])
    intro t left
    rw [here t left]
    exact own

theorem step_stage (registered : Registered (configure startMod endMod calls) join)
    (kind : cfg.kind join = .join) (named : cfg.kind startMod = .join → startMod.name = join.name → startMod = join)
    (extended : Extends (configure startMod endMod calls) m.world.fsm) (member : token ∈ m.tokens)
    (turn : Turn cfg (configure startMod endMod calls) m token m') (stage : Stage cfg context join m) :
    Stage cfg context join m' := by
  cases turn with
  | renewed c runs joins contexts leaves =>
    exact renewed_stage named extended member c runs joins contexts leaves stage
  | joined mod c lastModState runs kind joins contexts leaves =>
    exact joined_stage member mod c lastModState kind runs joins contexts leaves stage
  | created c runs joins contexts leaves => exact created_stage member c runs joins contexts leaves stage
  | went new served apart joins contexts follows leaves =>
    exact went_stage registered kind extended member new served apart joins contexts follows leaves stage

theorem step_extended_stage (registered : Registered (configure startMod endMod calls) join)
    (kind : cfg.kind join = .join) (named : cfg.kind startMod = .join → startMod.name = join.name → startMod = join) (m : Machine)
    (turn : Token × Choice)
    (both : Extends (configure startMod endMod calls) m.world.fsm ∧ Stage cfg context join m) :
    Extends (configure startMod endMod calls) (step cfg m turn).world.fsm ∧
      Stage cfg context join (step cfg m turn) := by
  obtain ⟨extended,stage⟩ := both
  unfold step
  split
  · rename_i enabled
    obtain ⟨inverted,later⟩ := perform_turn cfg extended turn.2 turn.1
    exact ⟨later,step_stage registered kind named extended enabled.2.1 inverted stage⟩
  · exact ⟨extended,stage⟩

theorem start_stage (cfg : Config) (fsm : Fsm) (joins : Nat → String → JoinData) (context : Nat)
    (join : Module) : Stage cfg context join (start fsm joins) := by
  by_cases first : context = 0
  · subst first
    exact .created (by simp [start]) (by simp [start,Token.context,callContext]) ⟨rfl,rfl⟩
  · refine .unborn (Nat.one_le_iff_ne_zero.mpr first) ?_ ⟨rfl,rfl⟩
    intro t member
    rw [List.mem_singleton.mp member]
    exact Ne.symm first

theorem execute_stage (registered : Registered (configure startMod endMod calls) join)
    (kind : cfg.kind join = .join) (named : cfg.kind startMod = .join → startMod.name = join.name → startMod = join)
    (joins : Nat → String → JoinData) (turns : List (Token × Choice)) :
    Stage cfg context join (execute (step cfg) (start (configure startMod endMod calls) joins) turns) :=
  (execute_invariant (step_extended_stage registered kind named)
    ⟨Extends.refl _,start_stage cfg _ joins context join⟩ turns).2

theorem Stage.resumed (stage : Stage cfg context join m) :
    (resumedWith context join m.log ++ m.tokens.filterMap (joining context join)).Perm
      (scheduledBy (cfg.getActiveJoinNum context join) (arrivedWith context join m.log)) := by
  cases stage with
  | unborn _ none untouched =>
    have silent : m.tokens.filterMap (joining context join) = [] := by
      rw [List.filterMap_eq_nil_iff]
      exact fun t member => joining_other (none t member)
    rw [untouched.arrived,untouched.resumed,silent]
    exact List.Perm.refl _
  | created _ only untouched =>
    rw [filterMap_joining,only,untouched.arrived,untouched.resumed]
    exact List.Perm.refl _
  | serving _ _ _ fits => exact fits.scheduled

end Join

/-- Up to the active number of arrivals, only the last one schedules. -/
theorem scheduledBy_first (active : UInt16) (waits : 0 < active) (arrived : List ModState)
    (few : arrived.length ≤ active.toNat) :
    scheduledBy active arrived = if arrived.length = active.toNat then [verdict arrived] else [] := by
  have positive : 0 < active.toNat := UInt16.lt_iff_toNat_lt.mp waits
  have small := active.toNat_lt
  induction arrived using List.reverseRecOn with
  | nil =>
    rw [if_neg (by simp; omega)]
    rfl
  | append_singleton arrived last ih =>
    rw [List.length_append,List.length_singleton] at few ⊢
    rw [scheduledBy_append,ih (by omega),if_neg (by omega),Nat.mod_eq_of_lt (by omega)]
    rfl

/-- Of `times` traversals, all but those that wrap the counter go unresumed. -/
theorem scheduledBy_length (active : UInt16) (waits : 0 < active) (arrived : List ModState) (times : Nat)
    (all : arrived.length = times * active.toNat) (again : 1 < times) :
    (scheduledBy active arrived).length < times := by
  have small := active.toNat_lt
  have positive : 0 < active.toNat := UInt16.lt_iff_toNat_lt.mp waits
  have counted : (scheduledBy active arrived).length =
      (times * active.toNat).count (· ≡ active.toNat - 1 [MOD 65536]) := by
    rw [scheduledBy,List.length_map,all,Nat.count_eq_card_filter_range]
    change _ = ((List.range _).filter _).length
    congr 1
    apply List.filter_congr
    intro i _
    rw [decide_eq_decide]
    change _ ↔ i % 65536 = (active.toNat - 1) % 65536
    omega
  obtain ⟨rest,split⟩ : ∃ rest, active.toNat + rest = 65536 := ⟨65536 - active.toNat,by omega⟩
  have product : times * active.toNat + times * rest = times * 65536 := by
    rw [← split,Nat.mul_add]
  have wide : times ≤ times * rest := Nat.le_mul_of_pos_right times (by omega)
  have wider : 2 * rest ≤ times * rest := Nat.mul_le_mul_right rest again
  rw [counted,Nat.count_modEq_card _ (by omega),Nat.mod_eq_of_lt (by omega : active.toNat - 1 < 65536)]
  generalize times * rest = r at product wide wider
  generalize times * active.toNat = a at product
  split <;> omega

/-- A fork and a join that wait for the same number of branches. The data under the name of
the join are its own. -/
structure Region (cfg : Config) (fsm : Fsm) (context : Nat) (fork join : Module) (active : UInt16) : Prop where
  waits : 0 < active
  forkKind : ∃ forkNum, cfg.kind fork = .fork forkNum ∧ active ≤ forkNum
  joinKind : cfg.kind join = .join
  registered : Registered fsm fork ∧ Registered fsm join
  named : fsm.startMod.name = join.name → fsm.startMod = join
  forkNum : cfg.getActiveForkNum context fork = active
  joinNum : cfg.getActiveJoinNum context join = active

def enters (context : Nat) (fork : Module) : Event → Bool
  | .performed (.calling (.run mod c _)) => mod = fork ∧ c = context
  | _ => false

def entries (log : List Event) (context : Nat) (fork : Module) : Nat := log.countP (enters context fork)

/-- The walk has entered the region `times` times, each time with all the branches of the
entries before at the join. By now all branches are there, and the join has resumed for
those it will resume for. -/
structure Traversed (context : Nat) (fork join : Module) (active : UInt16) (times : Nat) (m : Machine) : Prop where
  entered : entries m.log context fork = times
  joined : arrivals m.log context join = times * active.toNat
  between : ∀ i < m.log.length, (m.log[i]?).any (enters context fork) →
    arrivals (m.log.take i) context join = entries (m.log.take i) context fork * active.toNat
  resumed : m.tokens.filterMap (joining context join) = []

/-- Once for each traversal, with the state its own branches lead to. -/
def Rejoined (context : Nat) (join : Module) (active : UInt16) (times : Nat) (m : Machine) : Prop :=
  resumedWith context join m.log = (List.range times).map fun j =>
    verdict (((arrivedWith context join m.log).drop (j * active.toNat)).take active.toNat)

instance (context : Nat) (join : Module) (active : UInt16) (times : Nat) (m : Machine) :
    Decidable (Rejoined context join active times m) := inferInstanceAs (Decidable (_ = _))

/-- In every run of every Fsm, a join resumes once for each traversal of its region exactly
when the region is entered at most once. -/
theorem rejoined_iff (cfg : Config) (startMod endMod : Module) (calls : List Setup)
    (joins : Nat → String → JoinData) (turns : List (Token × Choice)) (context : Nat) (fork join : Module)
    (active : UInt16) (times : Nat)
    (region : Region cfg (configure startMod endMod calls) context fork join active) :
    let m := execute (step cfg) (start (configure startMod endMod calls) joins) turns
    Traversed context fork join active times m → (Rejoined context join active times m ↔ times ≤ 1) := by
  intro m traversed
  have named : startMod.name = join.name → startMod = join := by
    simpa only [(configure_configured startMod endMod calls).startMod] using region.named
  have stage : Stage cfg context join m :=
    execute_stage region.registered.2 region.joinKind (fun _ => named) joins turns
  have scheduled := stage.resumed
  rw [traversed.resumed,List.append_nil,region.joinNum] at scheduled
  have all : (arrivedWith context join m.log).length = times * active.toNat :=
    (arrivals_eq m.log context join).symm.trans traversed.joined
  constructor
  · -- The counter has passed the active number and does not come back to it soon enough.
    intro rejoined
    by_contra again
    have short := scheduledBy_length active region.waits _ times all (by omega)
    have long := scheduled.length_eq
    rw [rejoined,List.length_map,List.length_range] at long
    omega
  · intro once
    have first := scheduledBy_first active region.waits (arrivedWith context join m.log)
      (by rw [all]; exact (Nat.mul_le_mul_right _ once).trans (Nat.one_mul _).le)
    rw [first] at scheduled
    have positive : 0 < active.toNat := UInt16.lt_iff_toNat_lt.mp region.waits
    obtain rfl | rfl : times = 0 ∨ times = 1 := by omega
    · rw [if_neg (by omega)] at scheduled
      exact List.perm_nil.mp scheduled
    · rw [if_pos (by omega)] at scheduled
      have taken : (arrivedWith context join m.log).take active.toNat = arrivedWith context join m.log :=
        List.take_of_length_le (by omega)
      rw [Rejoined,List.perm_singleton.mp scheduled]
      simp [taken]

section Retry

def fetchFork : Module := ⟨0,"fetch_fork"⟩
def fetchMod : Module := ⟨1,"fetch"⟩
def fetchJoin : Module := ⟨2,"fetch_join"⟩
def doneMod : Module := ⟨3,"done"⟩

def fetchConfig : Config where
  kind mod := if mod = fetchFork then .fork 2 else if mod = fetchJoin then .join else .sequential
  getActiveForkNum _ _ := 2
  getActiveJoinNum _ _ := 2
  states _ state := state == modSucceed || state == modFailed

/-- A failed fetch is tried again. -/
def fetchCalls : List Setup :=
  ([fetchFork,fetchMod,fetchJoin,doneMod].map .addModule) ++
  [.linkModule fetchFork fetchMod modFork0,.linkModule fetchFork fetchMod (modFork0 + 1),
    .linkModule fetchMod fetchJoin modElse,.linkModule fetchJoin doneMod modSucceed,
    .linkModule fetchJoin fetchFork modFailed]

theorem fetch_region (context : Nat) :
    Region fetchConfig (configure fetchFork doneMod fetchCalls) context fetchFork fetchJoin 2 :=
  ⟨by decide,⟨2,rfl,UInt16.le_refl _⟩,rfl,⟨rfl,rfl⟩,by decide,rfl,rfl⟩

def fetchTurns (lastModState first second : ModState) : List (Token × Choice) :=
  [(.calling (.run fetchFork 0 lastModState),⟨modSucceed,false,false⟩),
    (.onForked fetchFork (modFork0 + 1) 0,⟨modSucceed,false,false⟩),
    (.onForked fetchFork modFork0 0,⟨modSucceed,false,false⟩),
    (.calling (.run fetchMod 0 modFork0),⟨first,false,false⟩),
    (.calling (.run fetchMod 0 (modFork0 + 1)),⟨second,false,false⟩),
    (.calling (.run fetchJoin 0 first),⟨modSucceed,false,false⟩),
    (.calling (.run fetchJoin 0 second),⟨modSucceed,false,false⟩)]

def fetchOnce : List (Token × Choice) :=
  (.calling (.handleRequest 0),⟨modSucceed,false,false⟩) :: fetchTurns modStart modSucceed modFailed ++
    [(.onJoined fetchJoin modFailed 0,⟨modSucceed,false,false⟩)]

theorem fetch_once_rejoined :
    let m := execute (step fetchConfig) (start (configure fetchFork doneMod fetchCalls) fun _ _ => .reset) fetchOnce
    Rejoined 0 fetchJoin 2 1 m :=
  (rejoined_iff fetchConfig fetchFork doneMod fetchCalls (fun _ _ => .reset) fetchOnce 0 fetchFork fetchJoin 2 1
    (fetch_region 0) ⟨by decide,by decide,by decide,by decide⟩).mpr le_rfl

/-- The second attempt succeeds in both branches, and the request hangs. -/
theorem fetch_retry_hangs :
    let m := execute (step fetchConfig) (start (configure fetchFork doneMod fetchCalls) fun _ _ => .reset)
      (fetchOnce ++ fetchTurns modFailed modSucceed modSucceed)
    Region fetchConfig (configure fetchFork doneMod fetchCalls) 0 fetchFork fetchJoin 2 ∧
      Traversed 0 fetchFork fetchJoin 2 2 m ∧ resumes m.log 0 fetchJoin = 1 ∧ m.tokens = [] ∧
      m.crashed = false ∧ ¬ Rejoined 0 fetchJoin 2 2 m := by
  refine ⟨fetch_region 0,⟨by decide,by decide,by decide,by decide⟩,?_⟩
  exact ⟨by decide,by decide,by decide,by decide⟩

end Retry

end Zerver.ForkJoin
