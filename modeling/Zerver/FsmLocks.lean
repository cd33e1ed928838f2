import Mathlib.Data.Nat.Find
import Mathlib.Logic.Function.Iterate
import Zerver.Fsm

/-! The locks of a call tree. A `TcpModule` handler takes the lock of its `ModuleData`
and calls `Fsm::resume` with it held; `TcpModule::run` takes the same lock for itself.
Everything between the two is a chain of tail calls, so the tree is run one call at a
time with the locks that its open frames hold. -/
namespace Zerver.FsmLocks

open Zerver.Fsm

/-- `lock_` of the `ModuleData` that `get_module_data(name())` gives in a context. -/
structure Lock where
  context : Nat
  name : String
  deriving DecidableEq, Repr

/-- What one `run` does. A `TcpModule` without a client type fails before it takes its
lock; with one it fails or starts an operation. Any other module returns a state. -/
structure Choice where
  typed : Bool
  opened : Bool
  state : ModState
  exit : Bool
  deriving DecidableEq, Repr

def Choice.produces (choice : Choice) (tcp : Bool) : ModState :=
  if tcp then if choice.typed && choice.opened then modAsync else modFailed else choice.state

def Choice.locks (choice : Choice) (tcp : Bool) : Bool := tcp && choice.typed

/-- `handler` is a completion handler about to be entered, which then resumes the Fsm or
returns; `inside` is a `TcpModule::run` that has its lock. -/
inductive Control where
  | handler (mod : Module) (context : Nat) (resumes : Option ModState)
  | calling (call : Call)
  | inside (mod : Module) (context : Nat)
  | returned
  | crashed
  | blocked (lock : Lock)
  deriving DecidableEq, Repr

structure Tree where
  world : World
  held : List Lock
  runs : Nat
  control : Control

def Tree.acquire (t : Tree) (lock : Lock) (next : Control) : Tree :=
  if lock ∈ t.held then { t with control := .blocked lock }
  else { t with held := lock :: t.held, control := next }

def Tree.follow (t : Tree) (next : Outcome × World) : Tree where
  world := next.2
  held := t.held
  runs := t.runs
  control :=
    match next.1 with
    | .call call => .calling call
    | .returned => .returned
    | .crashed => .crashed

section Run

variable (tcp : Module → Bool) (choose : Nat → Choice)

def Tree.leave (t : Tree) (mod : Module) (context : Nat) : Tree :=
  let choice := choose t.runs
  let world := if choice.exit then t.world.exit context else t.world
  { t with runs := t.runs + 1 }.follow (world.afterRun mod (choice.produces (tcp mod)) context)

def step (t : Tree) : Tree :=
  match t.control with
  | .handler mod context resumes =>
    let next := match resumes with
      | some state => .calling (.resume mod state context)
      | none => .returned
    if tcp mod then t.acquire ⟨context,mod.name⟩ next else { t with control := next }
  | .calling (.run mod context _) =>
    if (choose t.runs).locks (tcp mod) then t.acquire ⟨context,mod.name⟩ (.inside mod context)
    else t.leave tcp choose mod context
  | .inside mod context => { t with held := t.held.tail }.leave tcp choose mod context
  | .calling (.handleRequest context) => t.follow (t.world.handleRequest context)
  | .calling (.resume lastMod state context) => t.follow (t.world.resume lastMod state context)
  | .calling (.endRequest context) => t.follow (t.world.endRequest context)
  | .returned => { t with held := [] }
  | .crashed | .blocked _ => t

/-- The call tree of a completion handler, which the io_service enters with no lock. -/
def tree (w : World) (mod : Module) (context : Nat) (resumes : Option ModState) (k : Nat) : Tree :=
  (step tcp choose)^[k] ⟨w,[],0,.handler mod context resumes⟩

/-- The module behind a link; the request leaves the graph at `end_mod_`. -/
def hop (fsm : Fsm) (mod : Module) (state : ModState) : Option Module :=
  if mod = fsm.endMod then none else fsm.route mod state

/-- The n-th module that the links lead to from `mod` in one context, by the state it
resumes with and then by what the modules return, as long as they return directly. -/
def visit (fsm : Fsm) (mod : Module) (state : ModState) : Nat → Option Module
  | 0 => hop fsm mod state
  | n + 1 => (visit fsm mod state n).bind fun last =>
      if (choose n).produces (tcp last) = modAsync then none
      else hop fsm last ((choose n).produces (tcp last))

/-- The direct continuation runs into `mod` itself with a client type. -/
def ComesBack (fsm : Fsm) (mod : Module) (state : ModState) : Prop :=
  ∃ n last, visit tcp choose fsm mod state n = some last ∧ (choose n).locks (tcp last) = true ∧
    last.name = mod.name

end Run

theorem hop_extends (extended : Extends fsm next) (mod : Module) (state : ModState) :
    hop next mod state = hop fsm mod state := by
  unfold hop
  rw [extended.endMod,extended.route]

theorem resume_cases (w : World) (mod : Module) (state : ModState) (context : Nat) :
    (∃ next, hop w.fsm mod state = some next ∧
      w.resume mod state context = (.call (.run next context state),w)) ∨
    ∃ w', hop w.fsm mod state = none ∧
      w.resume mod state context = (.call (.endRequest context),w') ∧
      Extends w.fsm w'.fsm ∧ w'.contexts = w.contexts := by
  have continued := w.resume_continued mod state context
  generalize w.resume mod state context = next at continued ⊢
  cases continued with
  | atEnd atEnd => exact .inr ⟨w,by simp [hop,atEnd],rfl,.refl w.fsm,rfl⟩
  | linked inner route =>
    rename_i target
    exact .inl ⟨target,by rw [hop,if_neg inner,route],rfl⟩
  | unlinked table inner route extended => exact .inr ⟨_,by rw [hop,if_neg inner,route],rfl,extended,rfl⟩

/-- The calls that are not in the handler's context, or only end its request. -/
def Elsewhere (context : Nat) : Call → Prop
  | .handleRequest other => other ≠ context
  | .run _ other _ => other ≠ context
  | .resume _ _ other => other ≠ context
  | .endRequest _ => True

section Stages

variable (tcp : Module → Bool) (choose : Nat → Choice) (fsm : Fsm) (mod : Module) (state : ModState)
  (context : Nat) (held : List Lock)

/-- Where the tree of a handler that resumes with `held` is: still on the links from its
module, or past the end of its request. -/
inductive Stage : Tree → Prop where
  | resuming : t.control = .calling (.resume mod state context) → t.runs = 0 → t.held = held → Stage t
  | running (last : Module) (lastModState : ModState) :
      t.control = .calling (.run last context lastModState) →
      visit tcp choose fsm mod state t.runs = some last → t.held = held → Stage t
  | inside (last : Module) : t.control = .inside last context →
      visit tcp choose fsm mod state t.runs = some last → t.held = ⟨context,last.name⟩ :: held → Stage t
  | elsewhere (call : Call) : t.control = .calling call → Elsewhere context call → t.held = held → Stage t
  | insideOther (last : Module) (other : Nat) : t.control = .inside last other → other ≠ context →
      t.held = ⟨other,last.name⟩ :: held → Stage t
  | finished : t.control = .returned ∨ t.control = .crashed → Stage t

structure Ready (t : Tree) : Prop where
  fsm : Extends fsm t.world.fsm
  context : context < t.world.contexts

end Stages

variable {tcp : Module → Bool} {choose : Nat → Choice} {fsm : Fsm} {mod : Module} {state : ModState}
  {context : Nat} {held : List Lock} {t : Tree}

theorem exit_ready (ready : Ready fsm context t) (exit : Bool) (other : Nat) :
    Extends fsm (if exit then t.world.exit other else t.world).fsm ∧
      context < (if exit then t.world.exit other else t.world).contexts := by
  cases exit with
  | true => exact ⟨ready.fsm,ready.context⟩
  | false => exact ⟨ready.fsm,ready.context⟩

/-- After a `run` the tree is over, at the module behind the link, or at the end of the
request; its locks are as they were. -/
theorem leave_cases (tcp : Module → Bool) (choose : Nat → Choice) (ready : Ready fsm context t) (last : Module) (other : Nat) :
    let s := t.leave tcp choose last other
    let produced := (choose t.runs).produces (tcp last)
    Ready fsm context s ∧ s.held = t.held ∧ s.runs = t.runs + 1 ∧
      ((produced = modAsync ∧ s.control = .returned) ∨
        (hop fsm last produced = none ∧ s.control = .calling (.endRequest other)) ∨
        ∃ next, produced ≠ modAsync ∧ hop fsm last produced = some next ∧
          s.control = .calling (.run next other produced)) := by
  intro s produced
  obtain ⟨extended,exists'⟩ := exit_ready ready (choose t.runs).exit other
  simp only [s,Tree.leave]
  generalize (if (choose t.runs).exit then t.world.exit other else t.world) = w at extended exists' ⊢
  by_cases async : produced = modAsync
  · have returned : w.afterRun last produced other = (.returned,w) := by simp [World.afterRun,async]
    simp only [produced] at returned
    rw [returned]
    exact ⟨⟨extended,exists'⟩,rfl,rfl,.inl ⟨async,rfl⟩⟩
  · have goes := World.afterRun_eq_resume last produced other w async
    simp only [produced] at goes
    rw [goes]
    rcases resume_cases w last produced other with ⟨next,edge,eq⟩ | ⟨w',edge,eq,more,contexts⟩
    · simp only [produced] at eq
      rw [eq]
      rw [hop_extends extended] at edge
      exact ⟨⟨extended,exists'⟩,rfl,rfl,.inr (.inr ⟨next,async,edge,rfl⟩)⟩
    · simp only [produced] at eq
      rw [eq]
      rw [hop_extends extended] at edge
      exact ⟨⟨extended.trans more,contexts ▸ exists'⟩,rfl,rfl,.inr (.inl ⟨edge,rfl⟩)⟩

theorem visit_succ (here : visit tcp choose fsm mod state n = some last)
    (direct : (choose n).produces (tcp last) ≠ modAsync) :
    visit tcp choose fsm mod state (n + 1) = hop fsm last ((choose n).produces (tcp last)) := by
  simp [visit,here,direct]

theorem leave_stage (ready : Ready fsm context t) (last : Module)
    (here : visit tcp choose fsm mod state t.runs = some last) (locks : t.held = held) :
    Ready fsm context (t.leave tcp choose last context) ∧
      Stage tcp choose fsm mod state context held (t.leave tcp choose last context) := by
  obtain ⟨ready,kept,runs,⟨_,returned⟩ | ⟨_,ending⟩ | ⟨next,direct,edge,control⟩⟩ :=
    leave_cases tcp choose ready last context
  · exact ⟨ready,.finished (.inl returned)⟩
  · exact ⟨ready,.elsewhere _ ending trivial (kept.trans locks)⟩
  · refine ⟨ready,.running next _ control ?_ (kept.trans locks)⟩
    rw [runs,visit_succ here direct]
    exact edge

theorem leave_elsewhere (ready : Ready fsm context t) (last : Module) (other : Nat)
    (apart : other ≠ context) (locks : t.held = held) :
    Ready fsm context (t.leave tcp choose last other) ∧
      Stage tcp choose fsm mod state context held (t.leave tcp choose last other) := by
  obtain ⟨ready,kept,_,⟨_,returned⟩ | ⟨_,ending⟩ | ⟨next,_,_,control⟩⟩ :=
    leave_cases tcp choose ready last other
  · exact ⟨ready,.finished (.inl returned)⟩
  · exact ⟨ready,.elsewhere _ ending trivial (kept.trans locks)⟩
  · exact ⟨ready,.elsewhere _ control apart (kept.trans locks)⟩

theorem resume_stage (ready : Ready fsm context t) (control : t.control = .calling (.resume mod state context))
    (first : t.runs = 0) (locks : t.held = held) :
    Ready fsm context (step tcp choose t) ∧ Stage tcp choose fsm mod state context held (step tcp choose t) := by
  simp only [step,control]
  rcases resume_cases t.world mod state context with ⟨next,edge,eq⟩ | ⟨w',_,eq,more,contexts⟩
  · rw [eq]
    rw [hop_extends ready.fsm] at edge
    refine ⟨⟨ready.fsm,ready.context⟩,.running next state rfl ?_ locks⟩
    simp only [Tree.follow,first]
    exact edge
  · rw [eq]
    exact ⟨⟨ready.fsm.trans more,contexts ▸ ready.context⟩,.elsewhere _ rfl trivial locks⟩

theorem elsewhere_stage (ready : Ready fsm context t) (call : Call) (control : t.control = .calling call)
    (elsewhere : Elsewhere context call) (locks : t.held = held)
    (own : ∀ lock ∈ held, lock.context = context) :
    Ready fsm context (step tcp choose t) ∧ Stage tcp choose fsm mod state context held (step tcp choose t) := by
  cases call with
  | handleRequest other =>
    simp only [step,control,World.handleRequest]
    exact ⟨⟨ready.fsm,ready.context⟩,.elsewhere _ rfl elsewhere locks⟩
  | run last other lastModState =>
    simp only [step,control]
    split
    · have free : (⟨other,last.name⟩ : Lock) ∉ t.held := by
        intro member
        exact elsewhere (own _ (locks ▸ member))
      rw [Tree.acquire,if_neg free]
      exact ⟨⟨ready.fsm,ready.context⟩,.insideOther last other rfl elsewhere (by rw [locks])⟩
    · exact leave_elsewhere ready last other elsewhere locks
  | resume lastMod lastState other =>
    simp only [step,control]
    rcases resume_cases t.world lastMod lastState other with ⟨next,_,eq⟩ | ⟨w',_,eq,more,contexts⟩
    · rw [eq]
      exact ⟨⟨ready.fsm,ready.context⟩,.elsewhere _ rfl elsewhere locks⟩
    · rw [eq]
      exact ⟨⟨ready.fsm.trans more,contexts ▸ ready.context⟩,.elsewhere _ rfl trivial locks⟩
  | endRequest other =>
    simp only [step,control,World.endRequest]
    split
    · exact ⟨⟨ready.fsm,ready.context⟩,.finished (.inl rfl)⟩
    · split
      · exact ⟨⟨ready.fsm,ready.context⟩,.finished (.inr rfl)⟩
      · have newer : t.world.contexts ≠ context := by
          have := ready.context
          omega
        exact ⟨⟨ready.fsm,Nat.lt_succ_of_lt ready.context⟩,.elsewhere _ rfl newer locks⟩

/-- One call of the tree: it goes on, or blocks on the handler's lock where the links
come back to the handler's module. -/
theorem step_stage (ready : Ready fsm context t) (stage : Stage tcp choose fsm mod state context held t)
    (own : ∀ lock ∈ held, lock = ⟨context,mod.name⟩) :
    (Ready fsm context (step tcp choose t) ∧
      Stage tcp choose fsm mod state context held (step tcp choose t)) ∨
    (ComesBack tcp choose fsm mod state ∧ held ≠ []) := by
  have ownContext : ∀ lock ∈ held, lock.context = context := by
    intro lock member
    rw [own lock member]
  cases stage with
  | resuming control first locks => exact .inl (resume_stage ready control first locks)
  | running last lastModState control here locks =>
    simp only [step,control]
    split
    · rename_i takes
      unfold Tree.acquire
      split
      · rename_i blocked
        right
        rw [locks] at blocked
        have same := own _ blocked
        simp only [Lock.mk.injEq,true_and] at same
        exact ⟨⟨t.runs,last,here,takes,same⟩,List.ne_nil_of_mem blocked⟩
      · exact .inl ⟨⟨ready.fsm,ready.context⟩,.inside last rfl here (by rw [locks])⟩
    · exact .inl (leave_stage ready last here locks)
  | inside last control here locks =>
    simp only [step,control]
    left
    have released : Ready fsm context { t with held := t.held.tail } := ⟨ready.fsm,ready.context⟩
    exact leave_stage released last here (by simp [locks])
  | elsewhere call control apart locks =>
    exact .inl (elsewhere_stage ready call control apart locks ownContext)
  | insideOther last other control apart locks =>
    simp only [step,control]
    left
    have released : Ready fsm context { t with held := t.held.tail } := ⟨ready.fsm,ready.context⟩
    exact leave_elsewhere released last other apart (by simp [locks])
  | finished ended =>
    left
    rcases ended with control | control
    · simp only [step,control]
      exact ⟨⟨ready.fsm,ready.context⟩,.finished (.inl rfl)⟩
    · simp only [step,control]
      exact ⟨ready,.finished (.inr control)⟩

theorem tree_succ (w : World) (resumes : Option ModState) (k : Nat) :
    tree tcp choose w mod context resumes (k + 1) =
      step tcp choose (tree tcp choose w mod context resumes k) :=
  Function.iterate_succ_apply' _ _ _

/-- The locks of a handler while it resumes: its own, if it is a `TcpModule`'s. -/
def own (tcp : Module → Bool) (mod : Module) (context : Nat) : List Lock :=
  if tcp mod then [⟨context,mod.name⟩] else []

theorem own_spec (lock : Lock) (member : lock ∈ own tcp mod context) : lock = ⟨context,mod.name⟩ := by
  unfold own at member
  split at member
  · exact List.mem_singleton.mp member
  · contradiction

theorem tree_entered (w : World) (mod : Module) (context : Nat) (state : ModState) :
    tree tcp choose w mod context (some state) 1 =
      ⟨w,own tcp mod context,0,.calling (.resume mod state context)⟩ := by
  by_cases kind : tcp mod = true
  · simp [tree,step,kind,Tree.acquire,own]
  · simp [tree,step,kind,own]

theorem tree_stage (tcp : Module → Bool) (choose : Nat → Choice) (w : World) (mod : Module)
    (state : ModState) (inside : context < w.contexts) (k : Nat) :
    let t := tree tcp choose w mod context (some state) (k + 1)
    (Ready w.fsm context t ∧ Stage tcp choose w.fsm mod state context (own tcp mod context) t) ∨
      (ComesBack tcp choose w.fsm mod state ∧ own tcp mod context ≠ []) := by
  intro t
  induction k with
  | zero =>
    left
    simp only [t,Nat.zero_add,tree_entered]
    exact ⟨⟨.refl w.fsm,inside⟩,.resuming rfl rfl rfl⟩
  | succ k ih =>
    simp only [t,tree_succ w (some state) (k + 1)]
    rcases ih with ⟨ready,stage⟩ | back
    · exact step_stage ready stage own_spec
    · exact .inr back

theorem Stage.not_blocked (stage : Stage tcp choose fsm mod state context held t) (lock : Lock) :
    t.control ≠ .blocked lock := by
  cases stage with
  | finished ended => rcases ended with control | control <;> simp [control]
  | resuming control => simp [control]
  | running last lastModState control => simp [control]
  | inside last control => simp [control]
  | elsewhere call control => simp [control]
  | insideOther last other control => simp [control]

/-- Up to the first return to the handler's module the tree runs every visit. -/
theorem tree_reaches (w : World) (inside : context < w.contexts) (kind : tcp mod = true) (n : Nat)
    (clear : ∀ m < n, ∀ last, visit tcp choose w.fsm mod state m = some last →
      (choose m).locks (tcp last) = true → last.name ≠ mod.name)
    (last : Module) (here : visit tcp choose w.fsm mod state n = some last) :
    ∃ k lastModState, let t := tree tcp choose w mod context (some state) k
      Ready w.fsm context t ∧ t.control = .calling (.run last context lastModState) ∧
        t.runs = n ∧ t.held = [⟨context,mod.name⟩] := by
  induction n generalizing last with
  | zero =>
    refine ⟨2,state,?_⟩
    rw [tree_succ,tree_entered]
    simp only [step]
    rcases resume_cases w mod state context with ⟨next,edge,eq⟩ | ⟨w',edge,eq,_⟩
    · rw [visit,edge] at here
      cases here
      rw [eq]
      exact ⟨⟨.refl w.fsm,inside⟩,rfl,rfl,by simp [Tree.follow,own,kind]⟩
    · rw [visit,edge] at here
      contradiction
  | succ n ih =>
    obtain ⟨prev,before,step'⟩ := Option.bind_eq_some_iff.mp here
    have direct : (choose n).produces (tcp prev) ≠ modAsync := by
      intro async
      simp [async] at step'
    rw [if_neg direct] at step'
    obtain ⟨k,lastModState,ready,control,runs,held⟩ :=
      ih (fun m less => clear m (by omega)) prev before
    -- One `run`, with its lock or without, goes on to the next visit.
    have goes (t : Tree) (ready : Ready w.fsm context t) (runs : t.runs = n)
        (held : t.held = [⟨context,mod.name⟩]) :
        let s := t.leave tcp choose prev context
        Ready w.fsm context s ∧ s.control = .calling (.run last context ((choose n).produces (tcp prev))) ∧
          s.runs = n + 1 ∧ s.held = [⟨context,mod.name⟩] := by
      obtain ⟨ready,kept,more,⟨async,_⟩ | ⟨missing,_⟩ | ⟨next,_,edge,control⟩⟩ :=
        leave_cases tcp choose ready prev context
      · rw [runs] at async
        exact absurd async direct
      · rw [runs,step'] at missing
        contradiction
      · rw [runs] at edge control
        rw [step'] at edge
        cases edge
        exact ⟨ready,control,by rw [more,runs],kept.trans held⟩
    by_cases takes : (choose n).locks (tcp prev) = true
    · have free : (⟨context,prev.name⟩ : Lock) ∉ [(⟨context,mod.name⟩ : Lock)] := by
        simpa using clear n (by omega) prev before takes
      refine ⟨k + 2,(choose n).produces (tcp prev),?_⟩
      rw [tree_succ,tree_succ]
      simp only [step,control,runs,takes,↓reduceIte,Tree.acquire,held,free,List.tail_cons]
      exact goes _ ⟨ready.fsm,ready.context⟩ rfl rfl
    · refine ⟨k + 1,(choose n).produces (tcp prev),?_⟩
      rw [tree_succ]
      simp only [step,control,runs,takes,Bool.false_eq_true,↓reduceIte]
      exact goes _ ready runs held

theorem blocks_of_comesBack (w : World) (inside : context < w.contexts) (kind : tcp mod = true)
    (back : ComesBack tcp choose w.fsm mod state) :
    ∃ k, (tree tcp choose w mod context (some state) k).control = .blocked ⟨context,mod.name⟩ := by
  classical
  obtain ⟨last,here,takes,same⟩ := Nat.find_spec back
  obtain ⟨k,lastModState,_,control,runs,held⟩ := tree_reaches w inside kind (Nat.find back)
    (fun m less last visited takes same => Nat.find_min back less ⟨last,visited,takes,same⟩) last here
  refine ⟨k + 1,?_⟩
  rw [tree_succ]
  simp only [step,control,runs,takes,↓reduceIte,Tree.acquire,held,same,List.mem_singleton]

/-- The call tree of a completion handler, on any graph, in any state of the server and
whatever the modules do, never blocks on a lock it holds exactly when it is not the tree
of a resuming `TcpModule` handler whose direct continuation comes back to that module. -/
theorem never_blocks_iff (tcp : Module → Bool) (choose : Nat → Choice) (w : World) (mod : Module)
    (context : Nat) (inside : context < w.contexts) (resumes : Option ModState) :
    (∀ k lock, (tree tcp choose w mod context resumes k).control ≠ .blocked lock) ↔
      (tcp mod = true → ∀ state, resumes = some state → ¬ComesBack tcp choose w.fsm mod state) := by
  constructor
  · rintro free kind state rfl back
    obtain ⟨k,blocked⟩ := blocks_of_comesBack w inside kind back
    exact free k _ blocked
  · intro clear k lock blocked
    cases resumes with
    | none =>
      -- Without `resume` the tree is the handler alone.
      have alone (k : Nat) : (tree tcp choose w mod context none (k + 1)).control = .returned := by
        induction k with
        | zero => by_cases kind : tcp mod = true <;> simp [tree,step,kind,Tree.acquire]
        | succ k ih =>
          rw [tree_succ]
          simp [step,ih]
      cases k with
      | zero => simp [tree] at blocked
      | succ k => simp [alone k] at blocked
    | some state =>
      cases k with
      | zero => simp [tree] at blocked
      | succ k =>
        rcases tree_stage tcp choose w mod state inside k with ⟨_,stage⟩ | ⟨back,locked⟩
        · exact stage.not_blocked lock blocked
        · have kind : tcp mod = true := by
            by_contra other
            exact locked (by simp [own,other])
          exact clear kind state rfl back

/-- A `TcpModule` t whose failure goes to `target`, in the first context. -/
def failureLinked (target : Module) : World :=
  ⟨configure ⟨1,"t"⟩ ⟨2,"e"⟩ [.addModule ⟨1,"t"⟩,.addModule ⟨2,"e"⟩,
    .linkModule ⟨1,"t"⟩ target modFailed],fun _ => false,1⟩

def opens : Nat → Choice := fun _ => ⟨true,true,modSucceed,false⟩

theorem failure_to_end_never_blocks :
    (tree (fun mod => mod.id == 1) opens (failureLinked ⟨2,"e"⟩) ⟨1,"t"⟩ 0 (some modFailed) 9).control ≠
      .blocked ⟨0,"t"⟩ := by
  refine (never_blocks_iff (fun mod => mod.id == 1) opens (failureLinked ⟨2,"e"⟩) ⟨1,"t"⟩ 0
    (by decide) (some modFailed)).mpr ?_ 9 ⟨0,"t"⟩
  rintro _ state ⟨⟩ ⟨n,last,visited,takes,_⟩
  have past (n : Nat) : visit (fun mod => mod.id == 1) opens (failureLinked ⟨2,"e"⟩).fsm ⟨1,"t"⟩
      modFailed (n + 1) = none := by
    induction n with
    | zero => decide
    | succ n ih =>
      rw [visit,ih]
      rfl
  cases n with
  | zero =>
    have first : visit (fun mod => mod.id == 1) opens (failureLinked ⟨2,"e"⟩).fsm ⟨1,"t"⟩ modFailed 0 =
        some ⟨2,"e"⟩ := by decide
    rw [first] at visited
    cases visited
    simp [Choice.locks] at takes
  | succ n =>
    rw [past n] at visited
    contradiction

/-- The failure of t is retried: `on_connect` resumes with its lock held and `run` waits
for that lock. -/
theorem retry_blocks :
    (tree (fun mod => mod.id == 1) opens (failureLinked ⟨1,"t"⟩) ⟨1,"t"⟩ 0 (some modFailed) 3).control =
      .blocked ⟨0,"t"⟩ := by
  decide

end Zerver.FsmLocks
