import Mathlib.Data.List.Nodup
import Zerver.Assoc
import Zerver.Fsm

/-! The module table while requests are served. All connections share one Fsm, each of
its calls can be interleaved with those of every other context, and a module may resume
any context it has run on. `_get_next_module` reads the table with `operator[]`, so a
link to a module that was never added leaves a null pointer behind it, and the `init`
of the next context calls `create_data` of it. -/
namespace Zerver.FsmTable

open Zerver.Assoc Zerver.Fsm Zerver.Schedule

/-- An entry of `module_data_map_`: the module whose `create_data` made it, and for what. -/
structure Data where
  creator : Module
  context : Nat
  deriving DecidableEq, Repr

structure Machine where
  world : World
  data : Nat → List (String × Data)
  calls : List Call
  runs : List (Nat × Module)
  crashed : Bool

structure Choice where
  state : ModState
  exit : Bool
  deriving DecidableEq, Repr

inductive Action where
  | accept
  | perform (call : Call) (choice : Choice)
  | resume (mod : Module) (state : ModState) (context : Nat)
  deriving DecidableEq, Repr

namespace Machine

/-- `FsmContext::init`: one entry for each module of the table that has data. -/
def create (hasData : Module → Bool) (context : Nat) (modMap : ModuleMap) : List (String × Data) :=
  modMap.filterMap fun pair =>
    pair.2.bind fun mod => if hasData mod then some (pair.1,⟨mod,context⟩) else none

def init (hasData : Module → Bool) (context : Nat) (m : Machine) : Machine :=
  { m with data := Function.update m.data context (create hasData context m.world.fsm.modMap) }

def follow (m : Machine) (next : Outcome × World) : Machine :=
  match next.1 with
  | .call call => { m with world := next.2, calls := call :: m.calls }
  | .returned => { m with world := next.2 }
  | .crashed => { m with world := next.2, crashed := true }

def exitIf (exit : Bool) (context : Nat) (m : Machine) : Machine :=
  if exit then { m with world := m.world.exit context } else m

variable (hasData : Module → Bool)

/-- `TcpServer::on_accepted`: the first context of a connection. -/
def accept (m : Machine) : Machine :=
  if m.world.fsm.modMap.any (·.2.isNone) then { m with crashed := true }
  else
    init hasData m.world.contexts
      { m with
        world := { m.world with
          contexts := m.world.contexts + 1
          exits := Function.update m.world.exits m.world.contexts false }
        calls := .handleRequest m.world.contexts :: m.calls }

def perform (call : Call) (choice : Choice) (m : Machine) : Machine :=
  match call with
  | .handleRequest context => m.follow (m.world.handleRequest context)
  | .run mod context _ =>
    let m := { m with runs := m.runs ++ [(context,mod)] }.exitIf choice.exit context;
    m.follow (m.world.afterRun mod choice.state context)
  | .resume lastMod state context => m.follow (m.world.resume lastMod state context)
  | .endRequest context =>
    if m.world.exits context then m.follow (m.world.endRequest context)
    else (m.follow (m.world.endRequest context)).init hasData m.world.contexts

end Machine

def step (hasData : Module → Bool) (m : Machine) (a : Action) : Machine :=
  if m.crashed then m
  else
    match a with
    | .accept => m.accept hasData
    | .perform call choice =>
      if call ∈ m.calls then { m with calls := m.calls.erase call }.perform hasData call choice else m
    | .resume mod state context =>
      if (context,mod) ∈ m.runs then { m with calls := .resume mod state context :: m.calls } else m

def start (fsm : Fsm) : Machine := ⟨⟨fsm,fun _ => false,0⟩,fun _ => [],[],[],false⟩

/-- The table is that of the configuration, with a module of its name under every name;
no `init` met a null module; and the data a module finds in a context is its own. -/
structure Intact (modMap : ModuleMap) (m : Machine) : Prop where
  table : m.world.fsm.modMap = modMap
  named : ∀ name found, (name,found) ∈ m.world.fsm.modMap → ∃ mod, found = some mod ∧ mod.name = name
  alive : m.crashed = false
  data : ∀ context mod, (context,mod) ∈ m.runs → ∀ data, (mod.name,data) ∈ m.data context →
    data = ⟨mod,context⟩

def linkTarget (fsm : Fsm) (mod : Module) (state : ModState) : Option String :=
  match fsm.modTransMap.lookup mod.name with
  | none => none
  | some states => (states.lookup state).or (states.lookup modElse)

/-- The module and state from which a step calls `_get_next_module`, if it does. -/
def followed (m : Machine) : Action → Option (Module × ModState)
  | .perform (.run mod context lastModState) choice =>
    if .run mod context lastModState ∈ m.calls ∧ choice.state ≠ modAsync ∧ mod ≠ m.world.fsm.endMod then
      some (mod,choice.state)
    else none
  | .perform (.resume mod state context) _ =>
    if .resume mod state context ∈ m.calls ∧ mod ≠ m.world.fsm.endMod then some (mod,state) else none
  | _ => none

/-- The link that a step follows, if any, leads to a module of the table. -/
def known (m : Machine) (a : Action) : Bool :=
  match followed m a with
  | none => true
  | some (mod,state) =>
    match linkTarget m.world.fsm mod state with
    | none => true
    | some name => (m.world.fsm.modMap.lookup name).isSome

theorem getNextModule_eq (fsm : Fsm) (mod : Module) (state : ModState) :
    fsm.getNextModule mod state =
      match linkTarget fsm mod state with
      | none => (none,fsm)
      | some name => fsm.entry name := by
  unfold getNextModule linkTarget
  cases fsm.modTransMap.lookup mod.name with
  | none => rfl
  | some states =>
    cases first : states.lookup state with
    | some name => simp [first]
    | none => cases other : states.lookup modElse <;> simp [first,other]

structure Tabled (fsm : Fsm) : Prop where
  unique : (fsm.modMap.map Prod.fst).Nodup
  named : ∀ name found, (name,found) ∈ fsm.modMap → ∃ mod, found = some mod ∧ mod.name = name
  start : (fsm.startMod.name,some fsm.startMod) ∈ fsm.modMap

theorem setup_tabled (fsm : Fsm) (call : Setup)
    (valid : (fsm.modMap.map Prod.fst).Nodup ∧
      ∀ name found, (name,found) ∈ fsm.modMap → ∃ mod, found = some mod ∧ mod.name = name) :
    ((setup fsm call).modMap.map Prod.fst).Nodup ∧
      ∀ name found, (name,found) ∈ (setup fsm call).modMap → ∃ mod, found = some mod ∧ mod.name = name := by
  cases call with
  | linkModule origin target state => exact valid
  | addModule mod =>
    simp only [setup,addModule]
    split
    · exact valid
    · rename_i absent
      have absent := lookup_none_iff.mp (Option.not_isSome_iff_eq_none.mp absent)
      constructor
      · rw [List.map_append,List.nodup_append]
        refine ⟨valid.1,by simp,?_⟩
        intro name there other new
        rintro rfl
        simp only [List.map_cons,List.map_nil,List.mem_singleton] at new
        exact absent (new ▸ there)
      · intro name found member
        rcases List.mem_append.mp member with old | new
        · exact valid.2 name found old
        · cases List.mem_singleton.mp new
          exact ⟨mod,rfl,rfl⟩

theorem configure_tabled (startMod endMod : Module) (calls : List Setup)
    (added : (configure startMod endMod calls).modMap.lookup startMod.name = some (some startMod)) :
    Tabled (configure startMod endMod calls) := by
  have valid := execute_invariant setup_tabled (s := ⟨[],[],startMod,endMod⟩) (by simp) calls
  refine ⟨valid.1,valid.2,?_⟩
  rw [(configure_configured startMod endMod calls).startMod]
  exact lookup_mem added

/-- The call is on a context that exists, and runs a module of the table. -/
def Valid (fsm : Fsm) (contexts : Nat) : Call → Prop
  | .handleRequest context => context < contexts
  | .run mod context _ => context < contexts ∧ (mod.name,some mod) ∈ fsm.modMap
  | .resume _ _ context => context < contexts
  | .endRequest context => context < contexts

structure Sound (hasData : Module → Bool) (fsm : Fsm) (m : Machine) : Prop where
  table : m.world.fsm = fsm
  data : ∀ context < m.world.contexts, m.data context = Machine.create hasData context fsm.modMap
  calls : ∀ call ∈ m.calls, Valid fsm m.world.contexts call
  runs : ∀ context mod, (context,mod) ∈ m.runs →
    context < m.world.contexts ∧ (mod.name,some mod) ∈ fsm.modMap
  alive : m.crashed = false

theorem create_mem {modMap : ModuleMap} (member : (name,data) ∈ Machine.create hasData context modMap) :
    data.context = context ∧ (name,some data.creator) ∈ modMap := by
  obtain ⟨⟨key,entry⟩,there,made⟩ := List.mem_filterMap.mp member
  cases entry with
  | none => contradiction
  | some mod =>
    simp only [Option.bind_some,Option.ite_none_right_eq_some,Option.some.injEq,Prod.mk.injEq] at made
    obtain ⟨_,rfl,rfl⟩ := made
    exact ⟨rfl,there⟩

theorem Tabled.unique_entry (tabled : Tabled fsm) (first : (name,a) ∈ fsm.modMap)
    (second : (name,b) ∈ fsm.modMap) : a = b := by
  have same := List.inj_on_of_nodup_map tabled.unique first second rfl
  exact (Prod.mk.inj same).2

theorem Sound.intact (tabled : Tabled fsm) (sound : Sound hasData fsm m) : Intact fsm.modMap m where
  table := by rw [sound.table]
  named := by
    rw [sound.table]
    exact tabled.named
  alive := sound.alive
  data := by
    intro context mod ran data member
    obtain ⟨inside,there⟩ := sound.runs context mod ran
    rw [sound.data context inside] at member
    obtain ⟨own,created⟩ := create_mem member
    cases tabled.unique_entry there created
    obtain ⟨creator,made⟩ := data
    simp only at own
    rw [own]

theorem start_sound (hasData : Module → Bool) (fsm : Fsm) : Sound hasData fsm (start fsm) := by
  constructor <;> simp [start]

theorem resume_known (w : World) (tabled : Tabled w.fsm) (mod : Module) (state : ModState)
    (inside : context < w.contexts)
    (linked : mod ≠ w.fsm.endMod → ∀ name, linkTarget w.fsm mod state = some name →
      (w.fsm.modMap.lookup name).isSome) :
    ∃ call w', w.resume mod state context = (.call call,w') ∧ w'.fsm = w.fsm ∧
      w'.contexts = w.contexts ∧ Valid w.fsm w.contexts call := by
  unfold World.resume
  by_cases atEnd : mod = w.fsm.endMod
  · rw [if_pos atEnd]
    exact ⟨_,w,rfl,rfl,rfl,inside⟩
  · rw [if_neg atEnd,getNextModule_eq]
    cases target : linkTarget w.fsm mod state with
    | none => exact ⟨_,_,rfl,rfl,rfl,inside⟩
    | some name =>
      obtain ⟨found,there⟩ := Option.isSome_iff_exists.mp (linked atEnd name target)
      have member := lookup_mem there
      obtain ⟨next,rfl,rfl⟩ := tabled.named name found member
      have entered : w.fsm.entry next.name = (some next,w.fsm) := by simp [entry,there]
      simp only [entered]
      exact ⟨_,_,rfl,rfl,rfl,inside,member⟩

theorem resume_unknown (w : World) (mod : Module) (state : ModState) (context : Nat)
    (going : mod ≠ w.fsm.endMod) (target : linkTarget w.fsm mod state = some name)
    (absent : w.fsm.modMap.lookup name = none) :
    (w.resume mod state context).2.fsm.modMap = w.fsm.modMap ++ [(name,none)] := by
  have entered : w.fsm.entry name = (none,{ w.fsm with modMap := w.fsm.modMap ++ [(name,none)] }) := by
    simp [entry,absent]
  simp [World.resume,going,getNextModule_eq,target,entered,World.exit]

theorem Valid.mono (valid : Valid fsm contexts call) (more : contexts ≤ later) :
    Valid fsm later call := by
  cases call with
  | handleRequest context => exact Nat.lt_of_lt_of_le valid more
  | run mod context lastModState => exact ⟨Nat.lt_of_lt_of_le valid.1 more,valid.2⟩
  | resume mod state context => exact Nat.lt_of_lt_of_le valid more
  | endRequest context => exact Nat.lt_of_lt_of_le valid more

theorem Sound.follow (sound : Sound hasData fsm m) (w : World) (call : Call) (same : w.fsm = m.world.fsm)
    (contexts : w.contexts = m.world.contexts) (valid : Valid fsm m.world.contexts call) :
    Sound hasData fsm (m.follow (.call call,w)) where
  table := same.trans sound.table
  data := by
    simp only [Machine.follow,contexts]
    exact sound.data
  calls := by
    simp only [Machine.follow,contexts,List.mem_cons]
    rintro other (rfl | old)
    · exact valid
    · exact sound.calls other old
  runs := by
    simp only [Machine.follow,contexts]
    exact sound.runs
  alive := sound.alive

theorem Sound.returned (sound : Sound hasData fsm m) (w : World) (same : w.fsm = m.world.fsm)
    (contexts : w.contexts = m.world.contexts) : Sound hasData fsm (m.follow (.returned,w)) where
  table := same.trans sound.table
  data := by
    simp only [Machine.follow,contexts]
    exact sound.data
  calls := by
    simp only [Machine.follow,contexts]
    exact sound.calls
  runs := by
    simp only [Machine.follow,contexts]
    exact sound.runs
  alive := sound.alive

theorem Sound.renew (sound : Sound hasData fsm m) (exits : Nat → Bool) :
    Sound hasData fsm (Machine.init hasData m.world.contexts { m with
      world := { m.world with contexts := m.world.contexts + 1, exits := exits }
      calls := .handleRequest m.world.contexts :: m.calls }) where
  table := sound.table
  data := by
    intro context inside
    simp only [Machine.init,Function.update_apply,sound.table]
    split
    · rename_i fresh
      rw [fresh]
    · rename_i old
      exact sound.data context (by simp only [Machine.init] at inside; omega)
  calls := by
    simp only [Machine.init,List.mem_cons]
    rintro call (rfl | old)
    · exact Nat.lt_succ_self _
    · exact (sound.calls call old).mono (Nat.le_succ _)
  runs := by
    intro context mod ran
    obtain ⟨inside,there⟩ := sound.runs context mod ran
    exact ⟨Nat.lt_succ_of_lt inside,there⟩
  alive := sound.alive

theorem Tabled.no_null (tabled : Tabled fsm) : fsm.modMap.any (·.2.isNone) = false := by
  rw [List.any_eq_false]
  rintro ⟨name,found⟩ member
  obtain ⟨mod,rfl,_⟩ := tabled.named name found member
  simp

theorem accept_sound (tabled : Tabled fsm) (sound : Sound hasData fsm m) :
    Sound hasData fsm (m.accept hasData) := by
  unfold Machine.accept
  rw [sound.table,tabled.no_null]
  exact sound.renew _

theorem endRequest_sound (tabled : Tabled fsm) (sound : Sound hasData fsm m) (context : Nat)
    (choice : Choice) : Sound hasData fsm (m.perform hasData (.endRequest context) choice) := by
  simp only [Machine.perform,World.endRequest]
  by_cases exits : m.world.exits context = true
  · simp only [exits,↓reduceIte]
    exact sound.returned _ rfl rfl
  · have entries : m.world.fsm.modMap.any (·.2.isNone) = false := by
      rw [sound.table]
      exact tabled.no_null
    simp only [exits,Bool.false_eq_true,↓reduceIte,entries]
    exact sound.renew _

theorem exitIf_sound (sound : Sound hasData fsm m) (exit : Bool) (context : Nat) :
    Sound hasData fsm (m.exitIf exit context) := by
  unfold Machine.exitIf
  split
  · exact ⟨sound.table,sound.data,sound.calls,sound.runs,sound.alive⟩
  · exact sound

theorem Sound.ran (sound : Sound hasData fsm m) (inside : context < m.world.contexts)
    (there : (mod.name,some mod) ∈ fsm.modMap) :
    Sound hasData fsm { m with runs := m.runs ++ [(context,mod)] } where
  table := sound.table
  data := sound.data
  calls := sound.calls
  runs := by
    intro other last member
    rcases List.mem_append.mp member with old | new
    · exact sound.runs other last old
    · cases List.mem_singleton.mp new
      exact ⟨inside,there⟩
  alive := sound.alive

theorem exitIf_fsm (m : Machine) (exit : Bool) (context : Nat) :
    (m.exitIf exit context).world.fsm = m.world.fsm := by
  unfold Machine.exitIf
  split <;> rfl

theorem exitIf_contexts (m : Machine) (exit : Bool) (context : Nat) :
    (m.exitIf exit context).world.contexts = m.world.contexts := by
  unfold Machine.exitIf
  split <;> rfl

theorem continue_sound (tabled : Tabled fsm) (sound : Sound hasData fsm m)
    (inside : context < m.world.contexts)
    (linked : mod ≠ fsm.endMod → ∀ name, linkTarget fsm mod state = some name →
      (fsm.modMap.lookup name).isSome) :
    Sound hasData fsm (m.follow (m.world.resume mod state context)) := by
  obtain ⟨call,w,eq,same,contexts,valid⟩ := resume_known m.world (sound.table.symm ▸ tabled) mod state
    inside (sound.table.symm ▸ linked)
  rw [eq]
  exact sound.follow w call same contexts (sound.table ▸ valid)

theorem run_sound (tabled : Tabled fsm) (sound : Sound hasData fsm m) (lastModState : ModState)
    (choice : Choice) (inside : context < m.world.contexts) (there : (mod.name,some mod) ∈ fsm.modMap)
    (linked : choice.state ≠ modAsync → mod ≠ fsm.endMod →
      ∀ name, linkTarget fsm mod choice.state = some name → (fsm.modMap.lookup name).isSome) :
    Sound hasData fsm (m.perform hasData (.run mod context lastModState) choice) := by
  simp only [Machine.perform]
  have entered := exitIf_sound (sound.ran inside there) choice.exit context
  have contexts := exitIf_contexts { m with runs := m.runs ++ [(context,mod)] } choice.exit context
  generalize Machine.exitIf choice.exit context { m with runs := m.runs ++ [(context,mod)] } = later at entered contexts ⊢
  by_cases async : choice.state = modAsync
  · have returned : later.world.afterRun mod choice.state context = (.returned,later.world) := by
      simp [World.afterRun,async]
    rw [returned]
    exact entered.returned _ rfl rfl
  · rw [World.afterRun_eq_resume _ _ _ _ async]
    exact continue_sound tabled entered (contexts ▸ inside) (linked async)

theorem known_run (sound : Sound hasData fsm m) (known : known m (.perform (.run mod context last) choice) = true)
    (member : .run mod context last ∈ m.calls) :
    choice.state ≠ modAsync → mod ≠ fsm.endMod →
      ∀ name, linkTarget fsm mod choice.state = some name → (fsm.modMap.lookup name).isSome := by
  intro direct going name target
  rw [← sound.table] at going target ⊢
  simpa [FsmTable.known,followed,member,direct,going,target] using known

theorem known_resume (sound : Sound hasData fsm m)
    (known : known m (.perform (.resume mod state context) choice) = true)
    (member : .resume mod state context ∈ m.calls) :
    mod ≠ fsm.endMod → ∀ name, linkTarget fsm mod state = some name → (fsm.modMap.lookup name).isSome := by
  intro going name target
  rw [← sound.table] at going target ⊢
  simpa [FsmTable.known,followed,member,going,target] using known

theorem Sound.erase (sound : Sound hasData fsm m) (call : Call) :
    Sound hasData fsm { m with calls := m.calls.erase call } where
  table := sound.table
  data := sound.data
  calls := fun other member => sound.calls other (List.mem_of_mem_erase member)
  runs := sound.runs
  alive := sound.alive

theorem step_sound (tabled : Tabled fsm) (m : Machine) (a : Action) (known : known m a = true)
    (sound : Sound hasData fsm m) : Sound hasData fsm (step hasData m a) := by
  unfold step
  rw [if_neg (by simp [sound.alive])]
  cases a with
  | accept => exact accept_sound tabled sound
  | resume mod state context =>
    dsimp only
    split
    · rename_i ran
      refine ⟨sound.table,sound.data,?_,sound.runs,sound.alive⟩
      simp only [List.mem_cons]
      rintro call (rfl | old)
      · exact (sound.runs context mod ran).1
      · exact sound.calls call old
    · exact sound
  | perform call choice =>
    dsimp only
    split
    · rename_i member
      have valid := sound.calls call member
      have taken := sound.erase call
      cases call with
      | handleRequest context =>
        have runs : Valid fsm m.world.contexts (.run m.world.fsm.startMod context modStart) := by
          rw [sound.table]
          exact ⟨valid,tabled.start⟩
        exact taken.follow _ _ rfl rfl runs
      | run mod context lastModState =>
        exact run_sound tabled taken lastModState choice valid.1 valid.2 (known_run sound known member)
      | resume mod state context =>
        exact continue_sound tabled taken valid (known_resume sound known member)
      | endRequest context => exact endRequest_sound tabled taken context choice
    · exact sound

theorem step_unknown (hasData : Module → Bool) (m : Machine) (a : Action) (alive : m.crashed = false)
    (unknown : known m a = false) : (step hasData m a).world.fsm.modMap ≠ m.world.fsm.modMap := by
  have longer (w : World) (mod : Module) (state : ModState) (context : Nat) (name : String)
      (going : mod ≠ w.fsm.endMod) (target : linkTarget w.fsm mod state = some name)
      (absent : w.fsm.modMap.lookup name = none) (m : Machine) :
      (m.follow (w.resume mod state context)).world.fsm.modMap ≠ w.fsm.modMap := by
    have null := resume_unknown w mod state context going target absent
    have world : (m.follow (w.resume mod state context)).world = (w.resume mod state context).2 := by
      unfold Machine.follow
      split <;> rfl
    rw [world,null]
    simp
  unfold known at unknown
  split at unknown
  · contradiction
  · rename_i mod state follows
    split at unknown
    · contradiction
    · rename_i name target
      have absent : m.world.fsm.modMap.lookup name = none := Option.not_isSome_iff_eq_none.mp (by simp [unknown])
      cases a with
      | accept => contradiction
      | resume last lastState context => contradiction
      | perform call choice =>
        cases call with
        | handleRequest context => contradiction
        | endRequest context => contradiction
        | run last context lastModState =>
          simp only [followed,Option.ite_none_right_eq_some,Option.some.injEq,Prod.mk.injEq] at follows
          obtain ⟨⟨member,direct,going⟩,rfl,rfl⟩ := follows
          unfold step
          rw [if_neg (by simp [alive])]
          simp only [member,↓reduceIte,Machine.perform]
          rw [World.afterRun_eq_resume _ _ _ _ direct]
          have same := exitIf_fsm { m with
            calls := m.calls.erase (.run last context lastModState)
            runs := m.runs ++ [(context,last)] } choice.exit context
          rw [← same] at going target absent ⊢
          exact longer _ _ _ _ name going target absent _
        | resume last lastState context =>
          simp only [followed,Option.ite_none_right_eq_some,Option.some.injEq,Prod.mk.injEq] at follows
          obtain ⟨⟨member,going⟩,rfl,rfl⟩ := follows
          unfold step
          rw [if_neg (by simp [alive])]
          simp only [member,↓reduceIte,Machine.perform]
          exact longer _ _ _ _ name going target absent _

/-- For every configuration whose start module was added, and every run of any number of
connections and contexts: the table and the data stay intact in every state exactly when
every link that is followed leads to a module that was added. -/
theorem table_intact_iff (hasData : Module → Bool) (startMod endMod : Module) (calls : List Setup)
    (added : (configure startMod endMod calls).modMap.lookup startMod.name = some (some startMod))
    (schedule : List Action) :
    (∀ first later, schedule = first ++ later →
      Intact (configure startMod endMod calls).modMap
        (execute (step hasData) (start (configure startMod endMod calls)) first)) ↔
    Along (step hasData) (fun m a => known m a = true) (start (configure startMod endMod calls)) schedule := by
  have tabled := configure_tabled startMod endMod calls added
  constructor
  · intro intact
    rw [along_iff_split]
    intro first a later split
    by_contra unknown
    have before := intact first (a :: later) split
    have after := intact (first ++ [a]) later (by simp [split])
    rw [execute_append,execute_cons,execute_nil] at after
    apply step_unknown hasData _ a before.alive (by simpa using unknown)
    rw [after.table,before.table]
  · rintro along first later rfl
    exact (along_invariant (step_sound tabled) (start_sound hasData _) first
      ((along_append _ first later).mp along).1).intact tabled

/-- A start module s linked to `target`, where s and the end module e have been added. -/
def linked (target : Module) : List Setup :=
  [.addModule ⟨1,"s"⟩,.addModule ⟨2,"e"⟩,.linkModule ⟨1,"s"⟩ target modSucceed]

/-- A request that takes the link, and then another connection. -/
def twoConnections : List Action :=
  [.accept,.perform (.handleRequest 0) ⟨modSucceed,false⟩,
    .perform (.run ⟨1,"s"⟩ 0 modStart) ⟨modSucceed,false⟩,.accept]

theorem known_link_intact :
    Intact (configure ⟨1,"s"⟩ ⟨2,"e"⟩ (linked ⟨2,"e"⟩)).modMap
      (execute (step fun _ => true) (start (configure ⟨1,"s"⟩ ⟨2,"e"⟩ (linked ⟨2,"e"⟩))) twoConnections) :=
  (table_intact_iff (fun _ => true) ⟨1,"s"⟩ ⟨2,"e"⟩ (linked ⟨2,"e"⟩) (by decide) twoConnections).mpr
    (by decide) twoConnections [] (by simp)

/-- The link leads to x, which was never added: the first connection exits, and the
second one crashes on the null entry. -/
theorem unknown_link_crashes :
    let fsm := configure ⟨1,"s"⟩ ⟨2,"e"⟩ (linked ⟨3,"x"⟩)
    let m := execute (step fun _ => true) (start fsm) twoConnections
    fsm.modMap.lookup "s" = some (some ⟨1,"s"⟩) ∧ ("x",none) ∈ m.world.fsm.modMap ∧
      m.crashed = true ∧ ¬Intact fsm.modMap m := by
  intro fsm m
  have crashed : m.crashed = true := by decide
  refine ⟨by decide,by decide,crashed,?_⟩
  intro intact
  simp [intact.alive] at crashed

end Zerver.FsmTable
