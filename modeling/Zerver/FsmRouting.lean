import Zerver.Assoc
import Zerver.Fsm

/-! Routing by configuration history. Both tables keep the first value given for a key,
so what `_get_next_module` finds is read off the calls of `add_module` and `link_module`. -/
namespace Zerver.Fsm

open Zerver.Assoc

/-- The key a call of the configuration sets, if no earlier call has. -/
inductive Key where
  | name (name : String)
  | link (origin : String) (state : ModState)
  deriving DecidableEq, Repr

namespace Setup

def key : Setup → Key
  | .addModule mod => .name mod.name
  | .linkModule origin _ state => .link origin.name state

def added : Setup → Option Module
  | .addModule mod => some mod
  | .linkModule _ _ _ => none

def target : Setup → Option String
  | .addModule _ => none
  | .linkModule _ target _ => some target.name

end Setup

def earliest (key : Key) (calls : List Setup) : Option Setup := calls.find? (·.key = key)

/-- The first-added module of a name. -/
def firstAdded (name : String) (calls : List Setup) : Option Module :=
  (earliest (.name name) calls).bind Setup.added

/-- The target name of the earliest link from a module of that name with that state. -/
def firstTarget (origin : String) (state : ModState) (calls : List Setup) : Option String :=
  (earliest (.link origin state) calls).bind Setup.target

/-- The route by the history of calls. `Mod_else` is looked up only where the state has
no link; a target that was never added gives no module. -/
def specified (calls : List Setup) (mod : Module) (state : ModState) : Option Module :=
  ((firstTarget mod.name state calls).or (firstTarget mod.name modElse calls)).bind
    (firstAdded · calls)

/-- The target name the transition table has under both its keys. -/
def link (fsm : Fsm) (origin : String) (state : ModState) : Option String :=
  (fsm.modTransMap.lookup origin).bind (·.lookup state)

def queried (fsm : Fsm) (queries : List (Module × ModState)) : Fsm :=
  queries.foldl (fun fsm query => (fsm.getNextModule query.1 query.2).2) fsm

theorem queried_extends (fsm : Fsm) (queries : List (Module × ModState)) :
    Extends fsm (fsm.queried queries) := by
  induction queries generalizing fsm with
  | nil => exact .refl fsm
  | cons query rest ih => exact (getNextModule_extends fsm query.1 query.2).trans (ih _)

theorem route_eq (fsm : Fsm) (mod : Module) (state : ModState) :
    fsm.route mod state = ((fsm.link mod.name state).or (fsm.link mod.name modElse)).bind
      fun target => (fsm.modMap.lookup target).join := by
  unfold route getNextModule link
  cases fsm.modTransMap.lookup mod.name with
  | none => rfl
  | some states =>
    simp only [Option.bind_some]
    cases states.lookup state with
    | some target => exact entry_fst fsm target
    | none =>
      cases states.lookup modElse with
      | some target => exact entry_fst fsm target
      | none => rfl

theorem lookup_addModule (fsm : Fsm) (mod : Module) (name : String) :
    (fsm.addModule mod).modMap.lookup name =
      (fsm.modMap.lookup name).or (if mod.name = name then some (some mod) else none) := by
  rw [← lookup_insert]
  unfold addModule
  split <;> rfl

theorem lookup_insertLink (table : ModuleTransitionMap) (origin name : String) (state other : ModState)
    (target : String) :
    ((insertLink origin state target table).lookup name).bind (·.lookup other) =
      ((table.lookup name).bind (·.lookup other)).or
        (if origin = name ∧ state = other then some target else none) := by
  induction table with
  | nil =>
    simp only [insertLink,lookup_cons_eq,List.lookup_nil,Option.bind_none,Option.none_or]
    by_cases same : origin = name <;> simp [same,lookup_cons_eq]
  | cons entry rest ih =>
    obtain ⟨first,states⟩ := entry
    simp only [insertLink]
    split
    · rename_i here
      subst here
      rw [lookup_cons_eq,lookup_cons_eq]
      by_cases same : first = name
      · rw [if_pos same,if_pos same]
        simpa [same,insertState] using lookup_insert states state other target
      · simp [same]
    · rename_i apart
      rw [lookup_cons_eq,lookup_cons_eq]
      by_cases same : first = name
      · subst same
        simp [Ne.symm apart]
      · rw [if_neg same,if_neg same]
        exact ih

theorem link_linkModule (fsm : Fsm) (origin target : Module) (state : ModState) (name : String)
    (other : ModState) :
    (fsm.linkModule origin target state).link name other =
      (fsm.link name other).or
        (if origin.name = name ∧ state = other then some target.name else none) :=
  lookup_insertLink fsm.modTransMap origin.name name state other target.name

theorem earliest_cons (key : Key) (call : Setup) (rest : List Setup) :
    earliest key (call :: rest) = if call.key = key then some call else earliest key rest := by
  by_cases same : call.key = key <;> simp [earliest,same]

theorem lookup_configured (fsm : Fsm) (calls : List Setup) (name : String) :
    (calls.foldl setup fsm).modMap.lookup name =
      (fsm.modMap.lookup name).or ((firstAdded name calls).map some) := by
  induction calls generalizing fsm with
  | nil => simp [firstAdded,earliest]
  | cons call rest ih =>
    rw [List.foldl_cons,ih,firstAdded,firstAdded,earliest_cons]
    cases call with
    | linkModule origin target state => simp [setup,linkModule,Setup.key]
    | addModule mod =>
      simp only [setup,lookup_addModule,Setup.key,Key.name.injEq]
      by_cases same : mod.name = name
      · cases fsm.modMap.lookup name <;> simp [same,Setup.added]
      · simp [same]

theorem link_configured (fsm : Fsm) (calls : List Setup) (origin : String) (state : ModState) :
    (calls.foldl setup fsm).link origin state =
      (fsm.link origin state).or (firstTarget origin state calls) := by
  induction calls generalizing fsm with
  | nil => simp [firstTarget,earliest]
  | cons call rest ih =>
    rw [List.foldl_cons,ih,firstTarget,firstTarget,earliest_cons]
    cases call with
    | addModule mod =>
      have kept : (fsm.addModule mod).modTransMap = fsm.modTransMap := by
        unfold addModule
        split <;> rfl
      simp [setup,link,kept,Setup.key]
    | linkModule source target other =>
      simp only [setup,link_linkModule,Setup.key,Key.link.injEq]
      by_cases same : source.name = origin ∧ other = state
      · cases fsm.link origin state <;> simp [same,Setup.target]
      · simp [same]

section Configure

variable (startMod endMod : Module) (calls : List Setup)

theorem configure_lookup (name : String) :
    (configure startMod endMod calls).modMap.lookup name = (firstAdded name calls).map some := by
  exact (lookup_configured ⟨[],[],startMod,endMod⟩ calls name).trans (Option.none_or)

theorem configure_link (origin : String) (state : ModState) :
    (configure startMod endMod calls).link origin state = firstTarget origin state calls := by
  exact (link_configured ⟨[],[],startMod,endMod⟩ calls origin state).trans (Option.none_or)

theorem configure_route (mod : Module) (state : ModState) :
    (configure startMod endMod calls).route mod state = specified calls mod state := by
  rw [route_eq,configure_link,configure_link,specified]
  congr 1
  funext target
  rw [configure_lookup]
  cases firstAdded target calls <;> rfl

end Configure

/-- A call whose key an earlier call has set is never the earliest of its key. -/
theorem earliest_repeated (before after : List Setup) (call : Setup) (repeated : call.key ∈ before.map Setup.key)
    (key : Key) : earliest key (before ++ call :: after) = earliest key (before ++ after) := by
  obtain ⟨first,member,same⟩ := List.mem_map.mp repeated
  simp only [earliest,List.find?_append,List.find?_cons]
  by_cases here : call.key = key
  · have found : (before.find? (·.key = key)).isSome := by
      simpa using ⟨first,member,same.trans here⟩
    obtain ⟨winner,has⟩ := Option.isSome_iff_exists.mp found
    simp [has]
  · simp [here]

theorem earliest_swap (before after : List Setup) (first second : Setup) (apart : first.key ≠ second.key)
    (key : Key) :
    earliest key (before ++ first :: second :: after) = earliest key (before ++ second :: first :: after) := by
  simp only [earliest,List.find?_append,List.find?_cons]
  by_cases one : first.key = key
  · have two : second.key ≠ key := fun two => apart (one.trans two.symm)
    simp [one,two]
  · simp [one]

/-- Histories with the same earliest calls specify the same routes. -/
theorem specified_congr {calls other : List Setup} (same : ∀ key, earliest key calls = earliest key other)
    (mod : Module) (state : ModState) : specified calls mod state = specified other mod state := by
  simp only [specified,firstTarget,firstAdded,same]

/-- In every Fsm that calls of `add_module` and `link_module` have built, whatever has been
routed since, a route is the first-added module under the target name of the earliest link;
calls for a key that is set change no route, and calls for different keys commute. -/
theorem route_first_match (startMod endMod : Module) (calls : List Setup) :
    (∀ queries mod state, (((configure startMod endMod calls).queried queries).getNextModule mod state).1 =
      specified calls mod state) ∧
    (∀ before call after, calls = before ++ call :: after → call.key ∈ before.map Setup.key →
      ∀ mod state, (configure startMod endMod calls).route mod state =
        (configure startMod endMod (before ++ after)).route mod state) ∧
    ∀ before first second after, calls = before ++ first :: second :: after → first.key ≠ second.key →
      let swapped := configure startMod endMod (before ++ second :: first :: after)
      (∀ name, (configure startMod endMod calls).modMap.lookup name = swapped.modMap.lookup name) ∧
      (∀ origin state, (configure startMod endMod calls).link origin state = swapped.link origin state) ∧
      ∀ mod state, (configure startMod endMod calls).route mod state = swapped.route mod state := by
  refine ⟨?_,?_,?_⟩
  · intro queries mod state
    rw [← configure_route startMod endMod]
    exact (queried_extends _ queries).route mod state
  · rintro before call after rfl repeated mod state
    rw [configure_route,configure_route]
    exact specified_congr (earliest_repeated before after call repeated) mod state
  · rintro before first second after rfl apart
    have same := earliest_swap before after first second apart
    refine ⟨?_,?_,?_⟩
    · intro name
      rw [configure_lookup,configure_lookup,firstAdded,firstAdded,same]
    · intro origin state
      rw [configure_link,configure_link,firstTarget,firstTarget,same]
    · intro mod state
      rw [configure_route,configure_route]
      exact specified_congr same mod state

/-- A second link and a second module under names that have one, and a link to a module
that is added nowhere. -/
def duplicates : List Setup :=
  [.linkModule ⟨0,"a"⟩ ⟨1,"b"⟩ modSucceed,.linkModule ⟨0,"a"⟩ ⟨2,"c"⟩ modFailed,.addModule ⟨0,"a"⟩,
    .linkModule ⟨0,"a"⟩ ⟨0,"a"⟩ modElse,.addModule ⟨1,"b"⟩,.addModule ⟨3,"b"⟩,
    .linkModule ⟨4,"a"⟩ ⟨0,"a"⟩ modSucceed]

theorem duplicates_routed :
    let fsm := configure ⟨0,"a"⟩ ⟨1,"b"⟩ duplicates
    fsm.route ⟨5,"a"⟩ modSucceed = some ⟨1,"b"⟩ ∧ fsm.route ⟨0,"a"⟩ modFailed = none ∧
    fsm.route ⟨0,"a"⟩ modTimeout = some ⟨0,"a"⟩ ∧
    fsm.route ⟨0,"a"⟩ modSucceed =
      (configure ⟨0,"a"⟩ ⟨1,"b"⟩ duplicates.dropLast).route ⟨0,"a"⟩ modSucceed := by
  obtain ⟨first,repeated,_⟩ := route_first_match ⟨0,"a"⟩ ⟨1,"b"⟩ duplicates
  refine ⟨first [] _ _,first [] _ _,first [] _ _,?_⟩
  exact repeated duplicates.dropLast (.linkModule ⟨4,"a"⟩ ⟨0,"a"⟩ modSucceed) [] rfl (by decide) _ _

end Zerver.Fsm
