import Mathlib.Data.List.Basic
import Mathlib.Logic.Function.Basic
import Zerver.Module
import Zerver.Schedule

/-! The state machine of `framework/fsm.{h,cc}`: the module table, the transition table
and the four functions that walk them. Each of those ends with a tail call, so its body
is a function to the next call; `Mod_async` ends the call tree. -/
namespace Zerver

abbrev ModuleMap := List (String × Option Module)

abbrev ModuleTransitionMap := List (String × List (ModState × String))

/-- A null pointer in the table is a name with `none`. -/
structure Fsm where
  modTransMap : ModuleTransitionMap
  modMap : ModuleMap
  startMod : Module
  endMod : Module
  deriving DecidableEq, Repr

namespace Fsm

open Zerver.Schedule

def addModule (mod : Module) (fsm : Fsm) : Fsm :=
  if (fsm.modMap.lookup mod.name).isSome then fsm
  else { fsm with modMap := fsm.modMap ++ [(mod.name,some mod)] }

/-- `insert` keeps what the map has under the key. -/
def insertState (state : ModState) (target : String) (states : List (ModState × String)) :
    List (ModState × String) :=
  if (states.lookup state).isSome then states else states ++ [(state,target)]

def insertLink (origin : String) (state : ModState) (target : String) :
    ModuleTransitionMap → ModuleTransitionMap
  | [] => [(origin,[(state,target)])]
  | (name,states) :: rest =>
    if name = origin then (name,insertState state target states) :: rest
    else (name,states) :: insertLink origin state target rest

def linkModule (origin target : Module) (state : ModState) (fsm : Fsm) : Fsm :=
  { fsm with modTransMap := insertLink origin.name state target.name fsm.modTransMap }

inductive Setup where
  | addModule (mod : Module)
  | linkModule (origin target : Module) (state : ModState)
  deriving DecidableEq, Repr

def setup (fsm : Fsm) : Setup → Fsm
  | .addModule mod => fsm.addModule mod
  | .linkModule origin target state => fsm.linkModule origin target state

/-- The Fsm that a sequence of calls builds before the first request. -/
def configure (startMod endMod : Module) (calls : List Setup) : Fsm :=
  calls.foldl setup ⟨[],[],startMod,endMod⟩

/-- `mod_map_[name]`: a name that is not there is inserted with a null pointer. -/
def entry (name : String) (fsm : Fsm) : Option Module × Fsm :=
  match fsm.modMap.lookup name with
  | some mod => (mod,fsm)
  | none => (none,{ fsm with modMap := fsm.modMap ++ [(name,none)] })

def getNextModule (mod : Module) (state : ModState) (fsm : Fsm) : Option Module × Fsm :=
  match fsm.modTransMap.lookup mod.name with
  | none => (none,fsm)
  | some states =>
    match states.lookup state with
    | some target => fsm.entry target
    | none =>
      match states.lookup modElse with
      | some target => fsm.entry target
      | none => (none,fsm)

/-- Contexts are numbered in the order of their construction; `exits` is `exit_`. -/
structure World where
  fsm : Fsm
  exits : Nat → Bool
  contexts : Nat

inductive Call where
  | handleRequest (context : Nat)
  | run (mod : Module) (context : Nat) (lastModState : ModState)
  | resume (lastMod : Module) (state : ModState) (context : Nat)
  | endRequest (context : Nat)
  deriving DecidableEq, Repr

/-- A body ends with a tail call, with a return, or in `FsmContext::init` on a null module. -/
inductive Outcome where
  | call (next : Call)
  | returned
  | crashed
  deriving DecidableEq, Repr

namespace World

def exit (w : World) (context : Nat) : World :=
  { w with exits := Function.update w.exits context true }

/-- `reset` clears `exit_`; the data of the modules are reset with it. -/
def handleRequest (context : Nat) (w : World) : Outcome × World :=
  (.call (.run w.fsm.startMod context modStart),
    { w with exits := Function.update w.exits context false })

def afterRun (mod : Module) (state : ModState) (context : Nat) (w : World) : Outcome × World :=
  if state ≠ modAsync then
    if mod = w.fsm.endMod then (.call (.endRequest context),w)
    else
      match w.fsm.getNextModule mod state with
      | (none,fsm) => (.call (.endRequest context),{ w with fsm := fsm }.exit context)
      | (some next,fsm) => (.call (.run next context state),{ w with fsm := fsm })
  else (.returned,w)

def resume (lastMod : Module) (state : ModState) (context : Nat) (w : World) : Outcome × World :=
  if lastMod = w.fsm.endMod then (.call (.endRequest context),w)
  else
    match w.fsm.getNextModule lastMod state with
    | (none,fsm) => (.call (.endRequest context),{ w with fsm := fsm }.exit context)
    | (some next,fsm) => (.call (.run next context state),{ w with fsm := fsm })

/-- The fresh context calls `create_data` of every module in the table. -/
def endRequest (context : Nat) (w : World) : Outcome × World :=
  if w.exits context then (.returned,w)
  else if w.fsm.modMap.any (·.2.isNone) then (.crashed,w)
  else (.call (.handleRequest w.contexts),
    { w with contexts := w.contexts + 1, exits := Function.update w.exits w.contexts false })

/-- The two copies of the continuation agree. -/
theorem afterRun_eq_resume (mod : Module) (state : ModState) (context : Nat) (w : World)
    (done : state ≠ modAsync) : w.afterRun mod state context = w.resume mod state context := by
  simp [afterRun,resume,done]

end World

/-- Where `_get_next_module` leads, without the entry it may leave in the table. -/
def route (fsm : Fsm) (mod : Module) (state : ModState) : Option Module :=
  (fsm.getNextModule mod state).1

/-- The tables agree on everything but null entries. -/
structure Extends (fsm next : Fsm) : Prop where
  modTransMap : next.modTransMap = fsm.modTransMap
  modMap : ∀ name, (next.modMap.lookup name).join = (fsm.modMap.lookup name).join
  startMod : next.startMod = fsm.startMod
  endMod : next.endMod = fsm.endMod

theorem Extends.refl (fsm : Fsm) : Extends fsm fsm := ⟨rfl,fun _ => rfl,rfl,rfl⟩

theorem Extends.trans {first second third : Fsm} (one : Extends first second)
    (two : Extends second third) : Extends first third where
  modTransMap := two.modTransMap.trans one.modTransMap
  modMap name := (two.modMap name).trans (one.modMap name)
  startMod := two.startMod.trans one.startMod
  endMod := two.endMod.trans one.endMod

theorem entry_fst (fsm : Fsm) (name : String) : (fsm.entry name).1 = (fsm.modMap.lookup name).join := by
  unfold entry
  cases fsm.modMap.lookup name <;> rfl

theorem entry_extends (fsm : Fsm) (name : String) : Extends fsm (fsm.entry name).2 := by
  unfold entry
  cases found : fsm.modMap.lookup name with
  | some mod => exact .refl fsm
  | none =>
    refine ⟨rfl,?_,rfl,rfl⟩
    intro other
    rw [List.lookup_append]
    cases fsm.modMap.lookup other with
    | some mod => rfl
    | none => by_cases same : other == name <;> simp [List.lookup_cons,same]

theorem entry_snd (fsm : Fsm) (name : String) (found : (fsm.entry name).1.isSome) :
    (fsm.entry name).2 = fsm := by
  unfold entry at found ⊢
  cases present : fsm.modMap.lookup name with
  | some mod => rfl
  | none => simp [present] at found

theorem getNextModule_extends (fsm : Fsm) (mod : Module) (state : ModState) :
    Extends fsm (fsm.getNextModule mod state).2 := by
  unfold getNextModule
  split
  · exact .refl fsm
  · split
    · exact entry_extends fsm _
    · split
      · exact entry_extends fsm _
      · exact .refl fsm

/-- A transition that is found leaves the table as it was. -/
theorem getNextModule_found (fsm : Fsm) (mod : Module) (state : ModState)
    (found : (fsm.route mod state).isSome) : (fsm.getNextModule mod state).2 = fsm := by
  unfold route getNextModule at *
  split at found
  · simp at found
  · split at found
    · exact entry_snd fsm _ found
    · split at found
      · exact entry_snd fsm _ found
      · simp at found

theorem Extends.route {fsm next : Fsm} (same : Extends fsm next) (mod : Module) (state : ModState) :
    next.route mod state = fsm.route mod state := by
  have entries (name : String) : (next.entry name).1 = (fsm.entry name).1 := by
    rw [entry_fst,entry_fst,same.modMap]
  unfold Fsm.route getNextModule
  rw [same.modTransMap]
  split
  · rfl
  · split
    · exact entries _
    · split
      · exact entries _
      · rfl

/-- What `resume` makes of a state: the request has left the graph, the linked module is
called, or there is none and the context exits. -/
inductive World.Continued (w : World) (mod : Module) (state : ModState) (context : Nat) :
    Outcome × World → Prop where
  | atEnd : mod = w.fsm.endMod → Continued w mod state context (.call (.endRequest context),w)
  | linked : mod ≠ w.fsm.endMod → w.fsm.route mod state = some next →
      Continued w mod state context (.call (.run next context state),w)
  | unlinked (table : Fsm) : mod ≠ w.fsm.endMod → w.fsm.route mod state = none → Extends w.fsm table →
      Continued w mod state context (.call (.endRequest context),{ w with fsm := table }.exit context)

theorem World.resume_continued (w : World) (mod : Module) (state : ModState) (context : Nat) :
    w.Continued mod state context (w.resume mod state context) := by
  unfold World.resume
  by_cases atEnd : mod = w.fsm.endMod
  · rw [if_pos atEnd]
    exact .atEnd atEnd
  · rw [if_neg atEnd]
    have extended := getNextModule_extends w.fsm mod state
    have kept := getNextModule_found w.fsm mod state
    have route : w.fsm.route mod state = (w.fsm.getNextModule mod state).1 := rfl
    rw [route] at kept
    cases taken : w.fsm.getNextModule mod state with
    | mk found table =>
      rw [taken] at extended kept route
      cases found with
      | none => exact .unlinked table atEnd route extended
      | some next =>
        obtain rfl : table = w.fsm := kept rfl
        exact .linked atEnd route

/-- Configuration enters no null pointer and leaves the ends of the walk alone. -/
structure Configured (startMod endMod : Module) (fsm : Fsm) : Prop where
  entries : fsm.modMap.any (·.2.isNone) = false
  startMod : fsm.startMod = startMod
  endMod : fsm.endMod = endMod

theorem configure_configured (startMod endMod : Module) (calls : List Setup) :
    Configured startMod endMod (configure startMod endMod calls) := by
  have preserved (fsm : Fsm) (call : Setup) (valid : Configured startMod endMod fsm) :
      Configured startMod endMod (setup fsm call) := by
    cases call with
    | linkModule origin target state => exact ⟨valid.entries,valid.startMod,valid.endMod⟩
    | addModule mod =>
      simp only [setup,addModule]
      split
      · exact valid
      · exact ⟨by simp [valid.entries],valid.startMod,valid.endMod⟩
  exact execute_invariant preserved ⟨rfl,rfl,rfl⟩ calls

end Fsm

end Zerver
