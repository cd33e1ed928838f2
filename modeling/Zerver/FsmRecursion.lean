import Mathlib.Logic.Function.Iterate
import Mathlib.Logic.Relation
import Zerver.FsmRouting

/-! One call of `handle_request` or `resume` until it returns. `_run` recurses along the
links that are taken on a state returned directly, and through `_end_request` it starts
the next request inside the old one; there the start module ends the recursion. -/
namespace Zerver.FsmRecursion

open Zerver.Assoc Zerver.Fsm

/-- What a run of a module does: the state it returns, and whether it calls `exit()`. -/
structure Answer where
  state : ModState
  exits : Bool
  deriving DecidableEq, Repr

/-- The answer to the n-th module run of a call tree, whatever module that is. -/
abbrev Answers := Nat → Module → Nat → ModState → Answer

structure Tree where
  outcome : Outcome
  world : World
  runs : List Module

def Tree.follow (t : Tree) (next : Outcome × World) : Tree := { t with outcome := next.1, world := next.2 }

def body (answers : Answers) (t : Tree) : Call → Tree
  | .handleRequest context => t.follow (t.world.handleRequest context)
  | .run mod context lastModState =>
    let answer := answers t.runs.length mod context lastModState
    let world := if answer.exits then t.world.exit context else t.world
    { t with runs := t.runs ++ [mod] }.follow (world.afterRun mod answer.state context)
  | .resume lastMod state context => t.follow (t.world.resume lastMod state context)
  | .endRequest context => t.follow (t.world.endRequest context)

def step (answers : Answers) (t : Tree) : Tree :=
  match t.outcome with
  | .call call => body answers t call
  | .returned | .crashed => t

def unwind (answers : Answers) (call : Call) (w : World) (k : Nat) : Tree :=
  (step answers)^[k] ⟨.call call,w,[]⟩

/-- The links taken on a state that is returned directly from `run`. -/
def SyncLink (fsm : Fsm) (returns : Module → ModState → Prop) (mod next : Module) : Prop :=
  mod ≠ fsm.endMod ∧ ∃ state, returns mod state ∧ state ≠ modAsync ∧ fsm.route mod state = some next

def modules (fsm : Fsm) : List Module := fsm.modMap.filterMap Prod.snd

theorem route_modules {fsm : Fsm} (route : fsm.route mod state = some next) : next ∈ modules fsm := by
  rw [route_eq,Option.bind_eq_some_iff] at route
  obtain ⟨name,_,found⟩ := route
  exact List.mem_filterMap.mpr ⟨_,lookup_mem (Option.join_eq_some_iff.mp found),rfl⟩

/-- The call tree ends with at most `bound` module runs. Only a null pointer in the module
table keeps it from returning. -/
def Ends (answers : Answers) (null : Bool) (bound : Nat) (t : Tree) : Prop :=
  ∃ k, (((step answers)^[k] t).outcome = .returned ∨ (((step answers)^[k] t).outcome = .crashed ∧ null = true)) ∧
    ∀ j, ((step answers)^[j] t).runs.length ≤ bound

section Steps

variable {answers : Answers} {null : Bool} {bound : Nat} {t : Tree}

theorem Ends.next (few : t.runs.length ≤ bound) (later : Ends answers null bound (step answers t)) :
    Ends answers null bound t := by
  obtain ⟨k,ended,runs⟩ := later
  refine ⟨k + 1,ended,?_⟩
  intro j
  cases j with
  | zero => exact few
  | succ j => exact runs j

theorem Ends.of_ended (few : t.runs.length ≤ bound)
    (ended : t.outcome = .returned ∨ (t.outcome = .crashed ∧ null = true)) : Ends answers null bound t := by
  have still (j : Nat) : (step answers)^[j] t = t := by
    apply Function.iterate_fixed
    rcases ended with returned | ⟨crashed,_⟩
    · simp [step,returned]
    · simp [step,crashed]
  exact ⟨0,ended,fun j => by rw [still]; exact few⟩

theorem start_ends (quick : ∀ n context state, (answers n t.world.fsm.startMod context state).state = modAsync)
    (outcome : t.outcome = .call (.run t.world.fsm.startMod context modStart))
    (few : t.runs.length + 1 ≤ bound) : Ends answers null bound t := by
  apply Ends.next (by omega)
  apply Ends.of_ended
  · simp only [step,outcome,body,Tree.follow,List.length_append,List.length_singleton]
    exact few
  · left
    simp [step,outcome,body,Tree.follow,World.afterRun,quick]

theorem handleRequest_ends
    (quick : ∀ n context state, (answers n t.world.fsm.startMod context state).state = modAsync)
    (outcome : t.outcome = .call (.handleRequest context)) (few : t.runs.length + 1 ≤ bound) :
    Ends answers null bound t := by
  apply Ends.next (by omega)
  have stepped : step answers t = t.follow (t.world.handleRequest context) := by simp [step,outcome,body]
  rw [stepped]
  exact start_ends quick rfl few

theorem endRequest_ends (context : Nat)
    (quick : ∀ n context state, (answers n t.world.fsm.startMod context state).state = modAsync)
    (outcome : t.outcome = .call (.endRequest context)) (few : t.runs.length + 1 ≤ bound)
    (clean : t.world.exits context = true ∨ (t.world.fsm.modMap.any (·.2.isNone) = true → null = true)) :
    Ends answers null bound t := by
  apply Ends.next (by omega)
  have stepped : step answers t = t.follow (t.world.endRequest context) := by simp [step,outcome,body]
  rw [stepped,World.endRequest]
  split
  · exact .of_ended (by simp only [Tree.follow]; omega) (.inl rfl)
  · rename_i stays
    split
    · rename_i entry
      exact .of_ended (by simp only [Tree.follow]; omega) (.inr ⟨rfl,(clean.resolve_left stays) entry⟩)
    · exact handleRequest_ends quick rfl few

end Steps

theorem continued_ends {answers : Answers} {null : Bool} {bound : Nat} {t : Tree} {w : World}
    (continued : w.Continued mod state context next)
    (quick : ∀ n context state, (answers n w.fsm.startMod context state).state = modAsync)
    (clean : w.fsm.modMap.any (·.2.isNone) = true → null = true) (few : t.runs.length + 1 ≤ bound)
    (linked : ∀ target, mod ≠ w.fsm.endMod → w.fsm.route mod state = some target →
      Ends answers null bound (t.follow (.call (.run target context state),w))) :
    Ends answers null bound (t.follow next) := by
  cases continued with
  | atEnd atEnd => exact endRequest_ends context quick rfl few (.inr clean)
  | linked inner route => exact linked _ inner route
  | unlinked table inner route extended =>
    refine endRequest_ends context ?_ rfl few (.inl (by simp [Tree.follow,World.exit]))
    simpa [Tree.follow,World.exit,extended.startMod] using quick

section Chain

variable {answers : Answers} {fsm : Fsm} {returns : Module → ModState → Prop}

/-- The chain of synchronous runs: each module leads on to the one about to be run, so
none is met twice, and the table has one left. -/
theorem chain_ends (obeys : ∀ n mod context state, returns mod (answers n mod context state).state)
    (quick : ∀ state, returns fsm.startMod state → state = modAsync)
    (acyclic : ∀ mod, ¬Relation.TransGen (SyncLink fsm returns) mod mod) (t : Tree)
    (outcome : t.outcome = .call (.run mod context lastModState)) (same : t.world.fsm = fsm)
    (member : mod ∈ modules fsm) (table : t.runs ⊆ modules fsm) (nodup : t.runs.Nodup)
    (leads : ∀ first ∈ t.runs, Relation.TransGen (SyncLink fsm returns) first mod) :
    Ends answers (fsm.modMap.any (·.2.isNone)) ((modules fsm).length + 1) t := by
  have fresh : mod ∉ t.runs := fun here => acyclic mod (leads mod here)
  have nodup' : (t.runs ++ [mod]).Nodup := by
    rw [List.perm_append_comm.nodup_iff]
    exact List.nodup_cons.mpr ⟨fresh,nodup⟩
  have table' : t.runs ++ [mod] ⊆ modules fsm :=
    List.append_subset.mpr ⟨table,by simpa using member⟩
  have room : t.runs.length < (modules fsm).length := by
    simpa [Nat.succ_le_iff] using nodup'.length_le_of_subset table'
  apply Ends.next (by omega)
  simp only [step,outcome,body]
  have returned := obeys t.runs.length mod context lastModState
  generalize answers t.runs.length mod context lastModState = answer at returned
  have same' : (if answer.exits then t.world.exit context else t.world).fsm = fsm := by
    rw [← same]
    split <;> rfl
  generalize (if answer.exits then t.world.exit context else t.world) = w at same'
  by_cases done : answer.state = modAsync
  · apply Ends.of_ended
    · simp only [Tree.follow,List.length_append,List.length_singleton]
      omega
    · left
      simp [Tree.follow,World.afterRun,done]
  · rw [World.afterRun_eq_resume _ _ _ _ done]
    apply continued_ends (w.resume_continued mod answer.state context)
    · intro n context state
      rw [same']
      exact quick _ (obeys _ _ _ _)
    · rw [same']
      exact id
    · simpa [Nat.succ_le_iff] using room
    · intro target inner route
      rw [same'] at inner route
      have link : SyncLink fsm returns mod target := ⟨inner,answer.state,returned,done,route⟩
      refine chain_ends obeys quick acyclic _ rfl same' (route_modules route) table' nodup' ?_
      intro first here
      rcases List.mem_append.mp here with before | last
      · exact (leads first before).tail link
      · rw [List.mem_singleton.mp last]
        exact .single link
termination_by (modules fsm).length - t.runs.length
decreasing_by
  change (modules fsm).length - (t.runs ++ [mod]).length < _
  rw [List.length_append,List.length_singleton]
  omega

end Chain

/-- Every call of `handle_request` and of `resume` ends, after at most one module run more
than the table has modules, and returns unless a null pointer was in the table. -/
theorem recursion_ends (w : World) (returns : Module → ModState → Prop)
    (quick : ∀ state, returns w.fsm.startMod state → state = modAsync)
    (acyclic : ∀ mod, ¬Relation.TransGen (SyncLink w.fsm returns) mod mod) (answers : Answers)
    (obeys : ∀ n mod context state, returns mod (answers n mod context state).state) (call : Call)
    (entry : (∃ context, call = .handleRequest context) ∨
      ∃ lastMod state context, call = .resume lastMod state context) :
    ∃ k, ((unwind answers call w k).outcome = .returned ∨
        ((unwind answers call w k).outcome = .crashed ∧ w.fsm.modMap.any (·.2.isNone) = true)) ∧
      ∀ j, (unwind answers call w j).runs.length ≤ (modules w.fsm).length + 1 := by
  have async (n : Nat) (context : Nat) (state : ModState) :
      (answers n w.fsm.startMod context state).state = modAsync := quick _ (obeys _ _ _ _)
  have ends : Ends answers (w.fsm.modMap.any (·.2.isNone)) ((modules w.fsm).length + 1) ⟨.call call,w,[]⟩ := by
    rcases entry with ⟨context,rfl⟩ | ⟨lastMod,state,context,rfl⟩
    · exact handleRequest_ends async rfl (by simp)
    · apply Ends.next (by simp)
      refine continued_ends (t := ⟨.call (.resume lastMod state context),w,[]⟩)
        (w.resume_continued lastMod state context) async id (by simp) ?_
      intro target inner route
      refine chain_ends obeys quick acyclic _ rfl rfl (route_modules route) ?_ ?_ ?_ <;> simp [Tree.follow]
  exact ends

/-- A request, one module that works synchronously, and the response. -/
def relay : Fsm :=
  configure ⟨0,"request"⟩ ⟨2,"response"⟩ [.addModule ⟨0,"request"⟩,.addModule ⟨1,"work"⟩,
    .addModule ⟨2,"response"⟩,.linkModule ⟨0,"request"⟩ ⟨1,"work"⟩ modSucceed,
    .linkModule ⟨1,"work"⟩ ⟨2,"response"⟩ modSucceed]

def relayReturns (mod : Module) (state : ModState) : Prop :=
  (mod = ⟨0,"request"⟩ ∧ state = modAsync) ∨ (mod ≠ ⟨0,"request"⟩ ∧ state = modSucceed)

theorem relay_acyclic (mod : Module) : ¬Relation.TransGen (SyncLink relay relayReturns) mod mod := by
  have final (next : Module) : ¬SyncLink relay relayReturns ⟨2,"response"⟩ next := fun link => link.1 rfl
  intro cycle
  obtain ⟨next,⟨inner,state,returned,done,route⟩,back⟩ := Relation.TransGen.head'_iff.mp cycle
  rcases returned with ⟨_,rfl⟩ | ⟨other,rfl⟩
  · exact done rfl
  · obtain ⟨before,_,_,_,_,_,into⟩ := Relation.TransGen.tail'_iff.mp cycle
    have member := route_modules into
    simp only [show modules relay = [⟨0,"request"⟩,⟨1,"work"⟩,⟨2,"response"⟩] from rfl,List.mem_cons,
      List.not_mem_nil,or_false] at member
    obtain rfl : mod = ⟨1,"work"⟩ := (member.resolve_left other).resolve_right inner
    obtain rfl : ⟨2,"response"⟩ = next := Option.some.inj route
    rcases Relation.ReflTransGen.cases_head back with same | ⟨later,link,_⟩
    · exact absurd same (by decide)
    · exact final later link

theorem relay_ends :
    let answers : Answers := fun _ mod _ _ => ⟨if mod = ⟨0,"request"⟩ then modAsync else modSucceed,false⟩
    let tree := unwind answers (.resume ⟨0,"request"⟩ modSucceed 0) ⟨relay,fun _ => false,1⟩
    (∃ k, (tree k).outcome = .returned) ∧ ∀ j, (tree j).runs.length ≤ 4 := by
  intro answers tree
  obtain ⟨k,ended,few⟩ := recursion_ends ⟨relay,fun _ => false,1⟩ relayReturns
    (fun _ returned => (returned.resolve_right fun other => other.1 rfl).2) relay_acyclic answers
    (by intro n mod context state; by_cases start : mod = ⟨0,"request"⟩ <;> simp [answers,relayReturns,start])
    (.resume ⟨0,"request"⟩ modSucceed 0) (.inr ⟨_,_,_,rfl⟩)
  exact ⟨⟨k,ended.resolve_right fun crashed => absurd crashed.2 (by decide)⟩,few⟩

end Zerver.FsmRecursion
