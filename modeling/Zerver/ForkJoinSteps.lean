import Zerver.ForkJoinGraph

/-! What the log of a machine counts, and what performing a token leaves alone. -/
namespace Zerver.ForkJoin

open Zerver.Fsm

theorem arrivals_run (log : List Event) (context : Nat) (join : Module) (lastModState : ModState) :
    arrivals (log ++ [.performed (.calling (.run join context lastModState))]) context join =
      arrivals log context join + 1 := by
  simp [arrivals,List.countP_append]

theorem arrivals_other (log : List Event) (context : Nat) (join : Module) (token : Token)
    (other : ∀ lastModState, token ≠ .calling (.run join context lastModState)) :
    arrivals (log ++ [.performed token]) context join = arrivals log context join := by
  simp only [arrivals,List.countP_append,List.countP_singleton]
  split
  · rename_i mod c lastModState performed
    obtain rfl := Event.performed.inj performed
    have different : ¬(mod = join ∧ c = context) := by
      rintro ⟨rfl,rfl⟩
      exact other lastModState rfl
    simp [different]
  · simp

theorem resumes_other (log : List Event) (context : Nat) (join : Module) (token : Token)
    (other : ∀ state, token ≠ .onJoined join state context) :
    resumes (log ++ [.performed token]) context join = resumes log context join := by
  simp only [resumes,List.countP_append,List.countP_singleton]
  split
  · rename_i mod state c performed
    obtain rfl := Event.performed.inj performed
    have different : ¬(mod = join ∧ c = context) := by
      rintro ⟨rfl,rfl⟩
      exact other state rfl
    simp [different]
  · simp

theorem performances_take (log : List Event) (token : Token) :
    performances (log ++ [.performed token]) token.context = performances log token.context + 1 := by
  simp [performances,List.countP_append]

theorem ends_other (log : List Event) (token : Token) (context : Nat)
    (further : token ≠ .calling (.endRequest context)) :
    ends (log ++ [.performed token]) context = ends log context := by
  simp only [ends,List.countP_append,List.countP_singleton]
  split
  · rename_i c performed
    obtain rfl := Event.performed.inj performed
    have different : c ≠ context := by
      rintro rfl
      exact further rfl
    simp [different]
  · simp

/-- What a log says about one context. -/
def record (log : List Event) (context : Nat) : List Event := log.filter (·.context = context)

theorem countP_record (p : Event → Bool) (log : List Event) (context : Nat)
    (own : ∀ event, p event → event.context = context) : log.countP p = (record log context).countP p := by
  rw [record,List.countP_filter]
  apply List.countP_congr
  intro event _
  simpa using own event

theorem ends_record (log : List Event) (context : Nat) :
    ends log context = ends (record log context) context := by
  apply countP_record
  intro event counted
  split at counted
  · exact of_decide_eq_true counted
  · cases counted

theorem successors_record (log : List Event) (context : Nat) :
    successors log context = successors (record log context) context := by
  apply countP_record
  intro event counted
  split at counted
  · exact of_decide_eq_true counted
  · cases counted

theorem performances_record (log : List Event) (context : Nat) :
    performances log context = performances (record log context) context := by
  apply countP_record
  intro event counted
  split at counted
  · exact of_decide_eq_true counted
  · cases counted

theorem record_append (log events : List Event) (context : Nat)
    (others : ∀ event ∈ events, event.context ≠ context) :
    record (log ++ events) context = record log context := by
  have none : events.filter (·.context = context) = [] :=
    List.filter_eq_nil_iff.mpr (by simpa using others)
  rw [record,List.filter_append,none,List.append_nil]
  rfl

theorem record_nil (log : List Event) (context : Nat) (others : ∀ event ∈ log, event.context ≠ context) :
    record log context = [] :=
  record_append [] log context others

section Exit

variable (exit : Bool) (context : Nat) (m : Machine)

@[simp] theorem exitIf_fsm : (m.exitIf exit context).world.fsm = m.world.fsm := by
  cases exit <;> rfl

@[simp] theorem exitIf_contexts : (m.exitIf exit context).world.contexts = m.world.contexts := by
  cases exit <;> rfl

@[simp] theorem exitIf_joins : (m.exitIf exit context).joins = m.joins := by
  cases exit <;> rfl

@[simp] theorem exitIf_tokens : (m.exitIf exit context).tokens = m.tokens := by
  cases exit <;> rfl

@[simp] theorem exitIf_log : (m.exitIf exit context).log = m.log := by
  cases exit <;> rfl

@[simp] theorem exitIf_crashed : (m.exitIf exit context).crashed = m.crashed := by
  cases exit <;> rfl

theorem exitIf_exits (c : Nat) (other : c ≠ context) :
    (m.exitIf exit context).world.exits c = m.world.exits c := by
  cases exit with
  | false => rfl
  | true => exact Function.update_of_ne other _ _

end Exit

/-- A token of the context is performed, and the connection stays with the context. -/
structure Stays (context : Nat) (token : Token) (m m' : Machine) : Prop where
  fsm : m'.world.fsm = m.world.fsm
  contexts : m'.world.contexts = m.world.contexts
  exits : ∀ c, c ≠ context → m'.world.exits c = m.world.exits c
  crashed : m'.crashed = m.crashed
  log : m'.log = m.log ++ [.performed token]

theorem Stays.take (m : Machine) (token : Token) : Stays context token m (m.take token) :=
  ⟨rfl,rfl,fun _ _ => rfl,rfl,rfl⟩

theorem Stays.exitIf (exit : Bool) (m : Machine) (token : Token) :
    Stays context token m ((m.take token).exitIf exit context) := by
  refine ⟨?_,?_,?_,?_,?_⟩
  · rw [exitIf_fsm]; rfl
  · rw [exitIf_contexts]; rfl
  · intro c other
    rw [exitIf_exits _ _ _ c other]; rfl
  · rw [exitIf_crashed]; rfl
  · rw [exitIf_log]; rfl

theorem Stays.add (stays : Stays context token m m') (tokens : List Token) :
    Stays context token m (m'.add tokens) :=
  ⟨stays.fsm,stays.contexts,stays.exits,stays.crashed,stays.log⟩

theorem follow_async (m : Machine) (mod : Module) (context : Nat) :
    m.follow (m.world.afterRun mod modAsync context) = m := by
  simp [World.afterRun,Machine.follow]

section Kinds

variable {cfg : Config} {fsm : Fsm}

theorem produces_finishes (kind : cfg.kind mod = .sequential) (produced : cfg.produces mod state) :
    state ≠ modAsync := by
  unfold Config.produces at produced
  rw [kind] at produced
  simpa using (Bool.and_eq_true_iff.mp produced).2

theorem dataKind_registered {m : Machine} (same : m.world.fsm = fsm) (registered : Registered fsm mod) :
    m.dataKind cfg mod = some (cfg.kind mod) := by
  have found : fsm.modMap.lookup mod.name = some (some mod) := registered
  simp [Machine.dataKind,same,found]

theorem state_produced (kind : cfg.kind join = .join) (data : JoinData) :
    cfg.produces join data.state := by
  unfold Config.produces JoinData.state
  rw [kind]
  cases data.failedJoin <;> rfl

end Kinds

end Zerver.ForkJoin
