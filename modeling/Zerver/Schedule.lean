import Mathlib.Data.List.Basic

/-! Runs of a deterministic step function under a list of scheduled actions.
All nondeterminism is in the schedule: an action that is not enabled leaves the
state unchanged, so a statement about every schedule is one about every run. -/
namespace Zerver.Schedule

variable {σ : Type*} {α : Type*} {step : σ → α → σ} {s : σ}

def execute (step : σ → α → σ) (s : σ) (schedule : List α) : σ := schedule.foldl step s

@[simp] theorem execute_nil : execute step s [] = s := rfl

@[simp] theorem execute_cons (a : α) (rest : List α) :
    execute step s (a :: rest) = execute step (step s a) rest := rfl

@[simp] theorem execute_append (first later : List α) :
    execute step s (first ++ later) = execute step (execute step s first) later :=
  List.foldl_append

/-- Every scheduled step is taken from a state that meets `cond` for its action. -/
def Along (step : σ → α → σ) (cond : σ → α → Prop) : σ → List α → Prop
  | _, [] => True
  | s, a :: rest => cond s a ∧ Along step cond (step s a) rest

instance Along.decidable (cond : σ → α → Prop) [∀ s a, Decidable (cond s a)] :
    ∀ (s : σ) (schedule : List α), Decidable (Along step cond s schedule)
  | _, [] => isTrue trivial
  | s, a :: rest =>
    haveI := Along.decidable cond (step s a) rest
    inferInstanceAs (Decidable (cond s a ∧ Along step cond (step s a) rest))

theorem along_append (cond : σ → α → Prop) (first later : List α) :
    Along step cond s (first ++ later) ↔
      Along step cond s first ∧ Along step cond (execute step s first) later := by
  induction first generalizing s with
  | nil => simp [Along]
  | cons a rest ih => simp [Along,ih,and_assoc]

/-- Runs meet a condition at every step exactly when each of their steps does. -/
theorem along_iff_split (cond : σ → α → Prop) (schedule : List α) :
    Along step cond s schedule ↔
      ∀ first a later, schedule = first ++ a :: later → cond (execute step s first) a := by
  constructor
  · rintro along first a later rfl
    exact ((along_append cond first (a :: later)).mp along).2.1
  · intro each
    induction schedule generalizing s with
    | nil => trivial
    | cons a rest ih =>
      refine ⟨each [] a rest rfl,ih ?_⟩
      intro first b later split
      exact each (a :: first) b later (by rw [split]; rfl)

theorem along_and {first second : σ → α → Prop} {schedule : List α} (one : Along step first s schedule)
    (two : Along step second s schedule) :
    Along step (fun s a => first s a ∧ second s a) s schedule := by
  induction schedule generalizing s with
  | nil => trivial
  | cons a rest ih => exact ⟨⟨one.1,two.1⟩,ih one.2 two.2⟩

theorem along_of_forall {cond : α → Prop} (schedule : List α) (each : ∀ a ∈ schedule, cond a) :
    Along step (fun _ => cond) s schedule := by
  induction schedule generalizing s with
  | nil => trivial
  | cons a rest ih =>
    exact ⟨each a List.mem_cons_self,ih fun b member => each b (List.mem_cons_of_mem a member)⟩

/-- The invariant rule for all runs. -/
theorem execute_invariant {I : σ → Prop} (preserves : ∀ s a, I s → I (step s a))
    (initial : I s) (schedule : List α) : I (execute step s schedule) := by
  induction schedule generalizing s with
  | nil => exact initial
  | cons a rest ih => exact ih (preserves s a initial)

/-- The invariant rule for the runs all of whose steps meet a condition. -/
theorem along_invariant {I : σ → Prop} {cond : σ → α → Prop}
    (preserves : ∀ s a, cond s a → I s → I (step s a))
    (initial : I s) (schedule : List α) (along : Along step cond s schedule) :
    I (execute step s schedule) := by
  induction schedule generalizing s with
  | nil => exact initial
  | cons a rest ih => exact ih (preserves s a along.1 initial) along.2

end Zerver.Schedule
