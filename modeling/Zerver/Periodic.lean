import Zerver.DeadlineTimer
import Zerver.Schedule

/-! A job that a deadline timer repeats. Its handler does the job, whatever its error
code, and arms the timer again for one period later; in between others make what calls
they like. The clock counts milliseconds and never goes back, and a handler may be late. -/
namespace Zerver.Periodic

open Zerver.Asio
open Zerver.Schedule

/-- `step` is the component without its timer, `isJob` tells the calls of its handler and
`isCall` those of others, and `wait` is what the component itself sees of the clock. -/
structure Job (σ α : Type*) where
  step : σ → α → σ
  isJob : α → Bool
  isCall : α → Bool
  period : Nat
  wait : Int → Int → List α

/-- `last` is when the job was last done, or was set up. -/
structure State (σ : Type*) where
  now : Int
  deadline : Int
  timer : Timer Unit
  last : Int
  inner : σ

inductive Action (α : Type*) where
  | pass (amount : Nat)
  | expire
  | handler (index : Nat) (a : α)
  | call (a : α)

variable {σ α : Type*} (job : Job σ α)

/-- `expires_from_now` and `async_wait`. -/
def callLater (s : State σ) : State σ :=
  { s with deadline := s.now + job.period, timer := s.timer.arm () }

def initial (now : Int) (inner : σ) : State σ := callLater job ⟨now,now,.idle,now,inner⟩

def step (s : State σ) : Action α → State σ
  | .pass amount =>
    { s with
      now := s.now + amount
      inner := execute job.step s.inner (job.wait s.now (s.now + amount)) }
  | .expire => if s.deadline ≤ s.now then { s with timer := s.timer.expire } else s
  | .handler index a =>
    if job.isJob a = true ∧ index < s.timer.queued.length then
      callLater job { s with timer := s.timer.take index, last := s.now, inner := job.step s.inner a }
    else s
  | .call a => if job.isCall a = true then { s with inner := job.step s.inner a } else s

/-- The calls meet `cond`, and no handler is more than `delay` late. -/
def Meets (delay : Option Nat) (cond : σ → α → Prop) (s : State σ) : Action α → Prop
  | .pass amount => ∀ d ∈ delay, s.now + amount ≤ s.deadline + d
  | .expire => True
  | .handler _ a | .call a => cond s.inner a

def seen (s : State σ) : Action α → List α
  | .pass amount => job.wait s.now (s.now + amount)
  | .expire => []
  | .handler index a => if job.isJob a = true ∧ index < s.timer.queued.length then [a] else []
  | .call a => if job.isCall a = true then [a] else []

theorem step_inner (s : State σ) (a : Action α) :
    (step job s a).inner = execute job.step s.inner (seen job s a) := by
  cases a with
  | pass amount => rfl
  | expire => simp only [step,seen]; split <;> rfl
  | handler index a => simp only [step,seen]; split <;> rfl
  | call a => simp only [step,seen]; split <;> rfl

/-- A run with the timer is a run of the component, under the same condition. -/
theorem run_inner {delay : Option Nat} {cond : σ → α → Prop}
    (waits : ∀ (now later : Int) x, Along job.step cond x (job.wait now later)) (s : State σ)
    (schedule : List (Action α)) (along : Along (step job) (Meets delay cond) s schedule) :
    ∃ calls, (execute (step job) s schedule).inner = execute job.step s.inner calls ∧
      Along job.step cond s.inner calls := by
  induction schedule generalizing s with
  | nil => exact ⟨[],rfl,trivial⟩
  | cons a rest ih =>
    obtain ⟨calls,inner,later⟩ := ih (step job s a) along.2
    rw [step_inner,← execute_append] at inner
    rw [step_inner] at later
    refine ⟨seen job s a ++ calls,inner,(along_append cond _ _).mpr ⟨?_,later⟩⟩
    cases a with
    | pass amount => exact waits s.now (s.now + amount) s.inner
    | expire => trivial
    | handler index a =>
      simp only [seen]
      split
      · exact ⟨along.1,trivial⟩
      · trivial
    | call a =>
      simp only [seen]
      split
      · exact ⟨along.1,trivial⟩
      · trivial

theorem meets_unbounded (s : State σ) (schedule : List (Action α)) :
    Along (step job) (Meets none fun _ _ => True) s schedule := by
  induction schedule generalizing s with
  | nil => trivial
  | cons a rest ih =>
    refine ⟨?_,ih _⟩
    cases a with
    | pass amount =>
      intro d none
      cases none
    | expire => trivial
    | handler index a => trivial
    | call a => trivial

/-- The timer of a job that nobody else arms: one handler is waiting or queued, and it
is never cancelled. -/
structure Sound (s : State σ) : Prop where
  one : s.timer.waiting.length + s.timer.queued.length = 1
  expired : ∀ entry ∈ s.timer.queued, entry.2 = .success
  due : s.timer.queued ≠ [] → s.deadline ≤ s.now
  armed : s.deadline = s.last + job.period
  past : s.last ≤ s.now

theorem initial_sound (now : Int) (inner : σ) : Sound job (initial job now inner) := by
  constructor <;> simp [initial,callLater,Timer.idle]

variable {job} {s : State σ}

theorem Sound.alone (sound : Sound job s) {index : Nat} (here : index < s.timer.queued.length) :
    s.timer.waiting = [] ∧ (s.timer.take index).queued = [] := by
  have one := sound.one
  refine ⟨List.eq_nil_of_length_eq_zero (by omega),List.eq_nil_of_length_eq_zero ?_⟩
  rw [Timer.take,List.length_eraseIdx_of_lt here]
  omega

/-- A job is never done before its period is over. -/
theorem Sound.period_over (sound : Sound job s) {index : Nat} (here : index < s.timer.queued.length) :
    s.last + job.period ≤ s.now := by
  rw [← sound.armed]
  apply sound.due
  intro empty
  simp [empty] at here

theorem step_sound (s : State σ) (a : Action α) (sound : Sound job s) : Sound job (step job s a) := by
  cases a with
  | pass amount =>
    exact { sound with
      due := fun queued => Int.le_trans (sound.due queued) (Int.le_add_of_nonneg_right (Int.natCast_nonneg _))
      past := Int.le_trans sound.past (Int.le_add_of_nonneg_right (Int.natCast_nonneg _)) }
  | expire =>
    simp only [step]
    split
    · rename_i reached
      refine { sound with one := ?_, expired := ?_, due := fun _ => reached }
      · have one := sound.one
        simp only [Timer.expire_waiting,Timer.expire_queued,List.length_nil,List.length_append,List.length_map]
        omega
      · intro entry member
        rcases List.mem_append.mp member with old | new
        · exact sound.expired entry old
        · obtain ⟨_,_,rfl⟩ := List.mem_map.mp new
          rfl
    · exact sound
  | handler index a =>
    simp only [step]
    split
    · rename_i runs
      obtain ⟨waiting,queued⟩ := sound.alone runs.2
      have armed : ((s.timer.take index).arm ()).queued = [] := by
        rw [Timer.arm_queued,Timer.take_waiting,waiting,queued]
        rfl
      refine ⟨?_,?_,?_,rfl,Int.le_refl _⟩
      · simp only [callLater,armed,Timer.arm_waiting,List.length_nil,List.length_singleton]
      · simp only [callLater,armed]
        simp
      · simp only [callLater,armed]
        simp
    · exact sound
  | call a =>
    simp only [step]
    split
    · exact ⟨sound.one,sound.expired,sound.due,sound.armed,sound.past⟩
    · exact sound

theorem run_sound (schedule : List (Action α)) (sound : Sound job s) :
    Sound job (execute (step job) s schedule) :=
  execute_invariant step_sound sound schedule

/-- No handler has been more than `delay` late so far. -/
def OnTime (job : Job σ α) (delay : Option Nat) (s : State σ) : Prop := ∀ d ∈ delay, s.now ≤ s.last + job.period + d

theorem initial_onTime (delay : Option Nat) (now : Int) (inner : σ) : OnTime job delay (initial job now inner) := by
  intro d _
  simp only [initial,callLater]
  omega

/-- The rule for what holds of a component whose job its timer repeats, given when the
job was last done: the calls of others keep it, time passing keeps it, and the job keeps
it, done no sooner than after a period and no later than `delay` after that. -/
theorem repeats (job : Job σ α) {s : State σ} {delay : Option Nat} {cond : σ → α → Prop} {I : Int → Int → σ → Prop}
    (called : ∀ (last now : Int) x a, job.isCall a = true → cond x a → last ≤ now → I last now x → I last now (job.step x a))
    (passed : ∀ (last now later : Int) x, now ≤ later → I last now x → I last later (execute job.step x (job.wait now later)))
    (done : ∀ (last now : Int) x a, job.isJob a = true → cond x a → last + job.period ≤ now →
      (∀ d ∈ delay, now ≤ last + job.period + d) → I last now x → I now now (job.step x a))
    (sound : Sound job s) (onTime : OnTime job delay s) (start : I s.last s.now s.inner)
    (schedule : List (Action α)) (along : Along (step job) (Meets delay cond) s schedule) :
    let t := execute (step job) s schedule
    Sound job t ∧ OnTime job delay t ∧ I t.last t.now t.inner := by
  refine along_invariant (I := fun s => Sound job s ∧ OnTime job delay s ∧ I s.last s.now s.inner) ?_
    ⟨sound,onTime,start⟩ schedule along
  rintro s a meets ⟨sound,onTime,holds⟩
  refine ⟨step_sound s a sound,?_⟩
  cases a with
  | pass amount =>
    refine ⟨?_,passed _ _ _ _ (Int.le_add_of_nonneg_right (Int.natCast_nonneg _)) holds⟩
    intro d within
    have := meets d within
    rw [sound.armed] at this
    exact this
  | expire =>
    simp only [step]
    split <;> exact ⟨onTime,holds⟩
  | handler index a =>
    simp only [step]
    split
    · rename_i runs
      refine ⟨?_,done s.last s.now s.inner a runs.1 meets (sound.period_over runs.2) onTime holds⟩
      intro d _
      simp only [callLater]
      omega
    · exact ⟨onTime,holds⟩
  | call a =>
    simp only [step]
    split
    · rename_i calls
      exact ⟨onTime,called s.last s.now s.inner a calls meets sound.past holds⟩
    · exact ⟨onTime,holds⟩

end Zerver.Periodic
