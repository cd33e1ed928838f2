import Zerver.TcpServer

/-! What a call of a process changes in the tree, in every run mode, and what the rest of the
tree can do to the root: nothing. The supervisor results are read off these moves. -/
namespace Zerver.TcpServer

open Zerver.Schedule

variable {cfg : Config} {s : State} {root p : Pid} {P : Process} {c : Call} {m : Move}

def phaseOf (p : Pid) (s : State) : Phase :=
  match s.procs p with
  | some P => P.phase
  | none => .dead

def Phase.beforeFork : Phase → Bool
  | .forking _ | .forkingThread => true
  | _ => false

def forkFails (s : State) (a : Action) : Bool :=
  a.call == .fork none && (phaseOf a.caller s).beforeFork

theorem phaseOf_eq (found : s.procs p = some P) : phaseOf p s = P.phase := by
  simp [phaseOf,found]

theorem Moved.beforeFork (moved : Moved cfg s p P c m) (outcome : Option Pid)
    (call : c = .fork outcome) : P.phase.beforeFork = true := by
  cases moved with
  | failed entry => rcases entry with ⟨left,phase⟩ | phase <;> simp [phase,Phase.beforeFork]
  | forks q left fresh other phase => simp [phase,Phase.beforeFork]
  | forksThread q fresh other phase => simp [phase,Phase.beforeFork]
  | started n c parent entry => rcases entry with ⟨rfl,_⟩ | ⟨rfl,_⟩ <;> contradiction
  | startedThread c mode entry => rcases entry with ⟨rfl,_⟩ | ⟨rfl,_⟩ <;> contradiction
  | declined c entry => rcases entry with ⟨rfl,_⟩ | ⟨rfl,_⟩ <;> contradiction
  | _ => contradiction

/-- The children of a process after its call are those it did not reap and the newborn. -/
theorem Moved.children (moved : Moved cfg s p P c m) (q : Pid) (child : q ∈ m.proc.children) :
    (q ∈ P.children ∧ m.reaped ≠ some q) ∨ ∃ Q, m.child = some (q,Q) := by
  cases moved with
  | forks other left fresh =>
    rcases Finset.mem_insert.mp child with rfl | old
    · exact .inr ⟨_,rfl⟩
    · exact .inl ⟨old,by simp [forked]⟩
  | forksThread other fresh =>
    rcases Finset.mem_insert.mp child with rfl | old
    · exact .inr ⟨_,rfl⟩
    · exact .inl ⟨old,by simp [forked]⟩
  | reaps other n =>
    obtain ⟨apart,old⟩ := Finset.mem_erase.mp child
    exact .inl ⟨old,by simpa using apart.symm⟩
  | _ => exact .inl ⟨child,by simp [Move.quiet]⟩

theorem Moved.newborn (moved : Moved cfg s p P c m) (q : Pid) (Q : Process)
    (child : m.child = some (q,Q)) :
    s.procs q = none ∧ c = .fork (some q) ∧ ∃ isChild, Q = newborn P isChild := by
  cases moved with
  | forks other left fresh =>
    cases child
    exact ⟨fresh,rfl,_,rfl⟩
  | forksThread other fresh =>
    cases child
    exact ⟨fresh,rfl,_,rfl⟩
  | _ => contradiction

theorem Moved.reaped (moved : Moved cfg s p P c m) (q : Pid) (gone : m.reaped = some q) :
    q ∈ P.children := by
  cases moved with
  | reaps other n phase child =>
    cases gone
    exact child
  | _ => contradiction

/-- The root is in the process table and no process's child. -/
structure Rooted (root : Pid) (s : State) : Prop where
  present : s.procs root ≠ none
  orphan : ∀ p P, s.procs p = some P → root ∉ P.children

theorem initial_rooted (root : Pid) : Rooted root (initial root) := by
  constructor
  · simp [initial]
  · intro p P found
    simp only [initial] at found
    split at found
    · cases found
      simp
    · contradiction

theorem perform_caller (s : State) (p : Pid) (m : Move) :
    (perform s p m).procs p = some m.proc := by
  simp [perform]

theorem perform_apart (s : State) (p q : Pid) (m : Move) (other : q ≠ p)
    (notBorn : ∀ Q, m.child ≠ some (q,Q)) (notReaped : m.reaped ≠ some q) :
    (perform s p m).procs q = s.procs q := by
  simp only [perform,Function.update_of_ne other]
  have kept : clear s.procs m.reaped q = s.procs q := by
    cases gone : m.reaped with
    | none => rfl
    | some r =>
      have apart : q ≠ r := fun same => notReaped (same ▸ gone)
      simp [clear,apart]
  cases child : m.child with
  | none => exact kept
  | some newborn =>
    obtain ⟨r,R⟩ := newborn
    have apart : q ≠ r := by
      rintro rfl
      exact notBorn R child
    simpa [born,apart] using kept

theorem perform_newborn (s : State) (p q : Pid) (m : Move) (Q : Process)
    (child : m.child = some (q,Q)) : (perform s p m).procs q ≠ none := by
  by_cases caller : q = p
  · simp [caller,perform_caller]
  · simp [perform,Function.update_of_ne caller,child,born]

/-- A process leaves the table only when it is reaped. -/
theorem perform_present (s : State) (p q : Pid) (m : Move) (there : s.procs q ≠ none)
    (notReaped : m.reaped ≠ some q) : (perform s p m).procs q ≠ none := by
  by_cases caller : q = p
  · simp [caller,perform_caller]
  · by_cases newborn : ∃ Q, m.child = some (q,Q)
    · obtain ⟨Q,child⟩ := newborn
      exact perform_newborn s p q m Q child
    · rwa [perform_apart s p q m caller (fun Q child => newborn ⟨Q,child⟩) notReaped]

theorem Rooted.apart (rooted : Rooted root s) (other : p ≠ root) (found : s.procs p = some P)
    (moved : Moved cfg s p P c m) : (perform s p m).procs root = s.procs root := by
  apply perform_apart s p root m other.symm
  · intro Q child
    exact rooted.present (moved.newborn root Q child).1
  · intro gone
    exact rooted.orphan p P found (moved.reaped root gone)

theorem step_rooted (s : State) (a : Action) (rooted : Rooted root s) :
    Rooted root (step cfg s a) := by
  rcases step_cases cfg s a with same | ⟨P,m,found,moved,stepped⟩
  · rwa [same]
  · have moved := transition_moved moved
    rw [stepped]
    constructor
    · by_cases caller : a.caller = root
      · simp [← caller,perform_caller]
      · rw [rooted.apart caller found moved]
        exact rooted.present
    · intro q Q foundQ member
      rcases perform_procs s a.caller q m Q foundQ with ⟨rfl,rfl⟩ | newborn | old
      · rcases moved.children root member with ⟨child,_⟩ | ⟨R,child⟩
        · exact rooted.orphan _ P found child
        · exact rooted.present (moved.newborn root R child).1
      · obtain ⟨_,_,_,rfl⟩ := moved.newborn q Q newborn
        simp [TcpServer.newborn] at member
      · exact rooted.orphan q Q old member

theorem Moved.killer (moved : Moved cfg s p P c m) (caller : Pid) (targets own : Finset Pid)
    (member : .killChilds caller targets own ∈ m.events) : caller = p := by
  cases moved with
  | terminated => simp_all
  | exited => simp_all
  | _ => simp [Move.quiet,forked] at member

end Zerver.TcpServer
