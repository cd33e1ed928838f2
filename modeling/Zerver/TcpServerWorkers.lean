import Zerver.TcpServerShutdown

/-! The number of workers in process mode. It is stored nowhere: a SIGCHLD forks as
many workers as it reaped, and the early return on a failing fork gives up the rest of
that loop for good. Unreaped workers, forks still to be made and forks given up add up
to `task_number_` in every state. -/
namespace Zerver.TcpServer

open Zerver.Schedule

variable {cfg : Config} {s : State} {root p : Pid} {P : Process} {c : Call} {m : Move}

/-- Workers the parent has still to start before it is back in its event loop. -/
def pending (taskNumber : Nat) : Phase → Nat
  | .booted => max taskNumber 1
  | .reaping taskNum => taskNum
  | .forking left => left
  | _ => 0

/-- The iterations of the fork loop that the early return of a failing fork skips. -/
def abandoned (taskNumber : Nat) (root : Pid) (s : State) (a : Action) : Nat :=
  if a.caller = root ∧ forkFails s a then pending taskNumber (phaseOf root s) else 0

def lost (taskNumber : Nat) (root : Pid) : State → List Action → Nat
  | _, [] => 0
  | s, a :: rest =>
    abandoned taskNumber root s a + lost taskNumber root (step ⟨.process,taskNumber⟩ s a) rest

def ParentForks (root : Pid) (s : State) (a : Action) : Prop :=
  ¬(a.caller = root ∧ forkFails s a)

instance ParentForks.decidable (root : Pid) (s : State) (a : Action) :
    Decidable (ParentForks root s a) :=
  inferInstanceAs (Decidable ¬(a.caller = root ∧ forkFails s a))

/-- The actions of all processes from a SIGCHLD of the parent to the handler's return:
at least one worker is reaped and every fork succeeds. -/
structure HandledSigchld (cfg : Config) (root : Pid) (s : State) (during : List Action) : Prop where
  delivered : phaseOf root s = .serving
  inside : Along (step cfg) (fun s _ => phaseOf root s ≠ .serving) (step cfg s ⟨root,.sigchld⟩) during
  returned : phaseOf root (execute (step cfg) (step cfg s ⟨root,.sigchld⟩) during) = .serving
  reaped : ∃ first q later P, during = first ++ ⟨root,.waitpid (some q)⟩ :: later ∧
    (execute (step cfg) (step cfg s ⟨root,.sigchld⟩) first).procs root = some P ∧
    (transition cfg (execute (step cfg) (step cfg s ⟨root,.sigchld⟩) first) root P
      (.waitpid (some q))).isSome
  forked : Along (step cfg) (ParentForks root) (step cfg s ⟨root,.sigchld⟩) during

@[simp] theorem pending_booted (n : Nat) : pending n .booted = max n 1 := rfl
@[simp] theorem pending_serving (n : Nat) : pending n .serving = 0 := rfl
@[simp] theorem pending_reaping (n k : Nat) : pending n (.reaping k) = k := rfl
@[simp] theorem pending_forking (n k : Nat) : pending n (.forking k) = k := rfl

@[simp] theorem pending_loop (taskNumber n : Nat) : pending taskNumber (loop n) = n := by
  unfold loop
  split
  · rename_i zero
    simp [zero]
  · rfl

/-- The balance of one call of the parent: a worker started is no longer to be started,
and a failing fork gives up what was. -/
theorem Moved.balance (taskNumber : Nat) (moved : Moved ⟨.process,taskNumber⟩ s root P c m)
    (parent : P.isChild = false) (single : P.phase ≠ .forkingThread)
    (looping : ∀ left, P.phase = .forking left → left ≠ 0) (exact : P.childPid = P.children)
    (present : ∀ q ∈ P.children, s.procs q ≠ none)
    (silent : kills root m.events = []) (alive : m.proc.phase ≠ .dead) :
    m.proc.childPid.card + pending taskNumber m.proc.phase +
      (if c = .fork none then pending taskNumber P.phase else 0) =
    P.childPid.card + pending taskNumber P.phase := by
  cases moved with
  | started n c parent entry =>
    rcases entry with ⟨rfl,booted,_,rfl⟩ | ⟨rfl,reaping,_⟩
    · simp [booted]
    · simp [reaping]
  | startedThread c mode entry => cases mode
  | declined c entry =>
    rcases entry with ⟨_,_,child⟩ | ⟨rfl,n,reaping,rfl | child | mode⟩
    · simp [parent] at child
    · simp [Move.quiet,reaping]
    · simp [parent] at child
    · cases mode
  | failed entry => simp [Move.quiet]
  | forks q left fresh other forking =>
    have newPid : q ∉ P.childPid := by
      intro member
      rw [exact] at member
      exact present q member fresh
    have more := looping left forking
    have insert := Finset.card_insert_of_notMem newPid
    simp [forked,forking,insert]
    omega
  | forksThread q fresh other forking => exact absurd forking single
  | signalled serving =>
    by_cases opened : P.acceptorOpen = true
    · simp [Move.quiet,serving,opened]
    · simp [Move.quiet,serving,opened]
  | reaps q n reaping child =>
    rw [← exact] at child
    have less := Finset.card_erase_add_one child
    simp only [reaping,pending_reaping,reduceCtorEq,↓reduceIte]
    omega
  | terminated serving => simp [kills,Event.kill] at silent
  | exited => exact absurd rfl alive
  | died => exact absurd rfl alive

theorem Moved.isChild (moved : Moved cfg s p P c m) : m.proc.isChild = P.isChild := by
  cases moved <;> rfl

theorem Moved.worker (moved : Moved cfg s p P c m) : m.proc.worker = P.worker := by
  cases moved <;> rfl

theorem loop_positive (n left : Nat) (forking : loop n = .forking left) : left ≠ 0 := by
  unfold loop at forking
  split at forking
  · contradiction
  · cases forking
    assumption

theorem Moved.looping (moved : Moved cfg s p P c m) (left : Nat)
    (forking : m.proc.phase = .forking left) (before : ∀ left, P.phase = .forking left → left ≠ 0) :
    left ≠ 0 := by
  cases moved with
  | started n => exact loop_positive n left forking
  | forks q more => exact loop_positive (more - 1) left forking
  | signalled => exact absurd forking (by simp only [Move.quiet]; split <;> simp)
  | terminated => exact before left forking
  | _ => contradiction

/-- The tree in process mode with `given` forks given up: only the root has children,
and its workers, those it will start and those given up are `task_number_`. -/
structure Staffed (taskNumber : Nat) (root : Pid) (given : Nat) (s : State) : Prop where
  parental : Parental root s
  valid : Invariant s
  workers : ∀ p P, s.procs p = some P → p ≠ root → P.worker = true
  parent : ∀ P, s.procs root = some P → P.isChild = false
  present : ∀ P, s.procs root = some P → ∀ q ∈ P.children, s.procs q ≠ none
  looping : ∀ P, s.procs root = some P → ∀ left, P.phase = .forking left → left ≠ 0
  balance : ∀ P, s.procs root = some P → kills root s.log = [] → P.phase ≠ .dead →
    P.childPid.card + pending taskNumber P.phase + given = max taskNumber 1

theorem initial_staffed (taskNumber : Nat) (root : Pid) :
    Staffed taskNumber root 0 (initial root) where
  parental := initial_parental root
  valid := initial_invariant root
  workers := by
    intro p P found other
    simp [initial,other] at found
  parent := by
    intro P found
    simp [initial] at found
    simp [← found]
  present := by
    intro P found
    simp [initial] at found
    simp [← found]
  looping := by
    intro P found
    simp [initial] at found
    simp [← found]
  balance := by
    intro P found
    simp [initial] at found
    simp [← found,pending]

theorem Staffed.called (staffed : Staffed taskNumber root given s) (found : s.procs root = some P)
    (moved : Moved ⟨.process,taskNumber⟩ s root P c m) :
    m.proc.isChild = false ∧
    (∀ q ∈ m.proc.children, (perform s root m).procs q ≠ none) ∧
    (∀ left, m.proc.phase = .forking left → left ≠ 0) ∧
    (kills root (s.log ++ m.events) = [] → m.proc.phase ≠ .dead →
      m.proc.childPid.card + pending taskNumber m.proc.phase +
        (given + if c = .fork none then pending taskNumber P.phase else 0) = max taskNumber 1) := by
  refine ⟨moved.isChild.trans (staffed.parent P found),?_,?_,?_⟩
  · intro q child
    rcases moved.children q child with ⟨old,kept⟩ | ⟨Q,newborn⟩
    · exact perform_present s root q m (staffed.present P found q old) kept
    · exact perform_newborn s root q m Q newborn
  · intro left forking
    exact moved.looping left forking (staffed.looping P found)
  · intro silent alive
    rw [kills_append,List.append_eq_nil_iff] at silent
    obtain ⟨_,R,foundR,supervising⟩ := staffed.parental
    obtain rfl : R = P := Option.some.inj (foundR.symm.trans found)
    have balance := staffed.balance R found silent.1 moved.alive
    have step := moved.balance taskNumber (staffed.parent R found) (staffed.valid root R found).single
      (staffed.looping R found) (supervising.exact silent.1) (staffed.present R found) silent.2 alive
    omega

theorem Moved.abandoned (taskNumber : Nat) (found : s.procs root = some P)
    (moved : Moved cfg s root P c m) :
    abandoned taskNumber root s ⟨root,c⟩ =
      if c = .fork none then pending taskNumber P.phase else 0 := by
  unfold TcpServer.abandoned
  by_cases call : c = .fork none
  · simp [call,forkFails,phaseOf_eq found,moved.beforeFork none call]
  · simp [call,forkFails]

/-- A failing fork brings its caller back to the event loop. -/
theorem forkFails_serving (cfg : Config) (s : State) (a : Action) (fails : forkFails s a = true) :
    phaseOf a.caller (step cfg s a) = .serving := by
  simp only [forkFails,Bool.and_eq_true,beq_iff_eq] at fails
  obtain ⟨call,forking⟩ := fails
  cases found : s.procs a.caller with
  | none => simp [phaseOf,found,Phase.beforeFork] at forking
  | some P =>
    rw [phaseOf_eq found] at forking
    have moved : transition cfg s a.caller P a.call = some (.quiet { P with phase := .serving }) := by
      rw [call]
      cases phase : P.phase with
      | forking left => simp [transition,phase]
      | forkingThread => simp [transition,phase]
      | _ => simp [phase,Phase.beforeFork] at forking
    simp [step,found,moved,phaseOf,perform_caller,Move.quiet]

theorem abandoned_idle (taskNumber : Nat) (cfg : Config) (s : State) (a : Action)
    (same : step cfg s a = s) : abandoned taskNumber root s a = 0 := by
  apply if_neg
  rintro ⟨_,fails⟩
  have serving := forkFails_serving cfg s a fails
  rw [same] at serving
  simp [forkFails,serving,Phase.beforeFork] at fails

theorem Staffed.apart (staffed : Staffed taskNumber root given s) (other : p ≠ root)
    (found : s.procs p = some P) (moved : Moved ⟨.process,taskNumber⟩ s p P c m) (q : Pid)
    (there : s.procs q ≠ none) : (perform s p m).procs q ≠ none := by
  apply perform_present s p q m there
  intro gone
  have childless := (staffed.valid p P found).childless (staffed.workers p P found other)
  have child := moved.reaped q gone
  simp [childless] at child

theorem Staffed.step_workers (staffed : Staffed taskNumber root given s) (found : s.procs p = some P)
    (moved : Moved ⟨.process,taskNumber⟩ s p P c m) (q : Pid) (Q : Process)
    (foundQ : (perform s p m).procs q = some Q) (other : q ≠ root) : Q.worker = true := by
  rcases perform_procs s p q m Q foundQ with ⟨rfl,rfl⟩ | newborn | old
  · exact moved.worker.trans (staffed.workers q P found other)
  · obtain ⟨_,_,_,rfl⟩ := moved.newborn q Q newborn
    rfl
  · exact staffed.workers q Q old other

theorem step_staffed (taskNumber : Nat) (s : State) (a : Action)
    (staffed : Staffed taskNumber root given s) :
    Staffed taskNumber root (given + abandoned taskNumber root s a)
      (step ⟨.process,taskNumber⟩ s a) := by
  have parental := step_parental ⟨.process,taskNumber⟩ s a staffed.parental
  have valid := step_invariant ⟨.process,taskNumber⟩ rfl s a staffed.valid
  rcases step_cases ⟨.process,taskNumber⟩ s a with same | ⟨P,m,found,moved,stepped⟩
  · rw [abandoned_idle taskNumber _ s a same,same]
    exact staffed
  · have moved := transition_moved moved
    rw [stepped] at parental valid ⊢
    have workers := staffed.step_workers found moved
    by_cases caller : a.caller = root
    · obtain ⟨parent,present,looping,balance⟩ := staffed.called (caller ▸ found) (caller ▸ moved)
      have given := moved.abandoned taskNumber found
      obtain ⟨r,c⟩ := a
      subst caller
      have self (R : Process) (foundR : (perform s r m).procs r = some R) : R = m.proc := by
        rw [perform_caller] at foundR
        exact (Option.some.inj foundR).symm
      refine ⟨parental,valid,workers,?_,?_,?_,?_⟩
      · intro R foundR
        rwa [self R foundR]
      · intro R foundR
        rwa [self R foundR]
      · intro R foundR
        rwa [self R foundR]
      · intro R foundR
        rw [self R foundR,given]
        exact balance
    · have kept := staffed.parental.1.apart caller found moved
      have none : abandoned taskNumber root s a = 0 := by simp [abandoned,caller]
      rw [none]
      refine ⟨parental,valid,workers,?_,?_,?_,?_⟩
      · rw [kept]
        exact staffed.parent
      · rw [kept]
        intro R foundR q child
        exact staffed.apart caller found moved q (staffed.present R foundR q child)
      · rw [kept]
        exact staffed.looping
      · rw [kept]
        intro R foundR silent
        simp only [perform,kills_append,List.append_eq_nil_iff] at silent
        exact staffed.balance R foundR silent.1

theorem run_staffed (taskNumber : Nat) (schedule : List Action)
    (staffed : Staffed taskNumber root given s) :
    Staffed taskNumber root (given + lost taskNumber root s schedule)
      (execute (step ⟨.process,taskNumber⟩) s schedule) := by
  induction schedule generalizing s given with
  | nil => exact staffed
  | cons a rest ih =>
    have later := ih (step_staffed taskNumber s a staffed)
    rwa [Nat.add_assoc] at later

/-- A failing fork gives up at least the worker it was to start. -/
theorem abandoned_eq_zero (staffed : Staffed taskNumber root given s) (a : Action) :
    abandoned taskNumber root s a = 0 ↔ ParentForks root s a := by
  unfold abandoned ParentForks
  by_cases fails : a.caller = root ∧ forkFails s a
  · rw [if_pos fails]
    obtain ⟨rooted,P,found,_⟩ := staffed.parental
    have forking := fails.2
    rw [forkFails,fails.1,phaseOf_eq found,Bool.and_eq_true] at forking
    rw [phaseOf_eq found]
    have single := (staffed.valid root P found).single
    cases phase : P.phase with
    | forking left => simpa [fails] using staffed.looping P found left phase
    | forkingThread => exact absurd phase single
    | _ => simp [phase,Phase.beforeFork] at forking
  · simp [fails]

theorem lost_eq_zero (taskNumber : Nat) (schedule : List Action)
    (staffed : Staffed taskNumber root given s) :
    lost taskNumber root s schedule = 0 ↔
      Along (step ⟨.process,taskNumber⟩) (ParentForks root) s schedule := by
  induction schedule generalizing s given with
  | nil => simp [lost,Along]
  | cons a rest ih =>
    rw [lost,Nat.add_eq_zero_iff,abandoned_eq_zero staffed,ih (step_staffed taskNumber s a staffed)]
    rfl

theorem lost_append (taskNumber : Nat) (first later : List Action) :
    lost taskNumber root s (first ++ later) = lost taskNumber root s first +
      lost taskNumber root (execute (step ⟨.process,taskNumber⟩) s first) later := by
  induction first generalizing s with
  | nil => simp [lost]
  | cons a rest ih => simp [lost,ih,Nat.add_assoc]

/-- Back in its event loop before any termination, the parent lacks exactly the workers
given up. -/
theorem Staffed.serving (staffed : Staffed taskNumber root given s)
    (serving : phaseOf root s = .serving) (silent : kills root s.log = []) :
    ∃ P, s.procs root = some P ∧ P.childPid.card + given = max taskNumber 1 ∧
      P.childPid = P.children := by
  obtain ⟨_,P,found,supervising⟩ := staffed.parental
  rw [phaseOf_eq found] at serving
  have balance := staffed.balance P found silent (by simp [serving])
  rw [serving,pending_serving,Nat.add_zero] at balance
  exact ⟨P,found,balance,supervising.exact silent⟩

/-- In process mode, after every SIGCHLD handled before any termination that reaped a
worker and in which no fork failed: the parent has all its workers exactly when no fork
of it had failed before. -/
theorem workers_restored_iff (taskNumber : Nat) (root : Pid) (before during : List Action)
    (handled : HandledSigchld ⟨.process,taskNumber⟩ root
      (execute (step ⟨.process,taskNumber⟩) (initial root) before) during)
    (running : kills root (execute (step ⟨.process,taskNumber⟩) (initial root)
      (before ++ ⟨root,.sigchld⟩ :: during)).log = []) :
    ∃ P, (execute (step ⟨.process,taskNumber⟩) (initial root)
        (before ++ ⟨root,.sigchld⟩ :: during)).procs root = some P ∧
      ((P.childPid.card = max taskNumber 1 ∧ P.childPid = P.children) ↔
        Along (step ⟨.process,taskNumber⟩) (ParentForks root) (initial root) before) := by
  have start := initial_staffed taskNumber root
  have middle := run_staffed taskNumber before start
  have signalled := step_staffed taskNumber _ ⟨root,.sigchld⟩ middle
  have final := run_staffed taskNumber (before ++ ⟨root,.sigchld⟩ :: during) start
  have returned := handled.returned
  rw [← execute_cons,← execute_append] at returned
  obtain ⟨P,found,count,exact⟩ := final.serving returned running
  refine ⟨P,found,?_⟩
  rw [← lost_eq_zero taskNumber before start]
  -- The handler itself gives up nothing, so what is missing was given up before it.
  have none : lost taskNumber root (execute (step ⟨.process,taskNumber⟩) (initial root) before)
      (⟨root,.sigchld⟩ :: during) = 0 := by
    rw [lost,(lost_eq_zero taskNumber during signalled).mpr handled.forked]
    simp [abandoned,forkFails]
  rw [lost_append,none,Nat.add_zero] at count
  constructor
  · rintro ⟨full,_⟩
    omega
  · intro zero
    exact ⟨by omega,exact⟩

theorem restored_pair :
    let before : List Action := [⟨1,.run⟩,⟨1,.fork (some 2)⟩,⟨1,.fork (some 3)⟩,⟨2,.die⟩]
    let during : List Action := [⟨1,.waitpid (some 2)⟩,⟨1,.waitpid none⟩,⟨1,.fork (some 4)⟩]
    ∃ P, (execute (step ⟨.process,2⟩) (initial 1) (before ++ ⟨1,.sigchld⟩ :: during)).procs 1 = some P ∧
      P.childPid.card = 2 := by
  have handled : HandledSigchld ⟨.process,2⟩ 1 (execute (step ⟨.process,2⟩) (initial 1)
      [⟨1,.run⟩,⟨1,.fork (some 2)⟩,⟨1,.fork (some 3)⟩,⟨2,.die⟩])
      [⟨1,.waitpid (some 2)⟩,⟨1,.waitpid none⟩,⟨1,.fork (some 4)⟩] :=
    ⟨by decide,by decide,by decide,⟨[],2,_,_,rfl,rfl,by decide⟩,by decide⟩
  obtain ⟨P,found,iff⟩ := workers_restored_iff 2 1 _ _ handled (by decide)
  exact ⟨P,found,(iff.mpr (by decide)).1⟩

/-- The second initial fork fails: the SIGCHLD of the only worker restores that one and
not the missing one. -/
theorem shortStaffed_not_restored :
    let before : List Action := [⟨1,.run⟩,⟨1,.fork (some 2)⟩,⟨1,.fork none⟩,⟨2,.die⟩]
    let during : List Action := [⟨1,.waitpid (some 2)⟩,⟨1,.waitpid none⟩,⟨1,.fork (some 3)⟩]
    let s := execute (step ⟨.process,2⟩) (initial 1) (before ++ ⟨1,.sigchld⟩ :: during)
    HandledSigchld ⟨.process,2⟩ 1 (execute (step ⟨.process,2⟩) (initial 1) before) during ∧
      kills 1 s.log = [] ∧ (s.procs 1).map (fun P => P.childPid.card) = some 1 := by
  refine ⟨⟨?_,?_,?_,?_,?_⟩,?_,?_⟩
  · decide
  · decide
  · decide
  · exact ⟨[],2,_,_,rfl,rfl,by decide⟩
  · decide
  · decide
  · decide

end Zerver.TcpServer
