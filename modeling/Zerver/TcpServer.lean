import Mathlib.Data.Finset.Card
import Mathlib.Logic.Function.Basic
import Zerver.Schedule

/-! The process tree of `framework/tcp_server.cc`. A process is advanced one system
call at a time: the fork loop of `run_multi_process` and the waitpid loop of
`handle_signal` can be interleaved with steps of every other process. Signals are
handled only between handlers, as asio's signal_set delivers them. -/
namespace Zerver.TcpServer

open Zerver.Schedule

abbrev Pid := Nat

inductive RunMode where
  | null
  | thread
  | process
  deriving DecidableEq, Repr

/-- Where a process stands in the code of `TcpServer`. -/
inductive Phase where
  | booted
  | serving
  | reaping (taskNum : Nat)
  | forking (left : Nat)
  | forkingThread
  | dead
  deriving DecidableEq, Repr

/-- `childPid` is the static `child_pid_` and `isChild` the static `is_child`. The
last three fields are the kernel's view: the children forked and not yet reaped,
whether the process is a forked worker, and its parent's children at its birth. -/
structure Process where
  isChild : Bool
  childPid : Finset Pid
  acceptorOpen : Bool
  phase : Phase
  children : Finset Pid
  worker : Bool
  siblings : Finset Pid
  deriving DecidableEq

inductive ForkEvent where
  | prepare
  | parent
  | child
  deriving DecidableEq, Repr

/-- A `kill_childs` is recorded with the caller's unreaped children at that moment. -/
inductive Event where
  | notifyFork (caller : Pid) (event : ForkEvent)
  | killChilds (caller : Pid) (targets own : Finset Pid)
  deriving DecidableEq

structure Config where
  mode : RunMode
  taskNumber : Nat

structure State where
  procs : Pid → Option Process
  log : List Event

/-- One system call or one delivered signal of a process. -/
inductive Call where
  | run
  | fork (child : Option Pid)
  | sigchld
  | waitpid (reaped : Option Pid)
  | terminate
  | exit
  | die
  deriving DecidableEq, Repr

structure Action where
  caller : Pid
  call : Call
  deriving DecidableEq, Repr

/-- What one call changes: the caller, the log, a newborn and a reaped process. -/
structure Move where
  proc : Process
  events : List Event
  child : Option (Pid × Process)
  reaped : Option Pid

def Move.quiet (P : Process) : Move := ⟨P,[],none,none⟩

def killChilds (p : Pid) (P : Process) : Process × List Event :=
  ({ P with childPid := ∅ },[.killChilds p P.childPid P.children])

/-- The head of the fork loop: it is left when `i` reaches `process_num`. -/
def loop (left : Nat) : Phase := if left = 0 then .serving else .forking left

def runMultiProcess (p : Pid) (processNum : Nat) (P : Process) : Move :=
  if P.isChild then .quiet { P with phase := .serving }
  else ⟨{ P with phase := loop processNum },[.notifyFork p .prepare],none,none⟩

def runMultiThread (p : Pid) (P : Process) : Move :=
  ⟨{ P with phase := .forkingThread },[.notifyFork p .prepare],none,none⟩

def run (cfg : Config) (p : Pid) (P : Process) : Move :=
  if cfg.mode = .thread then runMultiThread p P
  else runMultiProcess p (max cfg.taskNumber 1) P

/-- The image of the parent that the child starts from; only the process loop sets
`is_child`, and neither loop clears the copied `child_pid_`. -/
def newborn (P : Process) (isChild : Bool) : Process :=
  ⟨isChild,P.childPid,P.acceptorOpen,.serving,∅,true,P.children⟩

def forked (p q : Pid) (P : Process) (phase : Phase) (isChild : Bool) : Move :=
  ⟨{ P with phase := phase, childPid := insert q P.childPid, children := insert q P.children },
    [.notifyFork p .parent,.notifyFork q .child],some (q,newborn P isChild),none⟩

/-- End of the waitpid loop: as many workers are started as were reaped. -/
def reaped (cfg : Config) (p : Pid) (taskNum : Nat) (P : Process) : Move :=
  if taskNum = 0 then .quiet { P with phase := .serving }
  else match cfg.mode with
    | .thread => runMultiThread p P
    | .process => runMultiProcess p taskNum P
    | .null => .quiet { P with phase := .serving }

def isDead (s : State) (q : Pid) : Bool :=
  match s.procs q with
  | some Q => Q.phase == .dead
  | none => true

/-- A call that the caller's phase or the kernel does not allow yields `none`. A
new pid is one that no live or unreaped process has. -/
def transition (cfg : Config) (s : State) (p : Pid) (P : Process) : Call → Option Move
  | .run => if P.phase = .booted then some (run cfg p P) else none
  | .fork (some q) =>
    if s.procs q = none ∧ q ≠ p then
      match P.phase with
      | .forking left => some (forked p q P (loop (left - 1)) true)
      | .forkingThread => some (forked p q P .serving P.isChild)
      | _ => none
    else none
  | .fork none =>
    match P.phase with
    | .forking _ | .forkingThread => some (.quiet { P with phase := .serving })
    | _ => none
  | .sigchld =>
    if P.phase = .serving then
      some (.quiet { P with phase := if P.acceptorOpen then .reaping 0 else .serving })
    else none
  | .waitpid (some q) =>
    match P.phase with
    | .reaping taskNum =>
      if q ∈ P.children ∧ isDead s q then
        some ⟨{ P with
          phase := .reaping (taskNum + 1)
          childPid := P.childPid.erase q
          children := P.children.erase q },[],none,some q⟩
      else none
    | _ => none
  | .waitpid none =>
    match P.phase with
    | .reaping taskNum => if ∃ q ∈ P.children, isDead s q then none else some (reaped cfg p taskNum P)
    | _ => none
  | .terminate =>
    if P.phase = .serving then
      let killed := killChilds p { P with acceptorOpen := false }
      some ⟨killed.1,killed.2,none,none⟩
    else none
  | .exit =>
    if P.phase = .dead then none
    else
      let killed := killChilds p P
      some ⟨{ killed.1 with phase := .dead },killed.2,none,none⟩
  | .die => if P.phase = .dead then none else some (.quiet { P with phase := .dead })

def clear (procs : Pid → Option Process) : Option Pid → Pid → Option Process
  | none => procs
  | some q => Function.update procs q none

def born (procs : Pid → Option Process) : Option (Pid × Process) → Pid → Option Process
  | none => procs
  | some (q,Q) => Function.update procs q (some Q)

def perform (s : State) (p : Pid) (m : Move) : State :=
  ⟨Function.update (born (clear s.procs m.reaped) m.child) p (some m.proc),s.log ++ m.events⟩

def step (cfg : Config) (s : State) (a : Action) : State :=
  match s.procs a.caller with
  | none => s
  | some P =>
    match transition cfg s a.caller P a.call with
    | none => s
    | some m => perform s a.caller m

variable {cfg : Config} {s : State} {p : Pid} {P : Process} {c : Call} {m : Move}

/-- The branches of `transition`, each with its guard and its effect. -/
inductive Moved (cfg : Config) (s : State) (p : Pid) (P : Process) : Call → Move → Prop
  | started (n : Nat) (c : Call) (parent : P.isChild = false)
      (entry : (c = .run ∧ P.phase = .booted ∧ cfg.mode ≠ .thread ∧ n = max cfg.taskNumber 1) ∨
        (c = .waitpid none ∧ P.phase = .reaping n ∧ n ≠ 0 ∧ cfg.mode = .process)) :
      Moved cfg s p P c ⟨{ P with phase := loop n },[.notifyFork p .prepare],none,none⟩
  | startedThread (c : Call) (mode : cfg.mode = .thread)
      (entry : (c = .run ∧ P.phase = .booted) ∨ (c = .waitpid none ∧ ∃ n, P.phase = .reaping n ∧ n ≠ 0)) :
      Moved cfg s p P c ⟨{ P with phase := .forkingThread },[.notifyFork p .prepare],none,none⟩
  | declined (c : Call)
      (entry : (c = .run ∧ P.phase = .booted ∧ P.isChild = true) ∨ (c = .waitpid none ∧ ∃ n,
        P.phase = .reaping n ∧ (n = 0 ∨ P.isChild = true ∨ cfg.mode = .null))) :
      Moved cfg s p P c (.quiet { P with phase := .serving })
  | failed (entry : (∃ left, P.phase = .forking left) ∨ P.phase = .forkingThread) :
      Moved cfg s p P (.fork none) (.quiet { P with phase := .serving })
  | forks (q : Pid) (left : Nat) (fresh : s.procs q = none) (other : q ≠ p)
      (phase : P.phase = .forking left) :
      Moved cfg s p P (.fork (some q)) (forked p q P (loop (left - 1)) true)
  | forksThread (q : Pid) (fresh : s.procs q = none) (other : q ≠ p) (phase : P.phase = .forkingThread) :
      Moved cfg s p P (.fork (some q)) (forked p q P .serving P.isChild)
  | signalled (phase : P.phase = .serving) :
      Moved cfg s p P .sigchld (.quiet { P with phase := if P.acceptorOpen then .reaping 0 else .serving })
  | reaps (q : Pid) (n : Nat) (phase : P.phase = .reaping n) (child : q ∈ P.children) :
      Moved cfg s p P (.waitpid (some q)) ⟨{ P with
        phase := .reaping (n + 1)
        childPid := P.childPid.erase q
        children := P.children.erase q },[],none,some q⟩
  | terminated (phase : P.phase = .serving) :
      Moved cfg s p P .terminate ⟨{ P with acceptorOpen := false, childPid := ∅ },
        [.killChilds p P.childPid P.children],none,none⟩
  | exited (alive : P.phase ≠ .dead) :
      Moved cfg s p P .exit ⟨{ P with childPid := ∅, phase := .dead },
        [.killChilds p P.childPid P.children],none,none⟩
  | died (alive : P.phase ≠ .dead) : Moved cfg s p P .die (.quiet { P with phase := .dead })

theorem runMultiProcess_moved (n : Nat)
    (entry : (c = .run ∧ P.phase = .booted ∧ cfg.mode ≠ .thread ∧ n = max cfg.taskNumber 1) ∨
      (c = .waitpid none ∧ P.phase = .reaping n ∧ n ≠ 0 ∧ cfg.mode = .process)) :
    Moved cfg s p P c (runMultiProcess p n P) := by
  unfold runMultiProcess
  split
  · rename_i child
    apply Moved.declined
    rcases entry with ⟨run,booted,_⟩ | ⟨wait,reaping,_⟩
    · exact .inl ⟨run,booted,child⟩
    · exact .inr ⟨wait,n,reaping,.inr (.inl child)⟩
  · rename_i parent
    exact .started n c (by simpa using parent) entry

theorem reaped_moved (n : Nat) (reaping : P.phase = .reaping n) :
    Moved cfg s p P (.waitpid none) (reaped cfg p n P) := by
  unfold reaped
  split
  · rename_i zero
    exact .declined _ (.inr ⟨rfl,n,reaping,.inl zero⟩)
  · rename_i some
    split
    · rename_i mode
      exact .startedThread _ mode (.inr ⟨rfl,n,reaping,some⟩)
    · rename_i mode
      exact runMultiProcess_moved n (.inr ⟨rfl,reaping,some,mode⟩)
    · rename_i mode
      exact .declined _ (.inr ⟨rfl,n,reaping,.inr (.inr mode)⟩)

theorem transition_moved (moved : transition cfg s p P c = some m) : Moved cfg s p P c m := by
  cases c with
  | run =>
    simp only [transition,Option.ite_none_right_eq_some,Option.some.injEq] at moved
    obtain ⟨booted,rfl⟩ := moved
    unfold run
    split
    · rename_i mode
      exact .startedThread _ mode (.inl ⟨rfl,booted⟩)
    · rename_i mode
      exact runMultiProcess_moved _ (.inl ⟨rfl,booted,mode,rfl⟩)
  | fork outcome =>
    cases outcome with
    | none =>
      simp only [transition] at moved
      split at moved
      · rename_i left forking
        cases moved
        exact .failed (.inl ⟨left,forking⟩)
      · rename_i forking
        cases moved
        exact .failed (.inr forking)
      · contradiction
    | some q =>
      simp only [transition,Option.ite_none_right_eq_some] at moved
      obtain ⟨⟨fresh,other⟩,moved⟩ := moved
      split at moved
      · rename_i left forking
        cases moved
        exact .forks q left fresh other forking
      · rename_i forking
        cases moved
        exact .forksThread q fresh other forking
      · contradiction
  | sigchld =>
    simp only [transition,Option.ite_none_right_eq_some,Option.some.injEq] at moved
    obtain ⟨serving,rfl⟩ := moved
    exact .signalled serving
  | waitpid outcome =>
    cases outcome with
    | none =>
      simp only [transition] at moved
      split at moved
      · rename_i n reaping
        split at moved
        · contradiction
        · cases moved
          exact reaped_moved n reaping
      · contradiction
    | some q =>
      simp only [transition] at moved
      split at moved
      · rename_i n reaping
        split at moved
        · rename_i dead
          cases moved
          exact .reaps q n reaping dead.1
        · contradiction
      · contradiction
  | terminate =>
    simp only [transition,Option.ite_none_right_eq_some,Option.some.injEq] at moved
    obtain ⟨serving,rfl⟩ := moved
    exact .terminated serving
  | exit =>
    simp only [transition,Option.ite_none_left_eq_some,Option.some.injEq] at moved
    obtain ⟨alive,rfl⟩ := moved
    exact .exited alive
  | die =>
    simp only [transition,Option.ite_none_left_eq_some,Option.some.injEq] at moved
    obtain ⟨alive,rfl⟩ := moved
    exact .died alive

theorem Moved.alive (moved : Moved cfg s p P c m) : P.phase ≠ .dead := by
  cases moved with
  | started n c parent entry => rcases entry with ⟨_,phase,_⟩ | ⟨_,phase,_⟩ <;> simp [phase]
  | startedThread c mode entry => rcases entry with ⟨_,phase⟩ | ⟨_,n,phase,_⟩ <;> simp [phase]
  | declined c entry => rcases entry with ⟨_,phase,_⟩ | ⟨_,n,phase,_⟩ <;> simp [phase]
  | failed entry => rcases entry with ⟨left,phase⟩ | phase <;> simp [phase]
  | exited alive => exact alive
  | died alive => exact alive
  | _ => simp_all

/-- The constructed server before `run`, under any pid. -/
def initial (root : Pid) : State :=
  ⟨fun p => if p = root then some ⟨false,∅,true,.booted,∅,false,∅⟩ else none,[]⟩

/-- A `kill_childs` that reached a process the caller has not forked, or has reaped. -/
def Stray : Event → Prop
  | .killChilds _ targets own => ¬targets ⊆ own
  | .notifyFork _ _ => False

/-- Every SIGQUIT sent so far went to an unreaped child of its sender. -/
def OwnChildren (s : State) : Prop := ∀ event ∈ s.log, ¬Stray event

def runsKillChilds (P : Process) : Call → Bool
  | .terminate => P.phase == .serving
  | .exit => P.phase != .dead
  | _ => false

/-- A worker that was forked while its parent had other unreaped workers neither
handles a termination signal nor exits. -/
def BornAlone (s : State) (a : Action) : Prop :=
  ∀ P, s.procs a.caller = some P → runsKillChilds P a.call = true → P.worker = true →
    P.siblings = ∅

/-- In process mode only the root forks, and its `child_pid_` is exact until its
first termination signal; a worker keeps the copy it was born with. -/
structure Valid (log : List Event) (P : Process) : Prop where
  own : P.worker = false → P.childPid ⊆ P.children
  exact : P.worker = false → P.phase ≠ .dead →
    P.childPid = P.children ∨ (P.acceptorOpen = false ∧ P.phase = .serving)
  child : P.worker = true → P.isChild = true
  childless : P.worker = true → P.children = ∅
  inherited : P.worker = true → P.childPid ⊆ P.siblings
  copied : P.worker = true → P.childPid = P.siblings ∨ ∃ event ∈ log, Stray event
  idle : P.worker = true → P.phase ≠ .booted ∧ ∀ left, P.phase ≠ .forking left
  single : P.phase ≠ .forkingThread

def Invariant (s : State) : Prop := ∀ p P, s.procs p = some P → Valid s.log P

theorem initial_invariant (root : Pid) : Invariant (initial root) := by
  intro p P found
  simp only [initial] at found
  split at found
  · cases found
    constructor <;> simp
  · contradiction

theorem Valid.extend (valid : Valid log P) (events : List Event) : Valid (log ++ events) P where
  own := valid.own
  exact := valid.exact
  child := valid.child
  childless := valid.childless
  inherited := valid.inherited
  copied := by
    intro worker
    rcases valid.copied worker with same | ⟨event,member,stray⟩
    · exact .inl same
    · exact .inr ⟨event,List.mem_append_left _ member,stray⟩
  idle := valid.idle
  single := valid.single

theorem Valid.rephase (valid : Valid log P) (phase : Phase) (alive : P.phase ≠ .dead)
    (single : phase ≠ .forkingThread)
    (root : P.worker = false → phase = .serving ∨ P.childPid = P.children)
    (worker : P.worker = true → phase ≠ .booted ∧ ∀ left, phase ≠ .forking left) :
    Valid log { P with phase := phase } where
  own := valid.own
  exact := by
    intro notWorker _
    rcases valid.exact notWorker alive with same | ⟨closed,_⟩
    · exact .inl same
    · rcases root notWorker with serving | same
      · exact .inr ⟨closed,serving⟩
      · exact .inl same
  child := valid.child
  childless := valid.childless
  inherited := valid.inherited
  copied := valid.copied
  idle := worker
  single := single

theorem Valid.serving (valid : Valid log P) (alive : P.phase ≠ .dead) :
    Valid log { P with phase := .serving } :=
  valid.rephase .serving alive (by simp) (fun _ => .inl rfl) (by simp)

theorem Valid.busy (valid : Valid log P) (alive : P.phase ≠ .dead) (busy : P.phase ≠ .serving)
    (root : P.worker = false) : P.childPid = P.children :=
  (valid.exact root alive).resolve_right fun closed => busy closed.2

theorem loop_cases (left : Nat) : loop left = .serving ∨ ∃ more, loop left = .forking more := by
  unfold loop
  split
  · exact .inl rfl
  · exact .inr ⟨left,rfl⟩

theorem loop_ne_forkingThread (left : Nat) : loop left ≠ .forkingThread := by
  rcases loop_cases left with eq | ⟨more,eq⟩ <;> simp [eq]

/-- `kill_childs` empties the set; a worker with siblings has then sent a stray signal. -/
theorem killChilds_valid (p : Pid) (valid : Valid log P) (acceptorOpen : Bool) (phase : Phase)
    (root : phase = .dead ∨ (acceptorOpen = false ∧ phase = .serving)) :
    Valid (log ++ [.killChilds p P.childPid P.children])
      { P with childPid := ∅, acceptorOpen := acceptorOpen, phase := phase } where
  own := fun _ => Finset.empty_subset _
  exact := by
    intro _ alive
    exact .inr (root.resolve_left alive)
  child := valid.child
  childless := valid.childless
  inherited := fun _ => Finset.empty_subset _
  copied := by
    intro worker
    rcases valid.copied worker with same | ⟨event,member,stray⟩
    · by_cases alone : P.siblings = ∅
      · exact .inl alone.symm
      · refine .inr ⟨_,List.mem_append_right _ (List.mem_singleton_self _),?_⟩
        simpa [Stray,valid.childless worker,same] using alone
    · exact .inr ⟨event,List.mem_append_left _ member,stray⟩
  idle := by
    intro worker
    rcases root with rfl | ⟨_,rfl⟩ <;> simp
  single := by rcases root with rfl | ⟨_,rfl⟩ <;> simp

theorem forked_valid (p q : Pid) (left : Nat) (valid : Valid log P) (root : P.worker = false)
    (alive : P.phase ≠ .dead) (busy : P.phase ≠ .serving) :
    Valid log (forked p q P (loop left) true).proc ∧ Valid log (newborn P true) := by
  have same := valid.busy alive busy root
  constructor
  · constructor <;> simp [forked,root,same,loop_ne_forkingThread]
  · constructor <;> simp [newborn,same]

theorem Valid.forking (valid : Valid log P) (left : Nat) (parent : P.isChild = false)
    (alive : P.phase ≠ .dead) (busy : P.phase ≠ .serving) :
    Valid log { P with phase := loop left } := by
  refine valid.rephase _ alive (loop_ne_forkingThread _) (fun root => .inr (valid.busy alive busy root)) ?_
  intro worker
  simp [valid.child worker] at parent

theorem Valid.signalled (valid : Valid log P) (serving : P.phase = .serving) :
    Valid log { P with phase := if P.acceptorOpen then .reaping 0 else .serving } := by
  refine valid.rephase _ (by simp [serving]) ?_ ?_ ?_
  · split <;> simp
  · intro root
    split
    · rename_i opened
      exact .inr ((valid.exact root (by simp [serving])).resolve_right (by simp [opened]))
    · exact .inl rfl
  · intro _
    split <;> simp

theorem Valid.reaps (valid : Valid log P) (q : Pid) (n : Nat) (phase : P.phase = .reaping n)
    (child : q ∈ P.children) :
    Valid log { P with
      phase := .reaping (n + 1)
      childPid := P.childPid.erase q
      children := P.children.erase q } := by
  have root : P.worker = false := by
    by_contra worker
    simp [valid.childless (by simpa using worker)] at child
  have same := valid.busy (by simp [phase]) (by simp [phase]) root
  constructor <;> simp [root,same]

theorem Moved.valid (moved : Moved cfg s p P c m) (mode : cfg.mode = .process)
    (valid : Valid s.log P) :
    Valid (s.log ++ m.events) m.proc ∧
      ∀ q Q, m.child = some (q,Q) → Valid (s.log ++ m.events) Q := by
  have alive := moved.alive
  cases moved with
  | started n c parent entry =>
    have busy : P.phase ≠ .serving := by rcases entry with ⟨_,phase,_⟩ | ⟨_,phase,_⟩ <;> simp [phase]
    exact ⟨(valid.forking n parent alive busy).extend _,by simp⟩
  | startedThread c thread => simp [mode] at thread
  | declined c entry => exact ⟨(valid.serving alive).extend _,by simp [Move.quiet]⟩
  | failed entry => exact ⟨(valid.serving alive).extend _,by simp [Move.quiet]⟩
  | forks q left fresh other phase =>
    have root : P.worker = false := by
      by_contra worker
      exact (valid.idle (by simpa using worker)).2 left phase
    have both := forked_valid p q (left - 1) valid root alive (by simp [phase])
    refine ⟨both.1.extend _,?_⟩
    rintro q' Q ⟨⟩
    exact both.2.extend _
  | forksThread q fresh other phase => exact absurd phase valid.single
  | signalled phase => exact ⟨(valid.signalled phase).extend _,by simp [Move.quiet]⟩
  | reaps q n phase child => exact ⟨(valid.reaps q n phase child).extend _,by simp⟩
  | terminated phase =>
    have killed := killChilds_valid p valid false .serving (.inr ⟨rfl,rfl⟩)
    exact ⟨by simpa [phase] using killed,by simp⟩
  | exited =>
    exact ⟨killChilds_valid p valid P.acceptorOpen .dead (.inl rfl),by simp⟩
  | died =>
    refine ⟨Valid.extend ?_ _,by simp [Move.quiet]⟩
    exact ⟨valid.own,by simp [Move.quiet],valid.child,valid.childless,valid.inherited,valid.copied,
      by simp [Move.quiet],by simp [Move.quiet]⟩

/-- The only event of a call that can be stray is the `kill_childs` it runs. -/
theorem Moved.stray (moved : Moved cfg s p P c m) (event : Event) (member : event ∈ m.events)
    (stray : Stray event) :
    runsKillChilds P c = true ∧ event = .killChilds p P.childPid P.children := by
  cases moved with
  | terminated phase => exact ⟨by simp [runsKillChilds,phase],by simpa using member⟩
  | exited alive => exact ⟨by simp [runsKillChilds,alive],by simpa using member⟩
  | started | startedThread =>
    rw [List.mem_singleton.mp member] at stray
    exact stray.elim
  | forks | forksThread =>
    simp only [forked,List.mem_cons,List.not_mem_nil,or_false] at member
    rcases member with rfl | rfl <;> exact stray.elim
  | _ => simp [Move.quiet] at member

theorem Moved.kill_logged (moved : Moved cfg s p P c m) (kills : runsKillChilds P c = true) :
    .killChilds p P.childPid P.children ∈ m.events := by
  cases moved with
  | terminated | exited => exact List.mem_singleton_self _
  | started n c parent entry => rcases entry with ⟨rfl,_⟩ | ⟨rfl,_⟩ <;> contradiction
  | startedThread c mode entry => rcases entry with ⟨rfl,_⟩ | ⟨rfl,_⟩ <;> contradiction
  | declined c entry => rcases entry with ⟨rfl,_⟩ | ⟨rfl,_⟩ <;> contradiction
  | _ => contradiction

theorem kill_enabled (cfg : Config) (s : State) (p : Pid) (c : Call)
    (kills : runsKillChilds P c = true) : ∃ m, transition cfg s p P c = some m := by
  cases c <;> simp [runsKillChilds] at kills
  · simp [transition,kills]
  · simp [transition,kills]

theorem step_cases (cfg : Config) (s : State) (a : Action) :
    step cfg s a = s ∨ ∃ P m, s.procs a.caller = some P ∧
      transition cfg s a.caller P a.call = some m ∧ step cfg s a = perform s a.caller m := by
  cases found : s.procs a.caller with
  | none => exact .inl (by simp [step,found])
  | some P =>
    cases moved : transition cfg s a.caller P a.call with
    | none => exact .inl (by simp [step,found,moved])
    | some m => exact .inr ⟨P,m,rfl,moved,by simp [step,found,moved]⟩

theorem perform_procs (s : State) (p q : Pid) (m : Move) (Q : Process)
    (found : (perform s p m).procs q = some Q) :
    (q = p ∧ Q = m.proc) ∨ m.child = some (q,Q) ∨ s.procs q = some Q := by
  simp only [perform,Function.update_apply] at found
  split at found
  · rename_i caller
    exact .inl ⟨caller,(Option.some.inj found).symm⟩
  · have old (reaped : Option Pid) (found : clear s.procs reaped q = some Q) : s.procs q = some Q := by
      cases reaped with
      | none => exact found
      | some r =>
        simp only [clear,Function.update_apply] at found
        split at found
        · contradiction
        · exact found
    cases newborn : m.child with
    | none =>
      rw [newborn] at found
      exact .inr (.inr (old _ found))
    | some child =>
      obtain ⟨r,R⟩ := child
      simp only [newborn,born,Function.update_apply] at found
      split at found
      · rename_i same
        cases found
        exact .inr (.inl (by rw [same]))
      · exact .inr (.inr (old _ found))

theorem step_invariant (cfg : Config) (mode : cfg.mode = .process) (s : State) (a : Action)
    (valid : Invariant s) : Invariant (step cfg s a) := by
  rcases step_cases cfg s a with same | ⟨P,m,found,moved,stepped⟩
  · rwa [same]
  · have next := (transition_moved moved).valid mode (valid _ P found)
    rw [stepped]
    intro q Q foundQ
    rcases perform_procs s a.caller q m Q foundQ with ⟨rfl,rfl⟩ | newborn | old
    · exact next.1
    · exact next.2 q Q newborn
    · exact (valid q Q old).extend _

theorem step_log (cfg : Config) (s : State) (a : Action) (event : Event) (member : event ∈ s.log) :
    event ∈ (step cfg s a).log := by
  rcases step_cases cfg s a with same | ⟨P,m,_,_,stepped⟩
  · rwa [same]
  · rw [stepped]
    exact List.mem_append_left _ member

/-- A step of a valid state sends its first stray signal exactly when it runs the
`kill_childs` of a worker with siblings. -/
theorem step_ownChildren (cfg : Config) (s : State) (a : Action) (valid : Invariant s)
    (own : OwnChildren s) : OwnChildren (step cfg s a) ↔ BornAlone s a := by
  constructor
  · intro next P found kills worker
    by_contra siblings
    have process := valid _ P found
    have copied : P.childPid = P.siblings := (process.copied worker).resolve_right
      (by rintro ⟨event,member,stray⟩; exact own event member stray)
    obtain ⟨m,moved⟩ := kill_enabled cfg s a.caller a.call kills
    have killed := (transition_moved moved).kill_logged kills
    have log : (step cfg s a).log = s.log ++ m.events := by simp [step,found,moved,perform]
    apply next _ (log ▸ List.mem_append_right _ killed)
    simpa [Stray,process.childless worker,copied] using siblings
  · intro alone
    rcases step_cases cfg s a with same | ⟨P,m,found,moved,stepped⟩
    · rwa [same]
    · rw [stepped]
      intro event member stray
      rcases List.mem_append.mp member with old | fresh
      · exact own event old stray
      · obtain ⟨kills,rfl⟩ := (transition_moved moved).stray event fresh stray
        have process := valid _ P found
        apply stray
        cases worker : P.worker with
        | false => exact process.own worker
        | true =>
          have inherited := process.inherited worker
          rw [alone P found kills worker] at inherited
          exact inherited.trans (Finset.empty_subset _)

theorem execute_log (cfg : Config) (s : State) (schedule : List Action) (event : Event)
    (member : event ∈ s.log) : event ∈ (execute (step cfg) s schedule).log :=
  execute_invariant (I := fun s : State => event ∈ s.log) (fun s a => step_log cfg s a event) member schedule

/-- In process mode every SIGQUIT of a run goes to an unreaped child of its sender
exactly when no worker born beside living siblings terminates or exits in it. -/
theorem own_children_iff (taskNumber : Nat) (root : Pid) (schedule : List Action) :
    OwnChildren (execute (step ⟨.process,taskNumber⟩) (initial root) schedule) ↔
      Along (step ⟨.process,taskNumber⟩) BornAlone (initial root) schedule := by
  constructor
  · intro own
    rw [along_iff_split]
    rintro first a later rfl
    have valid := execute_invariant
      (step_invariant ⟨.process,taskNumber⟩ rfl) (initial_invariant root) first
    -- The log only grows, so no stray signal of a prefix is lost.
    have here : OwnChildren (execute (step ⟨.process,taskNumber⟩) (initial root) first) := by
      intro event member
      apply own event
      rw [execute_append]
      exact execute_log _ _ _ event member
    refine (step_ownChildren ⟨.process,taskNumber⟩ _ a valid here).mp ?_
    intro event member
    apply own event
    rw [execute_append,execute_cons]
    exact execute_log _ _ _ event member
  · intro along
    have both := along_invariant
      (I := fun s : State => Invariant s ∧ OwnChildren s)
      (fun s a alone inv => ⟨step_invariant _ rfl s a inv.1,
        (step_ownChildren _ s a inv.1 inv.2).mpr alone⟩)
      ⟨initial_invariant root,by simp [OwnChildren,initial]⟩ schedule along
    exact both.2

/-- The second worker inherits the pid of the first and is told to terminate. -/
def siblingKill : List Action :=
  [⟨1,.run⟩,⟨1,.fork (some 2)⟩,⟨1,.fork (some 3)⟩,⟨3,.terminate⟩]

theorem siblingKill_strays :
    ¬OwnChildren (execute (step ⟨.process,2⟩) (initial 1) siblingKill) := by
  intro own
  refine own (.killChilds 3 {2} ∅) ?_ ?_
  · decide
  · simp [Stray]

end Zerver.TcpServer
