import Zerver.TcpServerMoves

/-! Shutdown of the parent, in every run mode. Its signals are the `kill_childs` calls
it runs: the first one empties `child_pid_` and comes with a closed acceptor, which is
all that stops a later SIGCHLD from reaping and forking. -/
namespace Zerver.TcpServer

open Zerver.Schedule

variable {cfg : Config} {s : State} {root p : Pid} {P : Process} {c : Call} {m : Move}

/-- One `kill_childs`: the pids it signals and the caller's unreaped children then. -/
structure Kill where
  targets : Finset Pid
  own : Finset Pid
  deriving DecidableEq

def Event.kill (root : Pid) : Event → Option Kill
  | .killChilds caller targets own => if caller = root then some ⟨targets,own⟩ else none
  | .notifyFork _ _ => none

def kills (root : Pid) (log : List Event) : List Kill := log.filterMap (Event.kill root)

theorem kills_append (root : Pid) (first later : List Event) :
    kills root (first ++ later) = kills root first ++ kills root later :=
  List.filterMap_append

/-- The first signalling reaches every unreaped child, and a later one nobody. -/
def Orderly : List Kill → Prop
  | [] => True
  | first :: rest => first.targets = first.own ∧ ∀ k ∈ rest, k.targets = ∅

/-- The parent's `child_pid_` is exact until it signals; from then on it is empty, and
the parent is gone or serves with its acceptor closed. -/
structure Supervising (P : Process) (sent : List Kill) : Prop where
  exact : sent = [] → P.childPid = P.children
  spent : sent ≠ [] → P.childPid = ∅ ∧ (P.phase = .dead ∨ (P.phase = .serving ∧ P.acceptorOpen = false))
  orderly : Orderly sent

theorem Supervising.append (supervising : Supervising P sent) :
    Orderly (sent ++ [⟨P.childPid,P.children⟩]) := by
  cases sent with
  | nil => exact ⟨supervising.exact rfl,by simp⟩
  | cons first rest =>
    refine ⟨supervising.orderly.1,?_⟩
    intro k member
    rcases List.mem_append.mp member with old | new
    · exact supervising.orderly.2 k old
    · rw [List.mem_singleton.mp new]
      exact (supervising.spent (by simp)).1

theorem Supervising.silently (same : P.childPid = P.children) : Supervising P [] :=
  ⟨fun _ => same,fun signalled => absurd rfl signalled,trivial⟩

/-- Only a serving parent has signalled, so one that is inside a handler has not. -/
theorem Supervising.silent (supervising : Supervising P sent) (serving : P.phase ≠ .serving)
    (alive : P.phase ≠ .dead) : sent = [] := by
  by_contra signalled
  rcases (supervising.spent signalled).2 with dead | closed
  · exact alive dead
  · exact serving closed.1

theorem Supervising.inside (supervising : Supervising P sent) (serving : P.phase ≠ .serving)
    (alive : P.phase ≠ .dead) (events : kills root m.events = [])
    (exact : P.childPid = P.children → m.proc.childPid = m.proc.children) :
    Supervising m.proc (sent ++ kills root m.events) := by
  have silent := supervising.silent serving alive
  rw [silent,events]
  exact .silently (exact (supervising.exact silent))

theorem Moved.supervising (moved : Moved cfg s root P c m)
    (supervising : Supervising P sent) : Supervising m.proc (sent ++ kills root m.events) := by
  cases moved with
  | started n c parent entry =>
    rcases entry with ⟨_,phase,_⟩ | ⟨_,phase,_⟩
    · exact supervising.inside (by simp [phase]) (by simp [phase]) rfl id
    · exact supervising.inside (by simp [phase]) (by simp [phase]) rfl id
  | startedThread c mode entry =>
    rcases entry with ⟨_,phase⟩ | ⟨_,n,phase,_⟩
    · exact supervising.inside (by simp [phase]) (by simp [phase]) rfl id
    · exact supervising.inside (by simp [phase]) (by simp [phase]) rfl id
  | declined c entry =>
    rcases entry with ⟨_,phase,_⟩ | ⟨_,n,phase,_⟩
    · exact supervising.inside (by simp [phase]) (by simp [phase]) rfl id
    · exact supervising.inside (by simp [phase]) (by simp [phase]) rfl id
  | failed entry =>
    rcases entry with ⟨left,phase⟩ | phase
    · exact supervising.inside (by simp [phase]) (by simp [phase]) rfl id
    · exact supervising.inside (by simp [phase]) (by simp [phase]) rfl id
  | forks q left fresh other phase =>
    exact supervising.inside (by simp [phase]) (by simp [phase]) rfl (congrArg (insert q))
  | forksThread q fresh other phase =>
    exact supervising.inside (by simp [phase]) (by simp [phase]) rfl (congrArg (insert q))
  | reaps q n phase child =>
    exact supervising.inside (by simp [phase]) (by simp [phase]) rfl (congrArg (Finset.erase · q))
  | signalled serving =>
    simp only [Move.quiet,kills,List.filterMap_nil,List.append_nil]
    refine ⟨supervising.exact,?_,supervising.orderly⟩
    intro signalled
    have spent := supervising.spent signalled
    -- The closed acceptor sends a SIGCHLD straight back to the event loop.
    have closed : P.acceptorOpen = false :=
      (spent.2.resolve_left (by simp [serving])).2
    exact ⟨spent.1,.inr (by simp [closed])⟩
  | terminated serving =>
    have sends : kills root [.killChilds root P.childPid P.children] = [⟨P.childPid,P.children⟩] := by
      simp [kills,Event.kill]
    refine ⟨by simp [sends],fun _ => ⟨rfl,.inr ⟨serving,rfl⟩⟩,?_⟩
    rw [sends]
    exact supervising.append
  | exited alive =>
    have sends : kills root [.killChilds root P.childPid P.children] = [⟨P.childPid,P.children⟩] := by
      simp [kills,Event.kill]
    refine ⟨by simp [sends],fun _ => ⟨rfl,.inl rfl⟩,?_⟩
    rw [sends]
    exact supervising.append
  | died alive =>
    simp only [Move.quiet,kills,List.filterMap_nil,List.append_nil]
    exact ⟨supervising.exact,fun signalled => ⟨(supervising.spent signalled).1,.inl rfl⟩,
      supervising.orderly⟩

theorem Moved.kills_other (moved : Moved cfg s p P c m) (other : p ≠ root) :
    kills root m.events = [] := by
  apply List.filterMap_eq_nil_iff.mpr
  intro event member
  cases event with
  | notifyFork caller event => rfl
  | killChilds caller targets own =>
    have same := moved.killer caller targets own member
    simp [Event.kill,same,other]

def Parental (root : Pid) (s : State) : Prop :=
  Rooted root s ∧ ∃ P, s.procs root = some P ∧ Supervising P (kills root s.log)

theorem initial_parental (root : Pid) : Parental root (initial root) := by
  refine ⟨initial_rooted root,⟨false,∅,true,.booted,∅,false,∅⟩,by simp [initial],?_⟩
  exact .silently rfl

theorem step_parental (cfg : Config) (s : State) (a : Action) (parental : Parental root s) :
    Parental root (step cfg s a) := by
  obtain ⟨rooted,R,foundR,supervising⟩ := parental
  refine ⟨step_rooted s a rooted,?_⟩
  rcases step_cases cfg s a with same | ⟨P,m,found,moved,stepped⟩
  · rw [same]
    exact ⟨R,foundR,supervising⟩
  · have moved := transition_moved moved
    simp only [stepped,perform,kills_append]
    by_cases caller : a.caller = root
    · subst caller
      obtain rfl : R = P := Option.some.inj (foundR.symm.trans found)
      exact ⟨m.proc,perform_caller s a.caller m,moved.supervising supervising⟩
    · refine ⟨R,(rooted.apart caller found moved).trans foundR,?_⟩
      rwa [moved.kills_other caller,List.append_nil]

theorem run_parental (cfg : Config) (root : Pid) (schedule : List Action) :
    Parental root (execute (step cfg) (initial root) schedule) :=
  execute_invariant (step_parental cfg) (initial_parental root) schedule

/-- A parent that has signalled its children stands before no fork. -/
theorem Supervising.no_fork (supervising : Supervising P sent) (signalled : sent ≠ [])
    (outcome : Option Pid) : transition cfg s root P (.fork outcome) = none := by
  cases moved : transition cfg s root P (.fork outcome) with
  | none => rfl
  | some m =>
    have forking := (transition_moved moved).beforeFork outcome rfl
    exfalso
    apply signalled
    apply supervising.silent
    · intro serving
      simp [serving,Phase.beforeFork] at forking
    · intro dead
      simp [dead,Phase.beforeFork] at forking

theorem terminate_kills (found : s.procs root = some P) (serving : P.phase = .serving) :
    kills root (step cfg s ⟨root,.terminate⟩).log =
      kills root s.log ++ [⟨P.childPid,P.children⟩] := by
  simp [step,found,transition,serving,killChilds,perform,kills_append]
  simp [kills,Event.kill]

/-- In every state of every run of the server, in every mode: until the parent signals,
`child_pid_` is the set of its unreaped children; a termination signal signals that
set; the first signalling reaches all unreaped children and any later one nobody; and
a parent that has signalled makes no fork. -/
theorem shutdown_orderly (cfg : Config) (root : Pid) (schedule : List Action) :
    let s := execute (step cfg) (initial root) schedule
    ∃ P, s.procs root = some P ∧
      (kills root s.log = [] → P.childPid = P.children) ∧
      (P.phase = .serving → kills root (step cfg s ⟨root,.terminate⟩).log =
        kills root s.log ++ [⟨P.childPid,P.children⟩]) ∧
      Orderly (kills root s.log) ∧
      (kills root s.log ≠ [] → ∀ outcome, transition cfg s root P (.fork outcome) = none) := by
  obtain ⟨_,P,found,supervising⟩ := run_parental cfg root schedule
  refine ⟨P,found,supervising.exact,?_,supervising.orderly,?_⟩
  · exact terminate_kills found
  · intro signalled outcome
    exact supervising.no_fork signalled outcome

end Zerver.TcpServer
