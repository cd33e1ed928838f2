import Zerver.TcpServerMoves

/-! The fork notifications of the io_service. Every process has the sequence of its
`fork()` and `notify_fork` calls, which a child inherits with the rest of the image.
asio asks for `fork_prepare`, `fork()`, then the notification of the side one is on. -/
namespace Zerver.TcpServer

open Zerver.Schedule

variable {cfg : Config} {s : State} {p : Pid} {P : Process} {c : Call} {m : Move} {calls : List Notice}

/-- What `fork()` returned: a pid, 0 or -1. -/
inductive Outcome where
  | parent
  | child
  | failed
  deriving DecidableEq, Repr

inductive Notice where
  | fork (outcome : Outcome)
  | notify (event : ForkEvent)
  deriving DecidableEq, Repr

/-- The notification owed after a `fork()`; a failed one leaves the parent alone. -/
def Outcome.owes : Outcome → ForkEvent
  | .parent | .failed => .parent
  | .child => .child

/-- Where an io_service stands in the protocol. -/
inductive Protocol where
  | idle
  | prepared
  | forked (outcome : Outcome)
  deriving DecidableEq, Repr

def Protocol.next : Protocol → Notice → Option Protocol
  | .idle, .notify .prepare => some .prepared
  | .prepared, .fork outcome => some (.forked outcome)
  | .forked outcome, .notify event => if event = outcome.owes then some .idle else none
  | _, _ => none

/-- `none` is a call out of turn. -/
def follow (calls : List Notice) : Option Protocol := calls.foldlM Protocol.next .idle

def notice (p : Pid) : Event → Option Notice
  | .notifyFork caller event => if caller = p then some (.notify event) else none
  | .killChilds _ _ _ => none

def returned : Call → List Notice
  | .fork (some _) => [.fork .parent]
  | .fork none => [.fork .failed]
  | _ => []

def inherit (traces : Pid → List Notice) (p : Pid) (m : Move) : Pid → List Notice :=
  match m.child with
  | none => traces
  | some (q,_) =>
    Function.update traces q (traces p ++ .fork .child :: m.events.filterMap (notice q))

def record (traces : Pid → List Notice) (p : Pid) (c : Call) (m : Move) : Pid → List Notice :=
  Function.update (inherit traces p m) p (traces p ++ (returned c ++ m.events.filterMap (notice p)))

/-- The process tree with every process's sequence of calls. -/
structure Traced where
  state : State
  traces : Pid → List Notice

def traceStep (cfg : Config) (t : Traced) (a : Action) : Traced :=
  match t.state.procs a.caller with
  | none => t
  | some P =>
    match transition cfg t.state a.caller P a.call with
    | none => t
    | some m => ⟨perform t.state a.caller m,record t.traces a.caller a.call m⟩

def untraced (root : Pid) : Traced := ⟨initial root,fun _ => []⟩

theorem traceStep_state (cfg : Config) (t : Traced) (a : Action) :
    (traceStep cfg t a).state = step cfg t.state a := by
  cases found : t.state.procs a.caller with
  | none => simp [traceStep,step,found]
  | some P =>
    cases moved : transition cfg t.state a.caller P a.call with
    | none => simp [traceStep,step,found,moved]
    | some m => simp [traceStep,step,found,moved]

theorem execute_traceStep_state (cfg : Config) (t : Traced) (schedule : List Action) :
    (execute (traceStep cfg) t schedule).state = execute (step cfg) t.state schedule := by
  induction schedule generalizing t with
  | nil => rfl
  | cons a rest ih => rw [execute_cons,ih,traceStep_state,execute_cons]

/-- The calls came in turn, and nothing is prepared or owed once the forking function
has returned; a process killed inside it has not returned. -/
def Respected (P : Process) (calls : List Notice) : Prop :=
  ∃ place, follow calls = some place ∧ (P.phase.beforeFork = false → P.phase ≠ .dead → place = .idle)

/-- `process_num` of the `run_multi_process` call that a step makes, if it makes one. -/
def processNum (cfg : Config) (s : State) (a : Action) : Nat :=
  match a.call, phaseOf a.caller s with
  | .run, .booted => if cfg.mode = .thread then 0 else max cfg.taskNumber 1
  | .waitpid none, .reaping taskNum => if cfg.mode = .process then taskNum else 0
  | _, _ => 0

/-- No `fork()` fails, and the fork loop is never entered for a second worker. -/
def OneFork (cfg : Config) (s : State) (a : Action) : Prop :=
  forkFails s a = false ∧ processNum cfg s a ≤ 1

instance OneFork.decidable (cfg : Config) (s : State) (a : Action) : Decidable (OneFork cfg s a) :=
  inferInstanceAs (Decidable (_ ∧ _))

structure InTurn (P : Process) (calls : List Notice) : Prop where
  prepared : P.phase.beforeFork = true → follow calls = some .prepared
  idle : P.phase.beforeFork = false → P.phase ≠ .dead → follow calls = some .idle
  proper : (follow calls).isSome
  last : ∀ left, P.phase = .forking left → left = 1

theorem follow_append (first later : List Notice) :
    follow (first ++ later) = (follow first).bind fun state => later.foldlM Protocol.next state := by
  simp [follow,List.foldlM_append]

theorem InTurn.respected (inTurn : InTurn P calls) : Respected P calls := by
  obtain ⟨state,followed⟩ := Option.isSome_iff_exists.mp inTurn.proper
  refine ⟨state,followed,?_⟩
  intro returned alive
  have idle := inTurn.idle returned alive
  rw [followed] at idle
  exact Option.some.inj idle

theorem InTurn.of_idle (idle : follow calls = some .idle) (forking : P.phase.beforeFork = false) :
    InTurn P calls where
  prepared := by simp [forking]
  idle := fun _ _ => idle
  proper := by simp [idle]
  last := by
    intro left phase
    simp [phase,Phase.beforeFork] at forking

theorem InTurn.of_dead (proper : (follow calls).isSome) (dead : P.phase = .dead) : InTurn P calls where
  prepared := by simp [dead,Phase.beforeFork]
  idle := by simp [dead]
  proper := proper
  last := by simp [dead]

theorem InTurn.of_prepared (prepared : follow calls = some .prepared)
    (forking : P.phase = .forking 1 ∨ P.phase = .forkingThread) : InTurn P calls where
  prepared := fun _ => prepared
  idle := by rcases forking with phase | phase <;> simp [phase,Phase.beforeFork]
  proper := by simp [prepared]
  last := by
    intro left phase
    rcases forking with forking | forking <;> simp_all

theorem prepare_follow (p : Pid) (idle : follow calls = some .idle) :
    follow (calls ++ ([] ++ [Event.notifyFork p .prepare].filterMap (notice p))) = some .prepared := by
  simp [follow_append,idle,notice,Protocol.next]

theorem parent_follow (p q : Pid) (other : q ≠ p) (prepared : follow calls = some .prepared) :
    follow (calls ++ ([.fork .parent] ++
      [Event.notifyFork p .parent,.notifyFork q .child].filterMap (notice p))) = some .idle := by
  simp [follow_append,prepared,notice,Protocol.next,Outcome.owes,other]

theorem child_follow (p q : Pid) (other : q ≠ p) (prepared : follow calls = some .prepared) :
    follow (calls ++ .fork .child ::
      [Event.notifyFork p .parent,.notifyFork q .child].filterMap (notice q)) = some .idle := by
  simp [follow_append,prepared,notice,Protocol.next,Outcome.owes,other.symm]

theorem kill_unnoticed (p : Pid) (targets own : Finset Pid) (calls : List Notice) :
    calls ++ ([] ++ [Event.killChilds p targets own].filterMap (notice p)) = calls := by
  simp [List.filterMap_cons,notice]

theorem processNum_of_started (s : State) (p : Pid) (c : Call) (n : Nat) (found : s.procs p = some P)
    (entry : (c = .run ∧ P.phase = .booted ∧ cfg.mode ≠ .thread ∧ n = max cfg.taskNumber 1) ∨
      (c = .waitpid none ∧ P.phase = .reaping n ∧ n ≠ 0 ∧ cfg.mode = .process)) :
    processNum cfg s ⟨p,c⟩ = n ∧ n ≠ 0 := by
  rcases entry with ⟨rfl,booted,mode,rfl⟩ | ⟨rfl,reaping,some,mode⟩
  · refine ⟨?_,by omega⟩
    simp [processNum,phaseOf_eq found,booted,mode]
  · refine ⟨?_,some⟩
    simp [processNum,phaseOf_eq found,reaping,mode]

theorem Moved.inTurn (moved : Moved cfg s p P c m) (found : s.procs p = some P)
    (one : OneFork cfg s ⟨p,c⟩) (inTurn : InTurn P calls) :
    InTurn m.proc (calls ++ (returned c ++ m.events.filterMap (notice p))) ∧
    ∀ q Q, m.child = some (q,Q) →
      InTurn Q (calls ++ .fork .child :: m.events.filterMap (notice q)) := by
  cases moved with
  | started n c parent entry =>
    obtain ⟨num,positive⟩ := processNum_of_started s p c n found entry
    have once : n = 1 := by
      have := one.2
      omega
    have idle : follow calls = some .idle := by
      rcases entry with ⟨_,phase,_⟩ | ⟨_,phase,_⟩
      · exact inTurn.idle (by simp [phase,Phase.beforeFork]) (by simp [phase])
      · exact inTurn.idle (by simp [phase,Phase.beforeFork]) (by simp [phase])
    have quiet : returned c = [] := by rcases entry with ⟨rfl,_⟩ | ⟨rfl,_⟩ <;> rfl
    rw [quiet]
    exact ⟨.of_prepared (prepare_follow p idle) (.inl (by simp [once,loop])),by simp⟩
  | startedThread c mode entry =>
    have idle : follow calls = some .idle := by
      rcases entry with ⟨_,phase⟩ | ⟨_,n,phase,_⟩
      · exact inTurn.idle (by simp [phase,Phase.beforeFork]) (by simp [phase])
      · exact inTurn.idle (by simp [phase,Phase.beforeFork]) (by simp [phase])
    have quiet : returned c = [] := by rcases entry with ⟨rfl,_⟩ | ⟨rfl,_⟩ <;> rfl
    rw [quiet]
    exact ⟨.of_prepared (prepare_follow p idle) (.inr rfl),by simp⟩
  | declined c entry =>
    have idle : follow calls = some .idle := by
      rcases entry with ⟨_,phase,_⟩ | ⟨_,n,phase,_⟩
      · exact inTurn.idle (by simp [phase,Phase.beforeFork]) (by simp [phase])
      · exact inTurn.idle (by simp [phase,Phase.beforeFork]) (by simp [phase])
    have quiet : returned c = [] := by rcases entry with ⟨rfl,_⟩ | ⟨rfl,_⟩ <;> rfl
    rw [quiet]
    exact ⟨.of_idle (by simpa [Move.quiet] using idle) rfl,by simp [Move.quiet]⟩
  | failed entry =>
    have fails := one.1
    have forking : P.phase.beforeFork = true := by
      rcases entry with ⟨left,phase⟩ | phase <;> simp [phase,Phase.beforeFork]
    simp [forkFails,phaseOf_eq found,forking] at fails
  | forks q left fresh other phase =>
    have prepared := inTurn.prepared (by simp [phase,Phase.beforeFork])
    obtain rfl := inTurn.last left phase
    refine ⟨.of_idle (parent_follow p q other prepared) rfl,?_⟩
    rintro q' Q ⟨⟩
    exact .of_idle (child_follow p q other prepared) rfl
  | forksThread q fresh other phase =>
    have prepared := inTurn.prepared (by simp [phase,Phase.beforeFork])
    refine ⟨.of_idle (parent_follow p q other prepared) rfl,?_⟩
    rintro q' Q ⟨⟩
    exact .of_idle (child_follow p q other prepared) rfl
  | signalled phase =>
    have idle := inTurn.idle (by simp [phase,Phase.beforeFork]) (by simp [phase])
    refine ⟨.of_idle (by simpa [returned,Move.quiet] using idle) ?_,by simp [Move.quiet]⟩
    by_cases opened : P.acceptorOpen <;> simp [Move.quiet,opened,Phase.beforeFork]
  | reaps q n phase child =>
    have idle := inTurn.idle (by simp [phase,Phase.beforeFork]) (by simp [phase])
    exact ⟨.of_idle (by simpa [returned] using idle) rfl,by simp⟩
  | terminated phase =>
    have idle := inTurn.idle (by simp [phase,Phase.beforeFork]) (by simp [phase])
    have quiet : returned .terminate = [] := rfl
    rw [quiet,kill_unnoticed]
    exact ⟨.of_idle idle (by simp [phase,Phase.beforeFork]),by simp⟩
  | exited alive =>
    have quiet : returned .exit = [] := rfl
    rw [quiet,kill_unnoticed]
    exact ⟨.of_dead inTurn.proper rfl,by simp⟩
  | died alive =>
    exact ⟨.of_dead (by simpa [returned,Move.quiet] using inTurn.proper) rfl,by simp [Move.quiet]⟩

def AllInTurn (t : Traced) : Prop :=
  ∀ p P, t.state.procs p = some P → InTurn P (t.traces p)

theorem untraced_inTurn (root : Pid) : AllInTurn (untraced root) := by
  intro p P found
  simp only [untraced,initial] at found
  split at found
  · cases found
    exact .of_idle rfl rfl
  · contradiction

theorem record_caller (traces : Pid → List Notice) (p : Pid) (c : Call) (m : Move) :
    record traces p c m p = traces p ++ (returned c ++ m.events.filterMap (notice p)) := by
  simp [record]

theorem record_child (traces : Pid → List Notice) (p q : Pid) (c : Call) (m : Move) (Q : Process)
    (child : m.child = some (q,Q)) (other : q ≠ p) :
    record traces p c m q = traces p ++ .fork .child :: m.events.filterMap (notice q) := by
  simp [record,inherit,child,Function.update_of_ne other]

theorem record_apart (traces : Pid → List Notice) (p q : Pid) (c : Call) (m : Move)
    (notBorn : ∀ Q, m.child ≠ some (q,Q)) (other : q ≠ p) :
    record traces p c m q = traces q := by
  rw [record,Function.update_of_ne other,inherit]
  cases child : m.child with
  | none => rfl
  | some newborn =>
    obtain ⟨r,R⟩ := newborn
    have apart : q ≠ r := by
      rintro rfl
      exact notBorn R child
    simp [Function.update_of_ne apart]

theorem traceStep_inTurn (t : Traced) (a : Action) (one : OneFork cfg t.state a)
    (inTurn : AllInTurn t) : AllInTurn (traceStep cfg t a) := by
  cases found : t.state.procs a.caller with
  | none => simpa [traceStep,found] using inTurn
  | some P =>
    cases moved : transition cfg t.state a.caller P a.call with
    | none => simpa [traceStep,found,moved] using inTurn
    | some m =>
      simp only [traceStep,found,moved]
      have moved := transition_moved moved
      have next := moved.inTurn found one (inTurn a.caller P found)
      intro q Q foundQ
      change InTurn Q (record t.traces a.caller a.call m q)
      rcases perform_procs t.state a.caller q m Q foundQ with ⟨rfl,rfl⟩ | newborn | old
      · rw [record_caller]
        exact next.1
      · have free := (moved.newborn q Q newborn).1
        have other : q ≠ a.caller := by
          rintro rfl
          simp [found] at free
        rw [record_child _ _ _ _ _ _ newborn other]
        exact next.2 q Q newborn
      · by_cases caller : q = a.caller
        · subst caller
          cases (perform_caller t.state a.caller m).symm.trans foundQ
          rw [record_caller]
          exact next.1
        · rw [record_apart _ _ _ _ _ _ caller]
          · exact inTurn q Q old
          · intro R child
            simp [(moved.newborn q R child).1] at old

/-- In every run, in every mode, in which no fork fails and every `run_multi_process`
is for one worker: each process of the tree, in every state, has made its fork calls
and notifications in turn and is not left prepared. -/
theorem forks_notified (cfg : Config) (root : Pid) (schedule : List Action)
    (one : Along (traceStep cfg) (fun t a => OneFork cfg t.state a) (untraced root) schedule)
    (first later : List Action) (split : schedule = first ++ later) (p : Pid) (P : Process)
    (found : (execute (step cfg) (initial root) first).procs p = some P) :
    Respected P ((execute (traceStep cfg) (untraced root) first).traces p) := by
  rw [split] at one
  have inTurn := along_invariant traceStep_inTurn (untraced_inTurn root) first
    ((along_append _ first later).mp one).1
  apply (inTurn p P ?_).respected
  rw [execute_traceStep_state]
  exact found

/-- In thread mode a worker is started, dies and is replaced. -/
theorem replaced_worker_notified :
    let schedule : List Action := [⟨1,.run⟩,⟨1,.fork (some 2)⟩,⟨2,.die⟩,⟨1,.sigchld⟩,
      ⟨1,.waitpid (some 2)⟩,⟨1,.waitpid none⟩,⟨1,.fork (some 3)⟩]
    Respected ⟨false,∅,true,.serving,∅,true,∅⟩
      ((execute (traceStep ⟨.thread,4⟩) (untraced 1) schedule).traces 3) :=
  forks_notified ⟨.thread,4⟩ 1 _ (by decide) _ [] (List.append_nil _).symm 3 _ (by decide)

/-- Two workers: the second fork has no `fork_prepare` of its own. -/
theorem second_fork_unprepared :
    let schedule : List Action := [⟨1,.run⟩,⟨1,.fork (some 2)⟩,⟨1,.fork (some 3)⟩]
    (execute (traceStep ⟨.process,2⟩) (untraced 1) schedule).traces 1 =
      [.notify .prepare,.fork .parent,.notify .parent,.fork .parent,.notify .parent] ∧
    ∀ P, ¬Respected P ((execute (traceStep ⟨.process,2⟩) (untraced 1) schedule).traces 1) := by
  refine ⟨by decide,?_⟩
  rintro P ⟨place,followed,_⟩
  have lost : follow ((execute (traceStep ⟨.process,2⟩) (untraced 1)
      [⟨1,.run⟩,⟨1,.fork (some 2)⟩,⟨1,.fork (some 3)⟩]).traces 1) = none := by decide
  rw [lost] at followed
  contradiction

end Zerver.TcpServer
