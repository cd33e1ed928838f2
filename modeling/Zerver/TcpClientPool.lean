import Mathlib.Data.List.Perm.Basic
import Mathlib.Logic.Function.Basic
import Zerver.Assoc

/-! Pooled upstream clients: `client/tcp_client.h` and `client/tcp_client_pool.cc`.
Clients live in a heap and are shared by reference count; the last reference to go
runs `~TcpClient`, which closes the socket. Whether a poll of a socket reports an
error is the environment's answer, given for each poll of a call separately. -/
namespace Zerver.TcpClientPool

open Zerver.Assoc

/-- `useCount` is the count of the shared pointers to the object; `times_` is an `int` and
wraps as one. -/
structure TcpClient where
  times : Int32
  peerId : Int
  isClosed : Bool
  lastTouchTime : Int
  useCount : Nat
  deriving DecidableEq, Repr

/-- The objects and, in order, the sockets that the running call has closed. -/
structure Heap where
  clients : Nat → TcpClient
  closed : List Nat

def Heap.modify (c : Nat) (f : TcpClient → TcpClient) (h : Heap) : Heap :=
  { h with clients := Function.update h.clients c (f (h.clients c)) }

def close (c : Nat) (h : Heap) : Heap :=
  if (h.clients c).isClosed then h
  else ⟨Function.update h.clients c { h.clients c with isClosed := true },h.closed ++ [c]⟩

def increaseTimes (c : Nat) (h : Heap) : Heap :=
  h.modify c fun client => { client with times := client.times + 1 }

def retain (c : Nat) (h : Heap) : Heap :=
  h.modify c fun client => { client with useCount := client.useCount + 1 }

/-- Drops one shared pointer, and the object with the last one. -/
def release (c : Nat) (h : Heap) : Heap :=
  let h := h.modify c fun client => { client with useCount := client.useCount - 1 }
  if (h.clients c).useCount = 0 then close c h else h

def onRecollect (now : Int) (c : Nat) (h : Heap) : Heap :=
  h.modify c fun client => { client with lastTouchTime := now }

def expired (now time : Int) (client : TcpClient) : Bool := time ≤ now - client.lastTouchTime

/-- `free_clients_` maps each peer id to its deque of free clients. -/
structure Pool where
  maxTimes : Int32
  checkTime : Int
  freeClients : List (Int × List Nat)

def pooled (entries : List (Int × List Nat)) : List Nat := entries.flatMap Prod.snd

def assign (peer : Int) (deque : List Nat) : List (Int × List Nat) → List (Int × List Nat)
  | [] => [(peer,deque)]
  | (other,q) :: rest =>
    if other = peer then (other,deque) :: rest else (other,q) :: assign peer deque rest

/-- The loop of `get_client` over one deque; `error i` answers the poll of its i-th client. -/
def getLoop (maxTimes : Int32) (error : Nat → Bool) :
    List Nat → Heap → Option Nat × List Nat × Heap
  | [], h => (none,[],h)
  | c :: rest, h =>
    let next := getLoop maxTimes (fun i => error (i + 1)) rest
    if (h.clients c).isClosed then next (release c h)
    else if 0 < maxTimes then
      let h := increaseTimes c h
      if maxTimes < (h.clients c).times then next (release c (close c h))
      else if error 0 then next (release c h) else (some c,rest,h)
    else if error 0 then next (release c h) else (some c,rest,h)

def getClient (error : Nat → Bool) (peer : Int) (pool : Pool) (h : Heap) :
    Option Nat × Pool × Heap :=
  match pool.freeClients.lookup peer with
  | none => (none,pool,h)
  | some deque =>
    let found := getLoop pool.maxTimes error deque h
    (found.1,{ pool with freeClients := assign peer found.2.1 pool.freeClients },found.2.2)

def recollect (now : Int) (client : Option Nat) (pool : Pool) (h : Heap) : Pool × Heap :=
  match client with
  | none => (pool,h)
  | some c =>
    let h := retain c (onRecollect now c h)
    let peer := (h.clients c).peerId
    let deque := (pool.freeClients.lookup peer).getD []
    ({ pool with freeClients := assign peer (deque ++ [c]) pool.freeClients },h)

/-- The inner loop of `check_clients`, erasing while it iterates. -/
def sweep (checkTime now : Int) (error : Nat → Bool) : List Nat → Heap → List Nat × Heap
  | [], h => ([],h)
  | c :: rest, h =>
    let next := sweep checkTime now (fun i => error (i + 1)) rest
    if expired now checkTime (h.clients c) then next (release c (close c h))
    else if (h.clients c).isClosed || error 0 then next (release c h)
    else (c :: (next h).1,(next h).2)

def checkEntries (checkTime now : Int) (error : Int → Nat → Bool) :
    List (Int × List Nat) → Heap → List (Int × List Nat) × Heap
  | [], h => ([],h)
  | (peer,deque) :: rest, h =>
    let swept := sweep checkTime now (error peer) deque h
    let others := checkEntries checkTime now error rest swept.2
    ((peer,swept.1) :: others.1,others.2)

def checkClients (now : Int) (error : Int → Nat → Bool) (pool : Pool) (h : Heap) : Pool × Heap :=
  let checked := checkEntries pool.checkTime now error pool.freeClients h
  ({ pool with freeClients := checked.1 },checked.2)

@[simp] theorem modify_closed (c : Nat) (f : TcpClient → TcpClient) (h : Heap) :
    (h.modify c f).closed = h.closed := rfl

theorem close_closed (c d : Nat) (h : Heap) (member : d ∈ (close c h).closed) :
    d ∈ h.closed ∨ d = c := by
  unfold close at member
  split at member
  · exact .inl member
  · simpa using member

theorem release_closed (c d : Nat) (h : Heap) (member : d ∈ (release c h).closed) :
    d ∈ h.closed ∨ d = c := by
  simp only [release] at member
  split at member
  · have closed := close_closed c d _ member
    rwa [modify_closed] at closed
  · exact .inl member

/-- `get_client` splits the deque into what it drops, what it returns and what it
leaves, and it closes no other client than the dropped ones. -/
theorem getLoop_spec (maxTimes : Int32) (error : Nat → Bool) (deque : List Nat) (h : Heap) :
    ∃ dropped, deque = dropped ++ ((getLoop maxTimes error deque h).1.toList ++
        (getLoop maxTimes error deque h).2.1) ∧
      ∀ c ∈ (getLoop maxTimes error deque h).2.2.closed, c ∈ h.closed ∨ c ∈ dropped := by
  induction deque generalizing error h with
  | nil => exact ⟨[],by simp [getLoop],by simp [getLoop]⟩
  | cons c rest ih =>
    -- Every branch that goes on has dropped `c` and closed at most `c`.
    have skip (h' : Heap) (closes : ∀ d ∈ h'.closed, d ∈ h.closed ∨ d = c) :
        ∃ dropped, c :: rest = dropped ++
            ((getLoop maxTimes (fun i => error (i + 1)) rest h').1.toList ++
              (getLoop maxTimes (fun i => error (i + 1)) rest h').2.1) ∧
          ∀ d ∈ (getLoop maxTimes (fun i => error (i + 1)) rest h').2.2.closed,
            d ∈ h.closed ∨ d ∈ dropped := by
      obtain ⟨dropped,split,closed⟩ := ih (fun i => error (i + 1)) h'
      refine ⟨c :: dropped,congrArg (c :: ·) split,?_⟩
      intro d member
      rcases closed d member with old | fresh
      · rcases closes d old with older | rfl
        · exact .inl older
        · exact .inr List.mem_cons_self
      · exact .inr (List.mem_cons_of_mem _ fresh)
    have overused (h' : Heap) (same : h'.closed = h.closed) :
        ∀ d ∈ (release c (close c h')).closed, d ∈ h.closed ∨ d = c := by
      intro d member
      rcases release_closed c d _ member with old | rfl
      · rw [← same]
        exact close_closed c d h' old
      · exact .inr rfl
    simp only [getLoop]
    split
    · exact skip _ (fun d => release_closed c d h)
    · split
      · split
        · exact skip _ (overused _ rfl)
        · split
          · exact skip _ (fun d => release_closed c d _)
          · exact ⟨[],by simp,by simp [increaseTimes]⟩
      · split
        · exact skip _ (fun d => release_closed c d h)
        · exact ⟨[],by simp,by simp⟩

theorem assign_perm (entries : List (Int × List Nat)) (peer : Int) :
    ∃ others, (pooled entries).Perm ((entries.lookup peer).getD [] ++ others) ∧
      ∀ deque, (pooled (assign peer deque entries)).Perm (deque ++ others) := by
  induction entries with
  | nil => exact ⟨[],by simp [pooled],by simp [pooled,assign]⟩
  | cons entry rest ih =>
    obtain ⟨other,q⟩ := entry
    by_cases same : other = peer
    · subst same
      exact ⟨pooled rest,by simp [pooled],by simp [pooled,assign]⟩
    · obtain ⟨others,before,after⟩ := ih
      refine ⟨q ++ others,?_,?_⟩
      · rw [lookup_cons_eq,if_neg same]
        simp only [pooled,List.flatMap_cons]
        exact (before.append_left q).trans (List.perm_append_comm_assoc _ _ _)
      · intro deque
        simp only [pooled,assign,same,↓reduceIte,List.flatMap_cons]
        exact ((after deque).append_left q).trans (List.perm_append_comm_assoc _ _ _)

/-- `get_client` moves its result out of the pool, and closes only clients it drops. -/
theorem getClient_spec (error : Nat → Bool) (peer : Int) (pool : Pool) (h : Heap) :
    ∃ dropped, (pooled pool.freeClients).Perm
        (dropped ++ ((getClient error peer pool h).1.toList ++
          pooled (getClient error peer pool h).2.1.freeClients)) ∧
      ∀ c ∈ (getClient error peer pool h).2.2.closed, c ∈ h.closed ∨ c ∈ dropped := by
  obtain ⟨others,before,after⟩ := assign_perm pool.freeClients peer
  unfold getClient
  cases found : pool.freeClients.lookup peer with
  | none => exact ⟨[],by simp,by simp⟩
  | some deque =>
    obtain ⟨dropped,split,closed⟩ := getLoop_spec pool.maxTimes error deque h
    refine ⟨dropped,?_,closed⟩
    rw [found,Option.getD_some] at before
    apply before.trans
    nth_rewrite 1 [split]
    rw [List.append_assoc,List.append_assoc]
    exact ((after _).symm.append_left _).append_left _

theorem recollect_perm (now : Int) (c : Nat) (pool : Pool) (h : Heap) :
    (pooled (recollect now (some c) pool h).1.freeClients).Perm (c :: pooled pool.freeClients) := by
  simp only [recollect]
  generalize ((retain c (onRecollect now c h)).clients c).peerId = peer
  obtain ⟨others,before,after⟩ := assign_perm pool.freeClients peer
  apply (after _).trans
  apply (List.perm_append_comm.append_right others).trans
  exact (before.symm.cons c)

theorem sweep_spec (checkTime now : Int) (error : Nat → Bool) (deque : List Nat) (h : Heap) :
    (sweep checkTime now error deque h).1.Sublist deque ∧
      ∀ c ∈ (sweep checkTime now error deque h).2.closed, c ∈ h.closed ∨ c ∈ deque := by
  induction deque generalizing error h with
  | nil => simp [sweep]
  | cons c rest ih =>
    have skip (h' : Heap) (closes : ∀ d ∈ h'.closed, d ∈ h.closed ∨ d = c) :
        (sweep checkTime now (fun i => error (i + 1)) rest h').1.Sublist (c :: rest) ∧
          ∀ d ∈ (sweep checkTime now (fun i => error (i + 1)) rest h').2.closed,
            d ∈ h.closed ∨ d ∈ c :: rest := by
      obtain ⟨sub,closed⟩ := ih (fun i => error (i + 1)) h'
      refine ⟨sub.cons c,?_⟩
      intro d member
      rcases closed d member with old | fresh
      · rcases closes d old with older | rfl
        · exact .inl older
        · exact .inr List.mem_cons_self
      · exact .inr (List.mem_cons_of_mem _ fresh)
    simp only [sweep]
    split
    · apply skip _
      intro d member
      rcases release_closed c d _ member with old | rfl
      · exact close_closed c d h old
      · exact .inr rfl
    · split
      · exact skip _ (fun d => release_closed c d h)
      · obtain ⟨sub,closed⟩ := ih (fun i => error (i + 1)) h
        refine ⟨sub.cons_cons c,?_⟩
        intro d member
        exact (closed d member).imp_right (List.mem_cons_of_mem c)

theorem checkEntries_spec (checkTime now : Int) (error : Int → Nat → Bool)
    (entries : List (Int × List Nat)) (h : Heap) :
    (pooled (checkEntries checkTime now error entries h).1).Sublist (pooled entries) ∧
      ∀ c ∈ (checkEntries checkTime now error entries h).2.closed, c ∈ h.closed ∨ c ∈ pooled entries := by
  induction entries generalizing h with
  | nil => simp [checkEntries,pooled]
  | cons entry rest ih =>
    obtain ⟨peer,deque⟩ := entry
    obtain ⟨sub,closed⟩ := sweep_spec checkTime now (error peer) deque h
    obtain ⟨subs,closeds⟩ := ih (sweep checkTime now (error peer) deque h).2
    refine ⟨sub.append subs,?_⟩
    intro c member
    simp only [pooled,List.flatMap_cons,List.mem_append]
    rcases closeds c member with old | fresh
    · exact (closed c old).imp_right .inl
    · exact .inr (.inr fresh)

end Zerver.TcpClientPool
