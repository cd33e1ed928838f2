import Zerver.Schedule
import Zerver.TcpClientPoolCalls

/-! Runs of the pool, under callers that may do with their clients what they like. -/
namespace Zerver.TcpClientPool

open Zerver.Schedule

/-- `clock` is what `time` answers, `lastCheck` when `check_clients` last ran or the pool
was created; `served` lists the clients returned, and `collected` those taken back. -/
structure State where
  pool : Pool
  clients : Nat → TcpClient
  fresh : Nat
  clock : Int
  lastCheck : Int
  served : List Nat
  collected : List Nat

def State.heap (s : State) : Heap := ⟨s.clients,[]⟩

/-- A caller can make a client, close it, and drop a pointer to it. -/
inductive Action where
  | create (peer : Int)
  | recollect (client : Option Nat)
  | getClient (peer : Int) (error : Nat → Bool)
  | checkClients (error : Int → Nat → Bool)
  | close (c : Nat)
  | drop (c : Nat)
  | pass (seconds : Nat)

def initial (maxTimes : Int32) (checkTime now : Int) : State :=
  ⟨⟨maxTimes,checkTime,[]⟩,fun _ => ⟨0,0,true,now,0⟩,0,now,now,[],[]⟩

def step (s : State) : Action → State
  | .create peer =>
    { s with
      clients := Function.update s.clients s.fresh ⟨0,peer,false,s.clock,1⟩
      fresh := s.fresh + 1 }
  | .recollect none => s
  | .recollect (some c) =>
    if c < s.fresh then
      let collected := recollect s.clock (some c) s.pool s.heap
      { s with pool := collected.1, clients := collected.2.clients, collected := s.collected ++ [c] }
    else s
  | .getClient peer error =>
    let found := getClient error peer s.pool s.heap
    { s with pool := found.2.1, clients := found.2.2.clients, served := s.served ++ found.1.toList }
  | .checkClients error =>
    let checked := checkClients s.clock error s.pool s.heap
    { s with pool := checked.1, clients := checked.2.clients, lastCheck := s.clock }
  | .close c => { s with clients := (close c s.heap).clients }
  | .drop c =>
    -- The pointers of the pool are not the caller's to drop.
    if (pooled s.pool.freeClients).count c < (s.clients c).useCount then
      { s with clients := (release c s.heap).clients }
    else s
  | .pass seconds => { s with clock := s.clock + seconds }

/-- A limit that an `int` can count beyond. -/
def Limited (maxTimes : Int32) : Prop := 0 < maxTimes ∧ maxTimes < Int32.maxValue

structure Sound (maxTimes : Int32) (checkTime : Int) (s : State) : Prop where
  limits : s.pool.maxTimes = maxTimes ∧ s.pool.checkTime = checkTime
  held : Held (pooled s.pool.freeClients) s.heap
  known : ∀ c ∈ pooled s.pool.freeClients, c < s.fresh
  filed : ∀ peer, ∀ c ∈ dequeOf peer s.pool, (s.clients c).peerId = peer
  ordered : ∀ peer, (dequeOf peer s.pool).Sublist s.collected
  unborn : ∀ c, s.fresh ≤ c → s.served.count c = 0
  within : Limited maxTimes → Within maxTimes s.heap
  uses : Limited maxTimes → ∀ c, (s.served.count c : Int) ≤ (s.clients c).times.toInt ∧
    (s.served.count c : Int) ≤ maxTimes.toInt
  touched : ∀ c, (s.clients c).lastTouchTime ≤ s.clock
  checked : s.lastCheck ≤ s.clock
  /-- What the last check has left, and what has come since. -/
  young : 0 < checkTime → ∀ c ∈ pooled s.pool.freeClients, s.lastCheck - (s.clients c).lastTouchTime < checkTime

theorem initial_sound (maxTimes : Int32) (checkTime now : Int) : Sound maxTimes checkTime (initial maxTimes checkTime now) := by
  constructor <;> simp [initial,pooled,dequeOf,Held,Within,State.heap]
  exact fun limited => Int32.le_iff_toInt_le.mp (Int32.le_of_lt limited.1)

section Step

variable {maxTimes : Int32} {checkTime : Int} {s : State}

theorem Sound.shrink (sound : Sound maxTimes checkTime s) (pool : Pool) (h : Heap) (ages : Ages s.heap h)
    (counts : Limited maxTimes → Counts maxTimes s.heap h)
    (limits : pool.maxTimes = s.pool.maxTimes ∧ pool.checkTime = s.pool.checkTime)
    (held : Held (pooled pool.freeClients) h)
    (sub : ∀ c ∈ pooled pool.freeClients, c ∈ pooled s.pool.freeClients)
    (deques : ∀ peer, (dequeOf peer pool).Sublist (dequeOf peer s.pool)) :
    Sound maxTimes checkTime { s with pool := pool, clients := h.clients } where
  limits := ⟨limits.1.trans sound.limits.1,limits.2.trans sound.limits.2⟩
  held := held
  known c member := sound.known c (sub c member)
  filed peer c member := (ages.peerId c).trans (sound.filed peer c ((deques peer).subset member))
  ordered peer := (deques peer).trans (sound.ordered peer)
  unborn := sound.unborn
  within limited := (counts limited (sound.within limited)).1
  uses limited c := by
    obtain ⟨few,most⟩ := sound.uses limited c
    have more := Int32.le_iff_toInt_le.mp ((counts limited (sound.within limited)).2 c)
    exact ⟨Int.le_trans few more,most⟩
  touched c := (ages.lastTouchTime c).trans_le (sound.touched c)
  checked := sound.checked
  young positive c member := by
    have young := sound.young positive c (sub c member)
    have same : (h.clients c).lastTouchTime = (s.clients c).lastTouchTime := ages.lastTouchTime c
    dsimp only
    rwa [same]

theorem create_sound (sound : Sound maxTimes checkTime s) (peer : Int) :
    Sound maxTimes checkTime (step s (.create peer)) := by
  have old (c : Nat) (member : c ∈ pooled s.pool.freeClients) :
      (step s (.create peer)).clients c = s.clients c :=
    Function.update_of_ne (Nat.ne_of_lt (sound.known c member)) _ _
  refine ⟨sound.limits,?_,?_,?_,sound.ordered,?_,?_,?_,?_,sound.checked,?_⟩
  · intro c
    by_cases member : c ∈ pooled s.pool.freeClients
    · exact (congrArg TcpClient.useCount (old c member)).symm ▸ sound.held c
    · have none : (pooled s.pool.freeClients).count c = 0 := List.count_eq_zero.mpr member
      exact none.trans_le (Nat.zero_le _)
  · intro c member
    exact Nat.lt_succ_of_lt (sound.known c member)
  · intro other c member
    rw [old c (dequeOf_pooled _ _ member)]
    exact sound.filed other c member
  · intro c later
    exact sound.unborn c (Nat.le_of_succ_le later)
  · intro limited c
    change 0 ≤ (Function.update s.clients s.fresh _ c).times ∧
      ((Function.update s.clients s.fresh _ c).isClosed = false → (Function.update s.clients s.fresh _ c).times ≤ maxTimes)
    by_cases same : c = s.fresh
    · subst same
      rw [Function.update_self]
      exact ⟨Int32.le_refl 0,fun _ => Int32.le_of_lt limited.1⟩
    · rw [Function.update_of_ne same]
      exact sound.within limited c
  · intro limited c
    refine ⟨?_,(sound.uses limited c).2⟩
    change _ ≤ (Function.update s.clients s.fresh _ c).times.toInt
    by_cases same : c = s.fresh
    · subst same
      have none : s.served.count s.fresh = 0 := sound.unborn _ (Nat.le_refl _)
      simp [step,none]
    · rw [Function.update_of_ne same]
      exact (sound.uses limited c).1
  · intro c
    change (Function.update s.clients s.fresh _ c).lastTouchTime ≤ s.clock
    by_cases same : c = s.fresh
    · subst same
      simp
    · rw [Function.update_of_ne same]
      exact sound.touched c
  · intro positive c member
    rw [old c member]
    exact sound.young positive c member

theorem recollect_sound (sound : Sound maxTimes checkTime s) (c : Nat) (known : c < s.fresh) :
    Sound maxTimes checkTime (step s (.recollect (some c))) := by
  have stepped : step s (.recollect (some c)) = { s with
      pool := (recollect s.clock (some c) s.pool s.heap).1
      clients := (recollect s.clock (some c) s.pool s.heap).2.clients
      collected := s.collected ++ [c] } := if_pos known
  have perm := recollect_perm s.clock c s.pool s.heap
  rw [stepped]
  refine ⟨sound.limits,recollect_held s.clock c sound.held,?_,?_,?_,sound.unborn,?_,?_,?_,sound.checked,?_⟩
  · intro d member
    rcases List.mem_cons.mp (perm.mem_iff.mp member) with rfl | old
    · exact known
    · exact sound.known d old
  · intro peer d member
    dsimp only at member ⊢
    rw [recollect_dequeOf] at member
    rw [recollect_clients]
    split at member
    · rename_i own
      rcases List.mem_append.mp member with old | new
      · exact sound.filed peer d old
      · rw [List.mem_singleton.mp new,own]
    · exact sound.filed peer d member
  · intro peer
    dsimp only
    rw [recollect_dequeOf]
    split
    · exact (sound.ordered peer).append (List.Sublist.refl _)
    · exact (sound.ordered peer).trans (List.sublist_append_left _ _)
  · intro limited d
    simp only [State.heap,recollect_clients]
    exact sound.within limited d
  · intro limited d
    dsimp only
    rw [recollect_clients]
    exact sound.uses limited d
  · intro d
    dsimp only
    rw [recollect_clients]
    split
    · exact Int.le_refl s.clock
    · exact sound.touched d
  · intro positive d member
    dsimp only
    rw [recollect_clients]
    split
    · have checked := sound.checked
      dsimp only
      omega
    · rename_i apart
      rcases List.mem_cons.mp (perm.mem_iff.mp member) with rfl | old
      · exact absurd rfl apart
      · exact sound.young positive d old

theorem getClient_sound (sound : Sound maxTimes checkTime s) (peer : Int) (error : Nat → Bool) :
    Sound maxTimes checkTime (step s (.getClient peer error)) := by
  have ages := getClient_ages error peer s.pool s.heap
  have held := getClient_held error peer sound.held
  obtain ⟨result,heap,deques⟩ := getClient_eq error peer s.pool s.heap
  obtain ⟨dropped,perm,_⟩ := getClient_spec error peer s.pool s.heap
  have counts (limited : Limited maxTimes) : Counts maxTimes s.heap (getClient error peer s.pool s.heap).2.2 := by
    have counts := getClient_counts error peer s.pool (by rw [sound.limits.1]; exact limited.2) s.heap
    rwa [sound.limits.1] at counts
  have shrunk := sound.shrink _ _ ages counts (getClient_limits error peer s.pool s.heap) (held.sub (by simp))
    (fun c member => perm.mem_iff.mpr (List.mem_append_right _ (List.mem_append_right _ member))) ?_
  · have returned (c : Nat) : (getClient error peer s.pool s.heap).1.toList.count c =
        if (getClient error peer s.pool s.heap).1 = some c then 1 else 0 := by
      cases (getClient error peer s.pool s.heap).1 <;> simp [List.count_singleton]
    refine { shrunk with unborn := ?_, uses := ?_ }
    · intro c later
      have absent : (getClient error peer s.pool s.heap).1 ≠ some c := by
        intro found
        have known := sound.known c (dequeOf_pooled _ _ (getClient_mem error peer sound.held found))
        exact absurd later (Nat.not_le_of_lt known)
      change (s.served ++ _).count c = 0
      rw [List.count_append,sound.unborn c later,returned,if_neg absent]
    · intro limited c
      change ((s.served ++ _).count c : Int) ≤ ((getClient error peer s.pool s.heap).2.2.clients c).times.toInt ∧
        ((s.served ++ _).count c : Int) ≤ maxTimes.toInt
      rw [List.count_append,returned]
      obtain ⟨few,within⟩ := shrunk.uses limited c
      by_cases found : (getClient error peer s.pool s.heap).1 = some c
      · obtain ⟨more,most⟩ := getLoop_returned s.pool.maxTimes error _ s.heap (result ▸ found)
          (by rw [sound.limits.1]; exact limited.1) (by rw [sound.limits.1]; exact limited.2)
          (by rw [sound.limits.1]; exact sound.within limited)
        have before := (sound.uses limited c).1
        rw [← heap,sound.limits.1,Int32.le_iff_toInt_le] at most
        rw [← heap] at more
        rw [if_pos found]
        change (s.served.count c : Int) ≤ (s.heap.clients c).times.toInt at before
        push_cast
        constructor <;> omega
      · rw [if_neg found,Nat.add_zero]
        exact ⟨few,within⟩
  · intro other
    rw [deques]
    split
    · rename_i same
      rw [same,(getLoop_exact s.pool.maxTimes error _ s.heap (dequeOf_held sound.held peer)).2]
      exact List.drop_sublist _ _
    · exact List.Sublist.refl _

/-- What the check leaves is younger than `check_time_`. -/
theorem checkClients_sound (sound : Sound maxTimes checkTime s) (error : Int → Nat → Bool) :
    Sound maxTimes checkTime (step s (.checkClients error)) := by
  let checked := checkClients s.clock error s.pool s.heap
  have ages : Ages s.heap checked.2 := checkEntries_ages _ _ _ _ _
  have entries := (checkEntries_exact s.pool.checkTime s.clock error
    s.pool.freeClients [] s.heap (by simpa using sound.held)).1
  have sub := (checkEntries_spec s.pool.checkTime s.clock error s.pool.freeClients s.heap).1
  have counts : Counts maxTimes s.heap checked.2 := checkEntries_counts _ _ _ _ _ _
  have shrunk := sound.shrink checked.1 checked.2 ages (fun _ => counts) ⟨rfl,rfl⟩ (checkClients_held s.clock error sound.held)
    (fun c member => sub.subset member) fun peer => by
      rw [checkClients_dequeOf s.clock error sound.held]
      exact kept_sublist _ _
  refine { shrunk with checked := Int.le_refl s.clock, young := ?_ }
  intro positive c member
  change c ∈ pooled (checkEntries s.pool.checkTime s.clock error s.pool.freeClients s.heap).1 at member
  rw [entries,pooled,List.mem_flatMap] at member
  obtain ⟨_,inside,here⟩ := member
  obtain ⟨entry,_,rfl⟩ := List.mem_map.mp inside
  have fresh := kept_fresh here
  have same : (checked.2.clients c).lastTouchTime = (s.clients c).lastTouchTime := ages.lastTouchTime c
  simp only [expired,State.heap,decide_eq_false_iff_not,sound.limits.2] at fresh
  change s.clock - (checked.2.clients c).lastTouchTime < checkTime
  omega

theorem close_sound (sound : Sound maxTimes checkTime s) (c : Nat) :
    Sound maxTimes checkTime (step s (.close c)) :=
  sound.shrink s.pool (close c s.heap) (close_ages c s.heap) (fun _ => close_counts maxTimes c s.heap) ⟨rfl,rfl⟩
    (close_held sound.held) (fun _ => id) fun _ => List.Sublist.refl _

theorem drop_sound (sound : Sound maxTimes checkTime s) (c : Nat) :
    Sound maxTimes checkTime (step s (.drop c)) := by
  simp only [step]
  split
  · rename_i other
    have one : Held (c :: pooled s.pool.freeClients) s.heap := by
      intro d
      have enough := sound.held d
      by_cases same : c = d
      · subst same
        rw [List.count_cons_self]
        exact other
      · rwa [List.count_cons_of_ne same]
    exact sound.shrink s.pool (release c s.heap) (release_ages c s.heap) (fun _ => release_counts maxTimes c s.heap)
      ⟨rfl,rfl⟩ (release_held one) (fun _ => id) fun _ => List.Sublist.refl _
  · exact sound

theorem pass_sound (sound : Sound maxTimes checkTime s) (seconds : Nat) :
    Sound maxTimes checkTime (step s (.pass seconds)) := by
  have later : s.clock ≤ s.clock + seconds := by omega
  exact { sound with
    touched := fun c => Int.le_trans (sound.touched c) later
    checked := Int.le_trans sound.checked later }

end Step

theorem step_sound (maxTimes : Int32) (checkTime : Int) (s : State) (a : Action) (sound : Sound maxTimes checkTime s) :
    Sound maxTimes checkTime (step s a) := by
  cases a with
  | create peer => exact create_sound sound peer
  | recollect client =>
    cases client with
    | none => exact sound
    | some c =>
      by_cases known : c < s.fresh
      · exact recollect_sound sound c known
      · rw [show step s (.recollect (some c)) = s from if_neg known]
        exact sound
  | getClient peer error => exact getClient_sound sound peer error
  | checkClients error => exact checkClients_sound sound error
  | close c => exact close_sound sound c
  | drop c => exact drop_sound sound c
  | pass seconds => exact pass_sound sound seconds

theorem run_sound (maxTimes : Int32) (checkTime now : Int) (schedule : List Action) :
    Sound maxTimes checkTime (execute step (initial maxTimes checkTime now) schedule) :=
  execute_invariant (step_sound maxTimes checkTime) (initial_sound maxTimes checkTime now) schedule

/-- `get_client` against the deque of its peer, in order of recollection. -/
structure Oldest (maxTimes : Int32) (s : State) (peer : Int) (error : Nat → Bool) : Prop where
  result : (getClient error peer s.pool s.heap).1 =
    (firstUsable maxTimes error (dequeOf peer s.pool) s.heap).bind ((dequeOf peer s.pool)[·]?)
  null : (getClient error peer s.pool s.heap).1 = none ↔
    ∀ i, usable maxTimes error (dequeOf peer s.pool) s.heap i = false
  left : dequeOf peer (getClient error peer s.pool s.heap).2.1 = (dequeOf peer s.pool).drop
    ((firstUsable maxTimes error (dequeOf peer s.pool) s.heap).elim (dequeOf peer s.pool).length (· + 1))
  others : ∀ other, other ≠ peer →
    dequeOf other (getClient error peer s.pool s.heap).2.1 = dequeOf other s.pool
  closed : ∀ i < (firstUsable maxTimes error (dequeOf peer s.pool) s.heap).getD (dequeOf peer s.pool).length,
    overused maxTimes (dequeOf peer s.pool) s.heap i = true →
    ∃ c, (dequeOf peer s.pool)[i]? = some c ∧ ((getClient error peer s.pool s.heap).2.2.clients c).isClosed = true

theorem Sound.oldest (sound : Sound maxTimes checkTime s) (peer : Int) (error : Nat → Bool) :
    Oldest maxTimes s peer error := by
  obtain ⟨result,heap,deques⟩ := getClient_eq error peer s.pool s.heap
  have held := dequeOf_held sound.held peer
  obtain ⟨first,rest⟩ := getLoop_exact s.pool.maxTimes error (dequeOf peer s.pool) s.heap held
  have exceeded := getLoop_overused s.pool.maxTimes error (dequeOf peer s.pool) s.heap held
  rw [← heap] at exceeded
  rw [sound.limits.1] at result first rest exceeded deques
  refine ⟨result.trans first,?_,?_,?_,exceeded⟩
  · rw [result,first]
    constructor
    · intro none i
      rw [Bool.eq_false_iff]
      intro may
      have inside : i < (dequeOf peer s.pool).length := by
        by_contra outside
        simp [usable,List.getElem?_eq_none (Nat.le_of_not_lt outside)] at may
      cases found : firstUsable maxTimes error (dequeOf peer s.pool) s.heap with
      | none => exact List.find?_eq_none.mp found i (List.mem_range.mpr inside) may
      | some j =>
        have bound := List.mem_range.mp (List.mem_of_find?_eq_some found)
        simp [found,bound] at none
    · intro none
      have found : firstUsable maxTimes error (dequeOf peer s.pool) s.heap = Option.none := by
        rw [firstUsable,List.find?_eq_none]
        intro i _
        simp [none i]
      rw [found]
      rfl
  · rw [deques,if_pos rfl,rest]
  · intro other apart
    rw [deques,if_neg apart]

/-- `recollect` is only given a client that is not in the pool. -/
def Apart (s : State) : Action → Prop
  | .recollect (some c) => c ∉ pooled s.pool.freeClients
  | _ => True

def Sorted (s : State) : Prop := ∀ peer, (dequeOf peer s.pool).Pairwise fun a b =>
  (s.clients a).lastTouchTime ≤ (s.clients b).lastTouchTime

theorem Sorted.shrink (sorted : Sorted s) (deques : ∀ peer, (dequeOf peer next.pool).Sublist (dequeOf peer s.pool))
    (touched : ∀ peer, ∀ c ∈ dequeOf peer s.pool, (next.clients c).lastTouchTime = (s.clients c).lastTouchTime) :
    Sorted next := by
  intro peer
  refine ((sorted peer).sublist (deques peer)).imp_of_mem ?_
  intro a b first second order
  rw [touched peer a ((deques peer).subset first),touched peer b ((deques peer).subset second)]
  exact order

theorem step_sorted (s : State) (a : Action) (apart : Apart s a) (sound : Sound maxTimes checkTime s)
    (sorted : Sorted s) : Sorted (step s a) := by
  cases a with
  | create peer =>
    refine sorted.shrink (fun _ => List.Sublist.refl _) ?_
    intro other c member
    have known := sound.known c (dequeOf_pooled _ _ member)
    simp [step,Function.update_of_ne (Nat.ne_of_lt known)]
  | recollect client =>
    cases client with
    | none => exact sorted
    | some c =>
      by_cases known : c < s.fresh
      · rw [show step s (.recollect (some c)) = { s with
          pool := (recollect s.clock (some c) s.pool s.heap).1
          clients := (recollect s.clock (some c) s.pool s.heap).2.clients
          collected := s.collected ++ [c] } from if_pos known]
        intro peer
        dsimp only
        have old (d : Nat) (member : d ∈ dequeOf peer s.pool) :
            ((recollect s.clock (some c) s.pool s.heap).2.clients d).lastTouchTime = (s.clients d).lastTouchTime := by
          have other : d ≠ c := by
            rintro rfl
            exact apart (dequeOf_pooled _ _ member)
          rw [recollect_clients]
          simp [other,State.heap]
        have before : (dequeOf peer s.pool).Pairwise fun a b =>
            ((recollect s.clock (some c) s.pool s.heap).2.clients a).lastTouchTime ≤
              ((recollect s.clock (some c) s.pool s.heap).2.clients b).lastTouchTime := by
          refine (sorted peer).imp_of_mem ?_
          intro a b first second order
          rw [old a first,old b second]
          exact order
        rw [recollect_dequeOf]
        split
        · refine List.pairwise_append.mpr ⟨before,List.pairwise_singleton _ _,?_⟩
          intro a first b last
          rw [List.mem_singleton.mp last,old a first,recollect_clients]
          simpa using sound.touched a
        · exact before
      · rw [show step s (.recollect (some c)) = s from if_neg known]
        exact sorted
  | getClient peer error =>
    obtain ⟨_,_,left,others,_⟩ := sound.oldest peer error
    refine sorted.shrink ?_ fun _ c _ => (getClient_ages error peer s.pool s.heap).lastTouchTime c
    intro other
    by_cases same : other = peer
    · subst same
      exact left ▸ List.drop_sublist _ _
    · exact (others other same).symm ▸ List.Sublist.refl _
  | checkClients error =>
    refine sorted.shrink ?_ fun _ c _ => (checkEntries_ages s.pool.checkTime s.clock error
      s.pool.freeClients s.heap).lastTouchTime c
    intro peer
    exact (checkClients_dequeOf s.clock error sound.held peer).symm ▸ kept_sublist _ _
  | close c => exact sorted.shrink (fun _ => List.Sublist.refl _) fun _ d _ => (close_ages c s.heap).lastTouchTime d
  | drop c =>
    simp only [step]
    split
    · exact sorted.shrink (fun _ => List.Sublist.refl _) fun _ d _ => (release_ages c s.heap).lastTouchTime d
    · exact sorted
  | pass seconds => exact sorted

/-- In every run that takes back no client twice: the deques are sorted by age, a check
leaves exactly what is younger than `check_time_`, open and healthy, and what it finds too
old it closes; and with the last check at most `gap` seconds ago, no client is returned
that has been idle for `check_time_ + gap`. -/
theorem idle_bounded (maxTimes : Int32) (checkTime now : Int) (schedule : List Action)
    (apart : Along step Apart (initial maxTimes checkTime now) schedule) :
    let s := execute step (initial maxTimes checkTime now) schedule
    Sorted s ∧
    (∀ error peer, dequeOf peer (checkClients s.clock error s.pool s.heap).1 =
        kept checkTime s.clock (error peer) (dequeOf peer s.pool) s.heap ∧
      ∀ c ∈ dequeOf peer s.pool, expired s.clock checkTime (s.clients c) = true →
        ((checkClients s.clock error s.pool s.heap).2.clients c).isClosed = true) ∧
    (0 < checkTime → ∀ gap, s.clock - s.lastCheck ≤ gap → ∀ error peer c,
      (getClient error peer s.pool s.heap).1 = some c →
        s.clock - (s.clients c).lastTouchTime < checkTime + gap) := by
  intro s
  have both : Sound maxTimes checkTime s ∧ Sorted s := by
    refine along_invariant (I := fun s => Sound maxTimes checkTime s ∧ Sorted s) ?_ ?_ schedule apart
    · exact fun s a apart both => ⟨step_sound maxTimes checkTime s a both.1,step_sorted s a apart both.1 both.2⟩
    · exact ⟨initial_sound maxTimes checkTime now,fun _ => List.Pairwise.nil⟩
  obtain ⟨sound,sorted⟩ := both
  refine ⟨sorted,?_,?_⟩
  · intro error peer
    rw [← sound.limits.2]
    refine ⟨checkClients_dequeOf s.clock error sound.held peer,?_⟩
    intro c member exceeded
    exact checkEntries_expired _ _ _ _ s.heap c (dequeOf_pooled _ _ member) exceeded
  · intro positive gap recent error peer c returned
    have young := sound.young positive c (dequeOf_pooled _ _ (getClient_mem error peer sound.held returned))
    omega

/-- A client that is returned 12 seconds after it was taken back, 4 after a check. -/
theorem idle_client_bounded :
    let s := execute step (initial 0 10 0)
      [.create 7,.recollect (some 0),.pass 8,.checkClients fun _ _ => false,.pass 4]
    (getClient (fun _ => false) 7 s.pool s.heap).1 = some 0 ∧ s.clock - (s.clients 0).lastTouchTime < 10 + 5 := by
  intro s
  have returned : (getClient (fun _ => false) 7 s.pool s.heap).1 = some 0 := by decide
  refine ⟨returned,?_⟩
  obtain ⟨_,_,bounded⟩ := idle_bounded 0 10 0
    [.create 7,.recollect (some 0),.pass 8,.checkClients fun _ _ => false,.pass 4]
    ⟨trivial,by simp [Apart,initial,step,pooled],trivial,trivial,trivial,trivial⟩
  exact bounded (by decide) 5 (by decide) (fun _ => false) 7 0 returned

end Zerver.TcpClientPool
