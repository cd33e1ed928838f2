import Mathlib.Data.List.Range
import Mathlib.Order.Basic
import Zerver.TcpClientPool

/-! What one call of the pool does, entry by entry. A client may be in a deque more than
once: each earlier entry has then counted one use more, and a client whose last reference
goes is closed, so every entry of a deque holds one. -/
namespace Zerver.TcpClientPool

open Zerver.Assoc

section Heap

variable (c d : Nat) (h : Heap)

theorem close_clients :
    (close c h).clients = Function.update h.clients c { h.clients c with isClosed := true } := by
  unfold close
  split
  · rename_i closed
    rw [← closed]
    exact (Function.update_eq_self c h.clients).symm
  · rfl

theorem release_clients :
    (release c h).clients = Function.update h.clients c { h.clients c with
      useCount := (h.clients c).useCount - 1
      isClosed := (h.clients c).isClosed || (h.clients c).useCount - 1 == 0 } := by
  simp only [release,Heap.modify,Function.update_self]
  by_cases last : (h.clients c).useCount - 1 = 0
  · rw [if_pos last,close_clients]
    simp [last]
  · rw [if_neg last,beq_eq_false_iff_ne.mpr last,Bool.or_false]

end Heap

/-- What no call of the pool changes in a client, and what it changes one way only. -/
structure Ages (h h' : Heap) : Prop where
  peerId : ∀ c, (h'.clients c).peerId = (h.clients c).peerId
  lastTouchTime : ∀ c, (h'.clients c).lastTouchTime = (h.clients c).lastTouchTime
  closed : ∀ c, (h.clients c).isClosed = true → (h'.clients c).isClosed = true

theorem Ages.refl (h : Heap) : Ages h h := ⟨fun _ => rfl,fun _ => rfl,fun _ => id⟩

theorem Ages.trans {h h' h'' : Heap} (first : Ages h h') (later : Ages h' h'') : Ages h h'' where
  peerId c := (later.peerId c).trans (first.peerId c)
  lastTouchTime c := (later.lastTouchTime c).trans (first.lastTouchTime c)
  closed c := later.closed c ∘ first.closed c

theorem Ages.of_update {h h' : Heap} {c : Nat} {client : TcpClient}
    (clients : h'.clients = Function.update h.clients c client) (peerId : client.peerId = (h.clients c).peerId)
    (lastTouchTime : client.lastTouchTime = (h.clients c).lastTouchTime)
    (closed : (h.clients c).isClosed = true → client.isClosed = true) : Ages h h' := by
  constructor <;> intro d <;> rw [clients] <;> by_cases same : d = c
  all_goals first | subst same; simpa | simp [Function.update_of_ne same]

/-- The clients that are open have been used no more than they may. -/
def Within (maxTimes : Int32) (h : Heap) : Prop :=
  ∀ c, 0 ≤ (h.clients c).times ∧ ((h.clients c).isClosed = false → (h.clients c).times ≤ maxTimes)

/-- Clients within the limit stay so, and no use is forgotten. -/
def Counts (maxTimes : Int32) (h h' : Heap) : Prop :=
  Within maxTimes h → Within maxTimes h' ∧ ∀ c, (h.clients c).times ≤ (h'.clients c).times

theorem Counts.refl (maxTimes : Int32) (h : Heap) : Counts maxTimes h h :=
  fun within => ⟨within,fun _ => Int32.le_refl _⟩

theorem Counts.trans {h h' h'' : Heap} (first : Counts maxTimes h h') (later : Counts maxTimes h' h'') :
    Counts maxTimes h h'' := by
  intro within
  obtain ⟨between,more⟩ := first within
  obtain ⟨after,most⟩ := later between
  exact ⟨after,fun c => Int32.le_trans (more c) (most c)⟩

theorem Counts.of_update {h h' : Heap} {c : Nat} {client : TcpClient}
    (clients : h'.clients = Function.update h.clients c client)
    (fits : ((h.clients c).isClosed = false → (h.clients c).times ≤ maxTimes) →
      (client.isClosed = false → client.times ≤ maxTimes) ∧ (h.clients c).times ≤ client.times) :
    Counts maxTimes h h' := by
  intro within
  obtain ⟨after,more⟩ := fits (within c).2
  constructor <;> intro d <;> rw [clients] <;> by_cases same : d = c
  · subst same
    rw [Function.update_self]
    exact ⟨Int32.le_trans (within d).1 more,after⟩
  · rw [Function.update_of_ne same]
    exact within d
  · subst same
    rwa [Function.update_self]
  · rw [Function.update_of_ne same]
    exact Int32.le_refl _

/-- No `int` overflows below the largest one. -/
theorem toInt_succ {times : Int32} (small : times < Int32.maxValue) : (times + 1).toInt = times.toInt + 1 := by
  have most : Int32.maxValue.toInt = 2147483647 := by decide
  have below := Int32.lt_iff_toInt_lt.mp small
  have least := Int32.le_toInt times
  rw [Int32.toInt_add,Int32.toInt_one,Int.bmod_eq_of_le] <;> omega

/-- Every entry holds a reference. -/
def Held (entries : List Nat) (h : Heap) : Prop := ∀ c, entries.count c ≤ (h.clients c).useCount

section GetClient

variable (maxTimes : Int32) (error : Nat → Bool) (c : Nat) (rest deque : List Nat) (h : Heap)

/-- Open, and within its uses through `earlier` more of them and one. -/
def fit (earlier : Nat) (client : TcpClient) : Bool :=
  !client.isClosed && (decide (maxTimes ≤ 0) ||
    decide (∀ k ≤ earlier, client.times + Int32.ofNat k + 1 ≤ maxTimes))

/-- The i-th entry of a deque may be returned. -/
def usable (i : Nat) : Bool :=
  match deque[i]? with
  | none => false
  | some c => fit maxTimes ((deque.take i).count c) (h.clients c) && !error i

/-- Open, and over the limit after `earlier` more uses and one. -/
def beyond (earlier : Nat) (client : TcpClient) : Bool :=
  !client.isClosed && decide (0 < maxTimes) && decide (maxTimes < client.times + Int32.ofNat earlier + 1)

/-- The i-th entry of a deque is over the limit. -/
def overused (i : Nat) : Bool :=
  match deque[i]? with
  | none => false
  | some c => beyond maxTimes ((deque.take i).count c) (h.clients c)

def firstUsable : Option Nat := (List.range deque.length).find? (usable maxTimes error deque h)

/-- What becomes of a client that is passed over. -/
def passed (client : TcpClient) : TcpClient :=
  { client with
    times := client.times + if !client.isClosed && decide (0 < maxTimes) then 1 else 0
    useCount := client.useCount - 1
    isClosed := client.isClosed || beyond maxTimes 0 client || client.useCount - 1 == 0 }

def skip : Heap :=
  if (h.clients c).isClosed then release c h
  else if 0 < maxTimes then
    let h := increaseTimes c h
    if maxTimes < (h.clients c).times then release c (close c h) else release c h
  else release c h

theorem fit_zero (client : TcpClient) :
    fit maxTimes 0 client = (!client.isClosed && (decide (maxTimes ≤ 0) || decide (client.times + 1 ≤ maxTimes))) := by
  simp [fit]

theorem getLoop_cons : getLoop maxTimes error (c :: rest) h =
    if fit maxTimes 0 (h.clients c) && !error 0 then
      (some c,rest,if 0 < maxTimes then increaseTimes c h else h)
    else getLoop maxTimes (fun i => error (i + 1)) rest (skip maxTimes c h) := by
  have times : ((increaseTimes c h).clients c).times = (h.clients c).times + 1 := by
    simp [increaseTimes,Heap.modify]
  rw [fit_zero]
  cases closed : (h.clients c).isClosed with
  | true => simp [getLoop,skip,closed]
  | false =>
    by_cases limited : 0 < maxTimes
    · have some : ¬ maxTimes ≤ 0 := Int32.not_le.mpr limited
      by_cases exceeded : maxTimes < (h.clients c).times + 1
      · have beyond : ¬ (h.clients c).times + 1 ≤ maxTimes := Int32.not_le.mpr exceeded
        simp [getLoop,skip,closed,limited,some,times,exceeded,beyond]
      · have within : (h.clients c).times + 1 ≤ maxTimes := Int32.not_lt.mp exceeded
        cases bad : error 0 <;> simp [getLoop,skip,closed,limited,times,exceeded,bad,within]
    · have none : maxTimes ≤ 0 := Int32.not_lt.mp limited
      cases bad : error 0 <;> simp [getLoop,skip,closed,limited,bad,none]

theorem skip_clients : (skip maxTimes c h).clients =
    Function.update h.clients c (passed maxTimes (h.clients c)) := by
  have times : ((increaseTimes c h).clients c).times = (h.clients c).times + 1 := by
    simp [increaseTimes,Heap.modify]
  cases closed : (h.clients c).isClosed with
  | true => simp [skip,passed,beyond,closed,release_clients]
  | false =>
    by_cases limited : 0 < maxTimes
    · by_cases exceeded : maxTimes < (h.clients c).times + 1
      · simp [skip,passed,beyond,closed,limited,exceeded,release_clients,close_clients,increaseTimes,Heap.modify]
      · simp [skip,passed,beyond,closed,limited,exceeded,release_clients,increaseTimes,Heap.modify]
    · simp [skip,passed,beyond,closed,limited,release_clients]

theorem times_succ (times : Int32) (earlier : Nat) :
    times + 1 + Int32.ofNat earlier + 1 = times + Int32.ofNat (earlier + 1) + 1 := by
  rw [Int32.ofNat_add earlier 1]
  grind

/-- A client that is passed over and has another entry has one use more. -/
theorem fit_passed (client : TcpClient) (earlier : Nat) (shared : 1 < client.useCount) :
    fit maxTimes earlier (passed maxTimes client) = fit maxTimes (earlier + 1) client := by
  have alive : (client.useCount - 1 == 0) = false := beq_eq_false_iff_ne.mpr (by omega)
  have uses : (∀ k ≤ earlier + 1, client.times + Int32.ofNat k + 1 ≤ maxTimes) ↔
      client.times + 1 ≤ maxTimes ∧ ∀ k ≤ earlier, client.times + 1 + Int32.ofNat k + 1 ≤ maxTimes := by
    simp only [times_succ]
    constructor
    · intro each
      exact ⟨by simpa using each 0 (Nat.zero_le _),fun k bound => each (k + 1) (Nat.succ_le_succ bound)⟩
    · rintro ⟨first,later⟩ k bound
      cases k with
      | zero => simpa using first
      | succ k => exact later k (Nat.le_of_succ_le_succ bound)
  cases closed : client.isClosed with
  | true => simp [fit,passed,closed]
  | false =>
    by_cases limited : 0 < maxTimes
    · have some : ¬ maxTimes ≤ 0 := Int32.not_le.mpr limited
      by_cases exceeded : maxTimes < client.times + 1
      · have far : ¬ client.times + 1 ≤ maxTimes := Int32.not_le.mpr exceeded
        simp [fit,passed,beyond,closed,limited,some,exceeded,uses,far]
      · have first : client.times + 1 ≤ maxTimes := Int32.not_lt.mp exceeded
        simp [fit,passed,beyond,closed,alive,limited,some,exceeded,uses,first]
    · have none : maxTimes ≤ 0 := Int32.not_lt.mp limited
      simp [fit,passed,beyond,closed,alive,limited,none]

theorem beyond_passed (client : TcpClient) (earlier : Nat)
    (exceeded : beyond maxTimes (earlier + 1) client = true) :
    beyond maxTimes earlier (passed maxTimes client) = true ∨ (passed maxTimes client).isClosed = true := by
  simp only [beyond,Bool.and_eq_true,Bool.not_eq_true',decide_eq_true_eq] at exceeded
  obtain ⟨⟨closed,limited⟩,exceeded⟩ := exceeded
  cases shut : (passed maxTimes client).isClosed with
  | true => exact .inr rfl
  | false =>
    refine .inl ?_
    have more : (passed maxTimes client).times = client.times + 1 := by
      simp [passed,closed,limited]
    simp only [beyond,shut,limited,more,times_succ,Bool.not_false,decide_true,Bool.true_and,decide_eq_true_eq]
    exact exceeded

variable {maxTimes error c rest deque h}

theorem Held.cons_pos (held : Held (c :: rest) h) : rest.count c + 1 ≤ (h.clients c).useCount := by
  have enough := held c
  rwa [List.count_cons_self] at enough

theorem Held.perm (held : Held entries h) (same : entries.Perm other) : Held other h := fun c =>
  same.count_eq c ▸ held c

theorem Held.sub (held : Held entries h) (sub : other.Sublist entries) : Held other h := fun c =>
  (sub.count_le c).trans (held c)

/-- An entry that is dropped gives up its reference; the other entries keep theirs. -/
theorem Held.drop (held : Held (c :: rest) h) (clients : h'.clients = Function.update h.clients c client)
    (useCount : client.useCount = (h.clients c).useCount - 1) : Held rest h' := by
  intro d
  rw [clients]
  by_cases same : d = c
  · subst same
    rw [Function.update_self,useCount]
    have enough := held.cons_pos
    omega
  · rw [Function.update_of_ne same]
    exact (List.count_le_count_cons).trans (held d)

/-- Passing over the first entry leaves the i-th of the others as it was. -/
theorem usable_skip (held : Held (c :: rest) h) (i : Nat) :
    usable maxTimes error (c :: rest) h (i + 1) =
      usable maxTimes (fun i => error (i + 1)) rest (skip maxTimes c h) i := by
  simp only [usable,List.getElem?_cons_succ,List.take_succ_cons,skip_clients]
  cases entry : rest[i]? with
  | none => rfl
  | some d =>
    dsimp only
    by_cases same : d = c
    · subst same
      have inside : 0 < rest.count d := List.count_pos_iff.mpr (List.mem_of_getElem? entry)
      have enough := held.cons_pos
      rw [Function.update_self,List.count_cons_self,fit_passed maxTimes _ _ (by omega)]
    · rw [Function.update_of_ne same,List.count_cons_of_ne (Ne.symm same)]

theorem overused_skip (held : Held (c :: rest) h) (i : Nat)
    (exceeded : overused maxTimes (c :: rest) h (i + 1) = true) :
    overused maxTimes rest (skip maxTimes c h) i = true ∨
      ∃ d, rest[i]? = some d ∧ ((skip maxTimes c h).clients d).isClosed = true := by
  simp only [overused,List.getElem?_cons_succ,List.take_succ_cons,skip_clients] at exceeded ⊢
  cases entry : rest[i]? with
  | none => simp [entry] at exceeded
  | some d =>
    simp only [entry] at exceeded ⊢
    by_cases same : d = c
    · subst same
      rw [List.count_cons_self] at exceeded
      rw [Function.update_self]
      rcases beyond_passed maxTimes _ _ exceeded with still | closed
      · exact .inl still
      · exact .inr ⟨d,rfl,by rwa [Function.update_self]⟩
    · rw [List.count_cons_of_ne (Ne.symm same)] at exceeded
      rw [Function.update_of_ne same]
      exact .inl exceeded

theorem firstUsable_cons (held : Held (c :: rest) h) : firstUsable maxTimes error (c :: rest) h =
    if fit maxTimes 0 (h.clients c) && !error 0 then some 0
    else (firstUsable maxTimes (fun i => error (i + 1)) rest (skip maxTimes c h)).map (· + 1) := by
  have first : usable maxTimes error (c :: rest) h 0 = (fit maxTimes 0 (h.clients c) && !error 0) := by
    simp [usable]
  have shifted : usable maxTimes error (c :: rest) h ∘ Nat.succ =
      usable maxTimes (fun i => error (i + 1)) rest (skip maxTimes c h) := funext fun i => usable_skip held i
  rw [firstUsable,List.length_cons,List.range_succ_eq_map,List.find?_cons,first,List.find?_map,shifted]
  cases fit maxTimes 0 (h.clients c) && !error 0 <;> rfl

theorem skip_ages (maxTimes : Int32) (c : Nat) (h : Heap) : Ages h (skip maxTimes c h) := by
  refine .of_update (skip_clients maxTimes c h) rfl rfl ?_
  intro closed
  simp [passed,closed]

theorem le_succ_times (small : maxTimes < Int32.maxValue) {client : TcpClient}
    (within : client.isClosed = false → client.times ≤ maxTimes) (opened : client.isClosed = false) :
    client.times ≤ client.times + 1 := by
  rw [Int32.le_iff_toInt_le,toInt_succ (Int32.lt_of_le_of_lt (within opened) small)]
  omega

theorem skip_counts (maxTimes : Int32) (small : maxTimes < Int32.maxValue) (c : Nat) (h : Heap) :
    Counts maxTimes h (skip maxTimes c h) := by
  refine .of_update (skip_clients maxTimes c h) fun within => ?_
  cases closed : (h.clients c).isClosed with
  | true => exact ⟨by simp [passed,closed],by simp [passed,closed]⟩
  | false =>
    by_cases limited : 0 < maxTimes
    · refine ⟨fun stays => ?_,?_⟩
      · have unexceeded : beyond maxTimes 0 (h.clients c) = false := by
          simp only [passed,Bool.or_eq_false_iff] at stays
          exact stays.1.2
        simpa [passed,beyond,closed,limited] using unexceeded
      · simpa [passed,closed,limited] using le_succ_times small within closed
    · simpa [passed,beyond,closed,limited] using fun _ => within closed

/-- The loop stops at the first entry that may be returned. -/
theorem getLoop_exact (maxTimes : Int32) (error : Nat → Bool) (deque : List Nat) (h : Heap) (held : Held deque h) :
    (getLoop maxTimes error deque h).1 = (firstUsable maxTimes error deque h).bind (deque[·]?) ∧
    (getLoop maxTimes error deque h).2.1 =
      deque.drop ((firstUsable maxTimes error deque h).elim deque.length (· + 1)) := by
  induction deque generalizing error h with
  | nil => exact ⟨rfl,rfl⟩
  | cons c rest ih =>
    rw [getLoop_cons,firstUsable_cons held]
    split
    · exact ⟨rfl,rfl⟩
    · obtain ⟨result,left⟩ := ih (fun i => error (i + 1)) (skip maxTimes c h)
        (held.drop (skip_clients maxTimes c h) rfl)
      rw [result,left]
      cases firstUsable maxTimes (fun i => error (i + 1)) rest (skip maxTimes c h) <;> exact ⟨rfl,rfl⟩

theorem getLoop_ages (maxTimes : Int32) (error : Nat → Bool) (deque : List Nat) (h : Heap) :
    Ages h (getLoop maxTimes error deque h).2.2 := by
  induction deque generalizing error h with
  | nil => exact .refl h
  | cons c rest ih =>
    rw [getLoop_cons]
    split
    · split
      · exact .of_update (c := c) rfl rfl rfl id
      · exact .refl h
    · exact (skip_ages maxTimes c h).trans (ih _ _)

theorem getLoop_counts (maxTimes : Int32) (small : maxTimes < Int32.maxValue) (error : Nat → Bool)
    (deque : List Nat) (h : Heap) : Counts maxTimes h (getLoop maxTimes error deque h).2.2 := by
  induction deque generalizing error h with
  | nil => exact .refl maxTimes h
  | cons c rest ih =>
    rw [getLoop_cons]
    split
    · rename_i stops
      split
      · rename_i limited
        rw [fit_zero] at stops
        simp only [Int32.not_le.mpr limited,decide_false,Bool.false_or,Bool.and_eq_true,Bool.not_eq_true',
          decide_eq_true_eq] at stops
        refine .of_update (c := c) rfl fun within => ⟨fun _ => stops.1.2,le_succ_times small within stops.1.1⟩
      · exact .refl maxTimes h
    · exact (skip_counts maxTimes small c h).trans (ih _ _)

/-- Every entry passed over that is over the limit has been closed. -/
theorem getLoop_overused (maxTimes : Int32) (error : Nat → Bool) (deque : List Nat) (h : Heap)
    (held : Held deque h) (j : Nat) (before : j < (firstUsable maxTimes error deque h).getD deque.length)
    (exceeded : overused maxTimes deque h j = true) :
    ∃ c, deque[j]? = some c ∧ ((getLoop maxTimes error deque h).2.2.clients c).isClosed = true := by
  induction deque generalizing error h j with
  | nil => simp [overused] at exceeded
  | cons c rest ih =>
    rw [getLoop_cons]
    rw [firstUsable_cons held] at before
    split at before
    · simp at before
    · rename_i passes
      rw [if_neg passes]
      have ages := getLoop_ages maxTimes (fun i => error (i + 1)) rest (skip maxTimes c h)
      cases j with
      | zero =>
        refine ⟨c,rfl,ages.closed c ?_⟩
        have exceeded : beyond maxTimes 0 (h.clients c) = true := by simpa [overused] using exceeded
        rw [skip_clients,Function.update_self]
        simp [passed,exceeded]
      | succ j =>
        have inside : j < (firstUsable maxTimes (fun i => error (i + 1)) rest (skip maxTimes c h)).getD rest.length := by
          revert before
          cases firstUsable maxTimes (fun i => error (i + 1)) rest (skip maxTimes c h) <;> simp
        rcases overused_skip held j exceeded with still | ⟨d,entry,closed⟩
        · exact ih (fun i => error (i + 1)) _ (held.drop (skip_clients maxTimes c h) rfl) j inside still
        · exact ⟨d,entry,ages.closed d closed⟩

theorem getLoop_returned (maxTimes : Int32) (error : Nat → Bool) (deque : List Nat) (h : Heap)
    (returned : (getLoop maxTimes error deque h).1 = some c) (limited : 0 < maxTimes)
    (small : maxTimes < Int32.maxValue) (within : Within maxTimes h) :
    (h.clients c).times.toInt + 1 ≤ ((getLoop maxTimes error deque h).2.2.clients c).times.toInt ∧
      ((getLoop maxTimes error deque h).2.2.clients c).times ≤ maxTimes := by
  induction deque generalizing error h with
  | nil => simp [getLoop] at returned
  | cons d rest ih =>
    rw [getLoop_cons] at returned ⊢
    split
    · rename_i stops
      rw [if_pos stops] at returned
      obtain rfl := Option.some.inj returned
      rw [fit_zero] at stops
      simp only [Int32.not_le.mpr limited,decide_false,Bool.false_or,Bool.and_eq_true,Bool.not_eq_true',
        decide_eq_true_eq] at stops
      have more := toInt_succ (Int32.lt_of_le_of_lt ((within d).2 stops.1.1) small)
      simpa [limited,increaseTimes,Heap.modify,more] using stops.1.2
    · rename_i passes
      rw [if_neg passes] at returned
      obtain ⟨after,older⟩ := skip_counts maxTimes small d h within
      obtain ⟨more,most⟩ := ih _ _ returned after
      have older := Int32.le_iff_toInt_le.mp (older c)
      exact ⟨by omega,most⟩

theorem getLoop_held (maxTimes : Int32) (error : Nat → Bool) (deque later : List Nat) (h : Heap)
    (held : Held (deque ++ later) h) :
    Held ((getLoop maxTimes error deque h).1.toList ++ ((getLoop maxTimes error deque h).2.1 ++ later))
      (getLoop maxTimes error deque h).2.2 := by
  induction deque generalizing error h with
  | nil => exact held
  | cons c rest ih =>
    rw [getLoop_cons]
    split
    · intro d
      have enough := held d
      split
      · by_cases same : d = c
        · subst same
          simpa [increaseTimes,Heap.modify] using enough
        · simpa [increaseTimes,Heap.modify,Function.update_of_ne same] using enough
      · exact enough
    · exact ih _ _ (held.drop (skip_clients maxTimes c h) rfl)

end GetClient

section CheckClients

variable (checkTime now : Int) (error : Nat → Bool)

/-- What `check_clients` leaves of a deque, entry by entry. -/
def keeps (h : Heap) (entry : Nat × Nat) : Bool :=
  !expired now checkTime (h.clients entry.1) && !(h.clients entry.1).isClosed && !error entry.2

def kept (deque : List Nat) (h : Heap) : List Nat :=
  (deque.zipIdx.filter (keeps checkTime now error h)).map Prod.fst

/-- No client that is not expired is closed. -/
def Spares (entries : List Nat) (h h' : Heap) : Prop := ∀ c ∈ entries,
  expired now checkTime (h.clients c) = false → (h'.clients c).isClosed = (h.clients c).isClosed

variable {checkTime now error}

theorem Ages.expired_eq (ages : Ages h h') (c : Nat) :
    expired now checkTime (h'.clients c) = expired now checkTime (h.clients c) := by
  rw [expired,expired,ages.lastTouchTime c]

theorem kept_cons (c : Nat) (rest : List Nat) (h : Heap) : kept checkTime now error (c :: rest) h =
    (if keeps checkTime now error h (c,0) then [c] else []) ++ kept checkTime now (fun i => error (i + 1)) rest h := by
  have shifted : (rest.zipIdx 1).filter (keeps checkTime now error h) =
      ((rest.zipIdx 0).filter (keeps checkTime now (fun i => error (i + 1)) h)).map fun entry => (entry.1,entry.2 + 1) := by
    rw [← Nat.zero_add 1,List.zipIdx_succ,List.filter_map]
    rfl
  rw [kept,kept,List.zipIdx_cons,List.filter_cons,shifted]
  split <;> simp [Function.comp_def]

theorem kept_congr (ages : Ages h h') (spares : Spares checkTime now deque h h') :
    kept checkTime now error deque h' = kept checkTime now error deque h := by
  unfold kept
  congr 1
  apply List.filter_congr
  intro entry member
  have here : entry.1 ∈ deque := by
    obtain ⟨i,_,rfl⟩ := List.mem_iff_getElem.mp member
    simp
  cases old : expired now checkTime (h.clients entry.1) with
  | true => simp [keeps,ages.expired_eq,old]
  | false => simp [keeps,ages.expired_eq,old,spares entry.1 here old]

theorem Spares.trans {entries left : List Nat} (ages : Ages h h') (first : Spares checkTime now entries h h')
    (later : Spares checkTime now left h' h'') (sub : ∀ c ∈ left, c ∈ entries) :
    Spares checkTime now left h h'' := by
  intro c member fresh
  rw [later c member (by rw [ages.expired_eq,fresh]),first c (sub c member) fresh]

theorem release_ages (c : Nat) (h : Heap) : Ages h (release c h) := by
  refine .of_update (release_clients c h) rfl rfl ?_
  intro closed
  simp [closed]

theorem close_ages (c : Nat) (h : Heap) : Ages h (close c h) :=
  .of_update (close_clients c h) rfl rfl fun _ => rfl

theorem release_counts (maxTimes : Int32) (c : Nat) (h : Heap) : Counts maxTimes h (release c h) := by
  refine .of_update (release_clients c h) fun within => ⟨fun stays => within ?_,Int32.le_refl _⟩
  exact (Bool.or_eq_false_iff.mp stays).1

theorem close_counts (maxTimes : Int32) (c : Nat) (h : Heap) : Counts maxTimes h (close c h) :=
  .of_update (close_clients c h) fun _ => ⟨by simp,Int32.le_refl _⟩

/-- The last reference to a client does not go while it has another entry. -/
theorem release_spares (held : Held (c :: entries) h) : Spares checkTime now entries h (release c h) := by
  intro d member _
  rw [release_clients]
  by_cases same : d = c
  · subst same
    have inside : 0 < entries.count d := List.count_pos_iff.mpr member
    have enough := held.cons_pos
    have alive : ((h.clients d).useCount - 1 == 0) = false := beq_eq_false_iff_ne.mpr (by omega)
    rw [Function.update_self,alive,Bool.or_false]
  · rw [Function.update_of_ne same]

theorem close_spares (exceeded : expired now checkTime (h.clients c) = true) :
    Spares checkTime now entries h (close c h) := by
  intro d _ fresh
  have apart : d ≠ c := by
    rintro rfl
    simp [exceeded] at fresh
  rw [close_clients,Function.update_of_ne apart]

theorem close_held (held : Held entries h) : Held entries (close c h) := by
  intro d
  rw [close_clients]
  by_cases same : d = c
  · subst same
    simpa using held d
  · rw [Function.update_of_ne same]
    exact held d

theorem release_held (held : Held (c :: entries) h) : Held entries (release c h) :=
  held.drop (release_clients c h) rfl

theorem kept_sublist (deque : List Nat) (h : Heap) :
    (kept checkTime now error deque h).Sublist deque := by
  have sub := (List.filter_sublist (l := deque.zipIdx) (p := keeps checkTime now error h)).map Prod.fst
  rwa [List.zipIdx_map_fst] at sub

theorem kept_fresh (member : c ∈ kept checkTime now error deque h) :
    expired now checkTime (h.clients c) = false := by
  obtain ⟨entry,inside,rfl⟩ := List.mem_map.mp member
  have keep := (List.mem_filter.mp inside).2
  simp only [keeps,Bool.and_eq_true,Bool.not_eq_true'] at keep
  exact keep.1.1

variable (checkTime now error)

theorem sweep_ages (deque : List Nat) (h : Heap) : Ages h (sweep checkTime now error deque h).2 := by
  induction deque generalizing error h with
  | nil => exact .refl h
  | cons c rest ih =>
    simp only [sweep]
    split
    · exact ((close_ages c h).trans (release_ages c _)).trans (ih _ _)
    · split
      · exact (release_ages c h).trans (ih _ _)
      · exact ih _ h

theorem sweep_counts (maxTimes : Int32) (deque : List Nat) (h : Heap) :
    Counts maxTimes h (sweep checkTime now error deque h).2 := by
  induction deque generalizing error h with
  | nil => exact .refl maxTimes h
  | cons c rest ih =>
    simp only [sweep]
    split
    · exact ((close_counts maxTimes c h).trans (release_counts maxTimes c _)).trans (ih _ _)
    · split
      · exact (release_counts maxTimes c h).trans (ih _ _)
      · exact ih _ h

theorem sweep_expired (deque : List Nat) (h : Heap) (c : Nat) (member : c ∈ deque)
    (exceeded : expired now checkTime (h.clients c) = true) :
    ((sweep checkTime now error deque h).2.clients c).isClosed = true := by
  induction deque generalizing error h with
  | nil => simp at member
  | cons d rest ih =>
    simp only [sweep]
    split
    · have ages := (close_ages d h).trans (release_ages d _)
      rcases List.mem_cons.mp member with rfl | later
      · refine (sweep_ages checkTime now _ rest _).closed c ((release_ages c _).closed c ?_)
        rw [close_clients,Function.update_self]
      · exact ih _ _ later (by rw [ages.expired_eq,exceeded])
    · rename_i fresh
      have later : c ∈ rest := by
        rcases List.mem_cons.mp member with rfl | later
        · exact absurd exceeded fresh
        · exact later
      split
      · exact ih _ _ later (by rw [(release_ages d h).expired_eq,exceeded])
      · exact ih _ _ later exceeded

/-- The inner loop of `check_clients` is a filter. What it drops spares the entries that
are left here and the `later` ones of other deques. -/
theorem sweep_exact (deque later : List Nat) (h : Heap) (held : Held (deque ++ later) h) :
    (sweep checkTime now error deque h).1 = kept checkTime now error deque h ∧
    Spares checkTime now (kept checkTime now error deque h ++ later) h (sweep checkTime now error deque h).2 ∧
    Held (kept checkTime now error deque h ++ later) (sweep checkTime now error deque h).2 := by
  induction deque generalizing error h later with
  | nil => exact ⟨rfl,fun _ _ _ => rfl,held⟩
  | cons c rest ih =>
    -- The entry is dropped, and the loop goes on from `h'`.
    have dropped (h' : Heap) (drops : keeps checkTime now error h (c,0) = false) (ages : Ages h h')
        (spares : Spares checkTime now (rest ++ later) h h') (held' : Held (rest ++ later) h') :
        (sweep checkTime now (fun i => error (i + 1)) rest h').1 = kept checkTime now error (c :: rest) h ∧
        Spares checkTime now (kept checkTime now error (c :: rest) h ++ later) h
          (sweep checkTime now (fun i => error (i + 1)) rest h').2 ∧
        Held (kept checkTime now error (c :: rest) h ++ later)
          (sweep checkTime now (fun i => error (i + 1)) rest h').2 := by
      obtain ⟨result,spared,left⟩ := ih _ later h' held'
      have same : kept checkTime now (fun i => error (i + 1)) rest h' =
          kept checkTime now (fun i => error (i + 1)) rest h :=
        kept_congr ages fun d member => spares d (List.mem_append_left _ member)
      have unchanged : kept checkTime now error (c :: rest) h =
          kept checkTime now (fun i => error (i + 1)) rest h' := by
        rw [kept_cons,drops,same]
        rfl
      rw [unchanged]
      refine ⟨result,spares.trans ages spared ?_,left⟩
      intro d member
      rcases List.mem_append.mp member with here | other
      · obtain ⟨entry,inside,rfl⟩ := List.mem_map.mp here
        obtain ⟨i,_,rfl⟩ := List.mem_iff_getElem.mp (List.mem_filter.mp inside).1
        simp
      · exact List.mem_append_right _ other
    simp only [sweep]
    split
    · rename_i exceeded
      refine dropped _ (by simp [keeps,exceeded]) ((close_ages c h).trans (release_ages c _)) ?_ ?_
      · have closing : Spares checkTime now (rest ++ later) h (close c h) := close_spares exceeded
        exact closing.trans (close_ages c h) (release_spares (close_held held)) fun _ => id
      · exact release_held (close_held held)
    · split
      · rename_i exceeded bad
        refine dropped _ ?_ (release_ages c h) (release_spares held) (release_held held)
        rcases (Bool.or_eq_true _ _).mp bad with shut | shut <;> simp [keeps,shut]
      · rename_i exceeded good
        simp only [Bool.or_eq_true,not_or,Bool.not_eq_true] at exceeded good
        have keep : keeps checkTime now error h (c,0) = true := by
          simp [keeps,exceeded,good.1,good.2]
        obtain ⟨result,spared,left⟩ := ih _ (c :: later) h (held.perm List.perm_middle.symm)
        rw [kept_cons,keep]
        refine ⟨?_,?_,left.perm List.perm_middle⟩
        · rw [result]
          rfl
        · intro d member
          exact spared d (List.perm_middle.symm.mem_iff.mp member)

variable (error : Int → Nat → Bool)

theorem checkEntries_ages (entries : List (Int × List Nat)) (h : Heap) :
    Ages h (checkEntries checkTime now error entries h).2 := by
  induction entries generalizing h with
  | nil => exact .refl h
  | cons entry rest ih => exact (sweep_ages checkTime now _ entry.2 h).trans (ih _)

theorem checkEntries_counts (maxTimes : Int32) (entries : List (Int × List Nat)) (h : Heap) :
    Counts maxTimes h (checkEntries checkTime now error entries h).2 := by
  induction entries generalizing h with
  | nil => exact .refl maxTimes h
  | cons entry rest ih => exact (sweep_counts checkTime now _ maxTimes entry.2 h).trans (ih _)

theorem checkEntries_expired (entries : List (Int × List Nat)) (h : Heap) (c : Nat) (member : c ∈ pooled entries)
    (exceeded : expired now checkTime (h.clients c) = true) :
    ((checkEntries checkTime now error entries h).2.clients c).isClosed = true := by
  induction entries generalizing h with
  | nil => simp [pooled] at member
  | cons entry rest ih =>
    have ages := sweep_ages checkTime now (error entry.1) entry.2 h
    rcases List.mem_append.mp member with here | later
    · exact (checkEntries_ages checkTime now error rest _).closed c (sweep_expired checkTime now _ entry.2 h c here exceeded)
    · exact ih _ later (by rw [ages.expired_eq,exceeded])

/-- `check_clients` filters every deque by the state of the clients before the call. -/
theorem checkEntries_exact (entries : List (Int × List Nat)) (done : List Nat) (h : Heap)
    (held : Held (pooled entries ++ done) h) :
    (checkEntries checkTime now error entries h).1 =
      entries.map (fun entry => (entry.1,kept checkTime now (error entry.1) entry.2 h)) ∧
    Held (pooled (checkEntries checkTime now error entries h).1 ++ done)
      (checkEntries checkTime now error entries h).2 := by
  induction entries generalizing h done with
  | nil => exact ⟨rfl,held⟩
  | cons entry rest ih =>
    obtain ⟨peer,deque⟩ := entry
    rw [pooled,List.flatMap_cons,List.append_assoc] at held
    obtain ⟨result,spared,left⟩ := sweep_exact checkTime now (error peer) deque (pooled rest ++ done) h held
    have ages := sweep_ages checkTime now (error peer) deque h
    obtain ⟨results,lefts⟩ := ih (kept checkTime now (error peer) deque h ++ done)
      (sweep checkTime now (error peer) deque h).2 (left.perm (List.perm_append_comm_assoc _ _ _))
    have same : rest.map (fun entry => (entry.1,kept checkTime now (error entry.1) entry.2
        (sweep checkTime now (error peer) deque h).2)) =
        rest.map (fun entry => (entry.1,kept checkTime now (error entry.1) entry.2 h)) := by
      apply List.map_congr_left
      intro entry member
      rw [kept_congr ages]
      intro c here
      exact spared c (List.mem_append_right _ (List.mem_append_left _ (List.mem_flatMap.mpr ⟨entry,member,here⟩)))
    simp only [checkEntries,List.map_cons]
    rw [result]
    refine ⟨by rw [results,same],?_⟩
    rw [pooled,List.flatMap_cons,List.append_assoc]
    exact lefts.perm (List.perm_append_comm_assoc _ _ _)

end CheckClients

/-- `free_clients_[peer]`; a peer without an entry has no free clients. -/
def dequeOf (peer : Int) (pool : Pool) : List Nat := (pool.freeClients.lookup peer).getD []

section Pool

variable {pool : Pool} {h : Heap}

theorem lookup_assign (entries : List (Int × List Nat)) (peer other : Int) (deque : List Nat) :
    (assign peer deque entries).lookup other = if peer = other then some deque else entries.lookup other := by
  induction entries with
  | nil => exact lookup_cons_eq peer other deque []
  | cons entry rest ih =>
    obtain ⟨key,q⟩ := entry
    unfold assign
    by_cases found : key = peer
    · subst found
      rw [if_pos rfl,lookup_cons_eq,lookup_cons_eq]
      split <;> rfl
    · rw [if_neg found,lookup_cons_eq,lookup_cons_eq,ih]
      by_cases same : key = other
      · subst same
        rw [if_pos rfl,if_neg (Ne.symm found),if_pos rfl]
      · rw [if_neg same,if_neg same]

theorem dequeOf_assign (pool : Pool) (peer other : Int) (deque : List Nat) :
    dequeOf other { pool with freeClients := assign peer deque pool.freeClients } =
      if other = peer then deque else dequeOf other pool := by
  simp only [dequeOf,lookup_assign,eq_comm (a := other)]
  split <;> rfl

theorem dequeOf_pooled (pool : Pool) (peer : Int) (member : c ∈ dequeOf peer pool) : c ∈ pooled pool.freeClients := by
  obtain ⟨others,before,_⟩ := assign_perm pool.freeClients peer
  exact before.mem_iff.mpr (List.mem_append_left _ member)

theorem dequeOf_held (held : Held (pooled pool.freeClients) h) (peer : Int) : Held (dequeOf peer pool) h := by
  obtain ⟨others,before,_⟩ := assign_perm pool.freeClients peer
  intro c
  have enough := held.perm before c
  rw [List.count_append] at enough
  exact (Nat.le_add_right _ _).trans enough

theorem getClient_eq (error : Nat → Bool) (peer : Int) (pool : Pool) (h : Heap) :
    let found := getLoop pool.maxTimes error (dequeOf peer pool) h
    (getClient error peer pool h).1 = found.1 ∧ (getClient error peer pool h).2.2 = found.2.2 ∧
      ∀ other, dequeOf other (getClient error peer pool h).2.1 =
        if other = peer then found.2.1 else dequeOf other pool := by
  unfold getClient
  cases entry : pool.freeClients.lookup peer with
  | none =>
    have empty : dequeOf peer pool = [] := by simp [dequeOf,entry]
    rw [empty]
    refine ⟨rfl,rfl,?_⟩
    intro other
    by_cases same : other = peer
    · subst same
      rw [if_pos rfl]
      exact empty
    · rw [if_neg same]
  | some deque =>
    have own : dequeOf peer pool = deque := by simp [dequeOf,entry]
    rw [own]
    exact ⟨rfl,rfl,fun other => dequeOf_assign pool peer other _⟩

theorem getClient_limits (error : Nat → Bool) (peer : Int) (pool : Pool) (h : Heap) :
    (getClient error peer pool h).2.1.maxTimes = pool.maxTimes ∧
      (getClient error peer pool h).2.1.checkTime = pool.checkTime := by
  unfold getClient
  split <;> exact ⟨rfl,rfl⟩

theorem getClient_ages (error : Nat → Bool) (peer : Int) (pool : Pool) (h : Heap) :
    Ages h (getClient error peer pool h).2.2 := by
  rw [(getClient_eq error peer pool h).2.1]
  exact getLoop_ages _ _ _ _

theorem getClient_counts (error : Nat → Bool) (peer : Int) (pool : Pool) (small : pool.maxTimes < Int32.maxValue)
    (h : Heap) : Counts pool.maxTimes h (getClient error peer pool h).2.2 := by
  rw [(getClient_eq error peer pool h).2.1]
  exact getLoop_counts _ small _ _ _

theorem getClient_held (error : Nat → Bool) (peer : Int) (held : Held (pooled pool.freeClients) h) :
    Held ((getClient error peer pool h).1.toList ++ pooled (getClient error peer pool h).2.1.freeClients)
      (getClient error peer pool h).2.2 := by
  obtain ⟨others,before,after⟩ := assign_perm pool.freeClients peer
  unfold getClient
  cases entry : pool.freeClients.lookup peer with
  | none => exact held
  | some deque =>
    rw [entry] at before
    exact (getLoop_held pool.maxTimes error deque others h (held.perm before)).perm
      ((after _).symm.append_left _)

theorem getClient_mem (error : Nat → Bool) (peer : Int) (held : Held (pooled pool.freeClients) h)
    (returned : (getClient error peer pool h).1 = some c) : c ∈ dequeOf peer pool := by
  rw [(getClient_eq error peer pool h).1,(getLoop_exact _ _ _ h (dequeOf_held held peer)).1,
    Option.bind_eq_some_iff] at returned
  obtain ⟨i,_,entry⟩ := returned
  exact List.mem_of_getElem? entry

theorem checkClients_dequeOf (now : Int) (error : Int → Nat → Bool) (held : Held (pooled pool.freeClients) h)
    (peer : Int) : dequeOf peer (checkClients now error pool h).1 =
      kept pool.checkTime now (error peer) (dequeOf peer pool) h := by
  have exact := (checkEntries_exact pool.checkTime now error
    pool.freeClients [] h (by simpa using held)).1
  rw [dequeOf,checkClients]
  dsimp only
  rw [exact,lookup_map pool.freeClients fun peer deque => kept pool.checkTime now (error peer) deque h]
  rw [dequeOf]
  cases pool.freeClients.lookup peer <;> rfl

theorem checkClients_held (now : Int) (error : Int → Nat → Bool) (held : Held (pooled pool.freeClients) h) :
    Held (pooled (checkClients now error pool h).1.freeClients) (checkClients now error pool h).2 := by
  have left := (checkEntries_exact pool.checkTime now error
    pool.freeClients [] h (by simpa using held)).2
  simpa [checkClients] using left

theorem recollect_dequeOf (now : Int) (c : Nat) (pool : Pool) (h : Heap) (peer : Int) :
    dequeOf peer (recollect now (some c) pool h).1 =
      if peer = (h.clients c).peerId then dequeOf peer pool ++ [c] else dequeOf peer pool := by
  have own : ((retain c (onRecollect now c h)).clients c).peerId = (h.clients c).peerId := by
    simp [retain,onRecollect,Heap.modify]
  simp only [recollect,own,dequeOf_assign]
  split
  · rename_i same
    rw [same,dequeOf]
  · rfl

theorem recollect_clients (now : Int) (c : Nat) (pool : Pool) (h : Heap) (d : Nat) :
    (recollect now (some c) pool h).2.clients d = { h.clients d with
      lastTouchTime := if d = c then now else (h.clients d).lastTouchTime
      useCount := (h.clients d).useCount + if d = c then 1 else 0 } := by
  by_cases same : d = c
  · subst same
    simp [recollect,retain,onRecollect,Heap.modify]
  · simp [recollect,retain,onRecollect,Heap.modify,same]

theorem recollect_held (now : Int) (c : Nat) (held : Held (pooled pool.freeClients) h) :
    Held (pooled (recollect now (some c) pool h).1.freeClients) (recollect now (some c) pool h).2 := by
  intro d
  have enough := held d
  rw [(recollect_perm now c pool h).count_eq,List.count_cons,recollect_clients]
  by_cases same : c = d
  · subst same
    simpa using enough
  · simpa [same,Ne.symm same] using enough

end Pool

end Zerver.TcpClientPool
