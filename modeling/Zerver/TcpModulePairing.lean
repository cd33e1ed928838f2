import Zerver.TcpModuleWire

/-! Request and response pairing on pooled connections: each attempt writes at most
one request, is told at most one head, and the body it is told completes the server's
response to that request. -/
namespace Zerver.TcpModule

open Zerver.Asio Zerver.Schedule

/-- The request of the operation's attempt has not been written completely. -/
def Unwritten (op : Op) : Prop :=
  match op.task.stage with
  | .connect _ _ => True
  | .writeReq _ => op.result ≠ some .success
  | _ => False

def Unsent (d : ModuleData) (ops : List Op) (a : Attempt) : Prop :=
  d.serial < a.serial ∨ ∃ op ∈ ops, op.task.attempt = a ∧ Unwritten op

theorem Change.unsent (change : Change cfg slot d ops action data ops' events)
    (unsent : Unsent data ops' a) : Unsent d ops a := by
  cases change with
  | rejected idle => exact .inl (by simpa [Unsent] using Nat.lt_of_succ_lt (unsent.resolve_right (by simp)))
  | ran idle ran =>
    cases ran with
    | reused =>
      rcases unsent with later | ⟨op,member,attempt,_⟩
      · exact .inl (Nat.lt_of_succ_lt later)
      · obtain rfl := List.mem_singleton.mp member
        exact .inl (by rw [← attempt]; exact Nat.lt_succ_self _)
    | failed timer => exact .inl (Nat.lt_of_succ_lt (unsent.resolve_right (by simp)))
  | opened idle opened =>
    cases opened with
    | connecting =>
      rcases unsent with later | ⟨op,member,attempt,_⟩
      · exact .inl (Nat.lt_of_succ_lt later)
      · obtain rfl := List.mem_singleton.mp member
        exact .inl (by rw [← attempt]; exact Nat.lt_succ_self _)
    | failed => exact .inl (Nat.lt_of_succ_lt (unsent.resolve_right (by simp)))
  | completed only idle enabled =>
    rename_i op code
    apply unsent.imp_right
    rintro ⟨op',member,attempt,open'⟩
    obtain rfl := List.mem_singleton.mp member
    refine ⟨op,by simp [only],attempt,?_⟩
    unfold Unwritten at open' ⊢
    cases stage : op.task.stage <;> simp_all [Operation.complete]
  | transferred only idle =>
    rename_i op bytes count
    apply unsent.imp_right
    rintro ⟨op',member,attempt,open'⟩
    obtain rfl := List.mem_singleton.mp member
    exact ⟨op,by simp [only],attempt,by simpa [Unwritten] using open'⟩
  | handled only done attempt handled =>
    cases handled with
    | connected stage =>
      rename_i op replies ip port
      refine unsent.imp_right ?_
      rintro ⟨op',member,mine,_⟩
      obtain rfl := List.mem_singleton.mp member
      exact ⟨op,by simp [only],mine,by simp [Unwritten,stage]⟩
    | _ => exact .inl (unsent.resolve_right (by simp [Unwritten,Operation.start]))
  | bodyRead only done attempt stage => exact .inl (unsent.resolve_right (by simp))
  | expired => exact unsent
  | ignored queued other => exact unsent
  | fired queued fired =>
    generalize d.client = client at fired
    cases fired with
    | missing => exact unsent
    | cancelled =>
      refine unsent.imp_right ?_
      rintro ⟨op',member,attempt,open'⟩
      obtain ⟨op,was,rfl⟩ := List.mem_map.mp member
      rw [Operation.cancel_task] at attempt
      refine ⟨op,was,attempt,?_⟩
      unfold Unwritten at open' ⊢
      rw [Operation.cancel_task] at open'
      cases stage : op.task.stage with
      | writeReq request =>
        simp only [stage] at open' ⊢
        intro success
        exact open' (Operation.cancel_result _ _ _ _ success)
      | connect ip port => trivial
      | _ => simp [stage] at open'

/-- Every attempt has at most one request, on a connection or answered. -/
structure Single (s : State) : Prop where
  nodup : ∀ c, ((s.wire c).requests.map (·.attempt)).Nodup
  apart : ∀ c c' r r', r ∈ (s.wire c).requests → r' ∈ (s.wire c').requests →
    r.attempt = r'.attempt → c = c'
  gone : ∀ c r r' response, r ∈ (s.wire c).requests → .answered r' response ∈ s.log →
    r.attempt ≠ r'.attempt
  once : ∀ r r' response response', .answered r response ∈ s.log → .answered r' response' ∈ s.log →
    r.attempt = r'.attempt → response = response'
  waiting : ∀ c r, r ∈ (s.wire c).requests →
    ¬ Unsent (s.data r.attempt.slot) (s.ops r.attempt.slot) r.attempt
  answered : ∀ r response, .answered r response ∈ s.log →
    ¬ Unsent (s.data r.attempt.slot) (s.ops r.attempt.slot) r.attempt

theorem Move.unsent (move : Move cfg s act next) (a : Attempt)
    (unsent : Unsent (next.data a.slot) (next.ops a.slot) a) : Unsent (s.data a.slot) (s.ops a.slot) a := by
  cases act with
  | on slot action =>
    rcases move.change with rfl | ⟨data,ops,events,change,dataEq,opsEq,_⟩
    · exact unsent
    · rw [dataEq,opsEq] at unsent
      by_cases eq : a.slot = slot
      · subst slot
        simp only [Function.update_self] at unsent
        exact change.unsent unsent
      · rwa [Function.update_of_ne eq,Function.update_of_ne eq] at unsent
  | _ =>
    obtain ⟨data,ops,_⟩ := move.elsewhere (by simp)
    rwa [data,ops] at unsent

theorem Single.keep (single : Single s)
    (earlier : ∀ a, Unsent (next.data a.slot) (next.ops a.slot) a → Unsent (s.data a.slot) (s.ops a.slot) a)
    (wires : ∀ c, (next.wire c).requests.Sublist (s.wire c).requests)
    (logs : ∀ r response, .answered r response ∈ next.log → .answered r response ∈ s.log) :
    Single next where
  nodup c := ((wires c).map _).nodup (single.nodup c)
  apart c c' r r' member member' := single.apart c c' r r' ((wires c).subset member) ((wires c').subset member')
  gone c r r' response member answered :=
    single.gone c r r' response ((wires c).subset member) (logs _ _ answered)
  once r r' response response' first second := single.once r r' response response' (logs _ _ first) (logs _ _ second)
  waiting c r member unsent := single.waiting c r ((wires c).subset member) (earlier _ unsent)
  answered r response member unsent := single.answered r response (logs _ _ member) (earlier _ unsent)

theorem Single.send (single : Single s)
    (earlier : ∀ a, Unsent (next.data a.slot) (next.ops a.slot) a → Unsent (s.data a.slot) (s.ops a.slot) a)
    (socket : Nat) (request : Request)
    (unsent : Unsent (s.data request.attempt.slot) (s.ops request.attempt.slot) request.attempt)
    (sent : ¬ Unsent (next.data request.attempt.slot) (next.ops request.attempt.slot) request.attempt)
    (wireEq : next.wire = Function.update s.wire socket
      { s.wire socket with requests := (s.wire socket).requests ++ [request] })
    (logEq : next.log = s.log) : Single next := by
  have new (c : Nat) (r : Request) (member : r ∈ (s.wire c).requests) : r.attempt ≠ request.attempt := by
    intro same
    exact single.waiting c r member (same ▸ unsent)
  have unanswered (r : Request) (response : List UInt8) (member : .answered r response ∈ s.log) :
      r.attempt ≠ request.attempt := by
    intro same
    exact single.answered r response member (same ▸ unsent)
  have cases' (c : Nat) (r : Request) (member : r ∈ (next.wire c).requests) :
      r ∈ (s.wire c).requests ∨ c = socket ∧ r = request := by
    rw [wireEq] at member
    by_cases eq : c = socket
    · subst eq
      simpa using member
    · rw [Function.update_of_ne eq] at member
      exact .inl member
  constructor
  · intro c
    rw [wireEq]
    by_cases eq : c = socket
    · subst eq
      simp only [Function.update_self,List.map_append,List.map_singleton]
      refine List.nodup_append.mpr ⟨single.nodup c,List.nodup_cons.mpr ⟨by simp,List.nodup_nil⟩,?_⟩
      rintro a member b fresh rfl
      obtain ⟨r,old,same⟩ := List.mem_map.mp member
      exact new c r old (same.trans (List.mem_singleton.mp fresh))
    · rw [Function.update_of_ne eq]
      exact single.nodup c
  · intro c c' r r' member member' same
    rcases cases' c r member with old | ⟨rfl,rfl⟩ <;> rcases cases' c' r' member' with old' | ⟨rfl,rfl⟩
    · exact single.apart c c' r r' old old' same
    · exact absurd same (new c r old)
    · exact absurd same.symm (new c' r' old')
    · rfl
  · intro c r r' response member answered
    rw [logEq] at answered
    rcases cases' c r member with old | ⟨_,rfl⟩
    · exact single.gone c r r' response old answered
    · exact (unanswered r' response answered).symm
  · rw [logEq]
    exact single.once
  · intro c r member unsent'
    rcases cases' c r member with old | ⟨_,rfl⟩
    · exact single.waiting c r old (earlier _ unsent')
    · exact sent unsent'
  · intro r response member unsent'
    rw [logEq] at member
    exact single.answered r response member (earlier _ unsent')

theorem Single.answer (single : Single s) (waiting : (s.wire socket).requests = request :: rest)
    (earlier : ∀ a, Unsent (next.data a.slot) (next.ops a.slot) a → Unsent (s.data a.slot) (s.ops a.slot) a)
    (inbound : List UInt8)
    (wireEq : next.wire = Function.update s.wire socket ⟨rest,inbound⟩)
    (logEq : next.log = s.log ++ [.answered request response]) : Single next := by
  have held : request ∈ (s.wire socket).requests := by
    rw [waiting]
    exact List.mem_cons_self
  have old (c : Nat) (r : Request) (member : r ∈ (next.wire c).requests) :
      r ∈ (s.wire c).requests ∧ r.attempt ≠ request.attempt := by
    rw [wireEq] at member
    by_cases eq : c = socket
    · subst eq
      simp only [Function.update_self] at member
      have nodup := single.nodup c
      rw [waiting,List.map_cons,List.nodup_cons] at nodup
      refine ⟨by rw [waiting]; exact List.mem_cons_of_mem _ member,?_⟩
      intro same
      exact nodup.1 (same ▸ List.mem_map_of_mem member)
    · rw [Function.update_of_ne eq] at member
      exact ⟨member,fun same => eq (single.apart c socket r request member held same)⟩
  have cases' (r : Request) (bytes : List UInt8) (member : .answered r bytes ∈ next.log) :
      .answered r bytes ∈ s.log ∨ r = request ∧ bytes = response := by
    rw [logEq] at member
    simpa using member
  constructor
  · intro c
    rw [wireEq]
    by_cases eq : c = socket
    · subst eq
      have nodup := single.nodup c
      rw [waiting,List.map_cons,List.nodup_cons] at nodup
      simpa using nodup.2
    · rw [Function.update_of_ne eq]
      exact single.nodup c
  · intro c c' r r' member member'
    exact single.apart c c' r r' (old c r member).1 (old c' r' member').1
  · intro c r r' bytes member answered
    rcases cases' r' bytes answered with before | ⟨rfl,_⟩
    · exact single.gone c r r' bytes (old c r member).1 before
    · exact (old c r member).2
  · intro r r' bytes bytes' first second same
    rcases cases' r bytes first with before | ⟨rfl,rfl⟩ <;>
      rcases cases' r' bytes' second with before' | ⟨rfl,rfl⟩
    · exact single.once r r' bytes bytes' before before' same
    · exact absurd same.symm (single.gone socket _ r bytes held before)
    · exact absurd same (single.gone socket _ r' bytes' held before')
    · rfl
  · intro c r member unsent
    exact single.waiting c r (old c r member).1 (earlier _ unsent)
  · intro r bytes member unsent
    rcases cases' r bytes member with before | ⟨rfl,_⟩
    · exact single.answered r bytes before (earlier _ unsent)
    · exact single.waiting socket r held (earlier _ unsent)

theorem Change.answers (change : Change cfg slot d ops action data ops' events) (r : Request)
    (response : List UInt8) : .answered r response ∉ events := by
  cases change with
  | ran idle ran => cases ran <;> simp
  | opened idle opened => cases opened <;> simp
  | completed only idle enabled =>
    unfold completion
    split <;> simp
  | handled only done attempt handled =>
    cases handled with
    | failed =>
      rename_i op _
      cases stage : op.task.stage <;> simp [failureHook,stage]
    | _ => simp
  | fired queued fired =>
    rename_i index timeOut
    generalize d.client = client at fired
    cases fired <;> cases timeOut <;> simp [timeOutHook]
  | _ => simp

theorem Move.answers (move : Move cfg s (.on slot action) next) (r : Request) (response : List UInt8)
    (member : .answered r response ∈ next.log) : .answered r response ∈ s.log := by
  rcases move.change with rfl | ⟨_,_,events,change,_,_,logEq⟩
  · exact member
  · rw [logEq] at member
    exact (List.mem_append.mp member).resolve_right (change.answers r response)

theorem Move.single (sound : Sound none s) (single : Single s) (move : Move cfg s act next) :
    Single next := by
  have earlier := move.unsent
  have keep (wires : ∀ c, (next.wire c).requests.Sublist (s.wire c).requests)
      (own : ∃ slot action, act = .on slot action) : Single next := by
    obtain ⟨slot,action,rfl⟩ := own
    exact single.keep earlier wires move.answers
  cases move with
  | stay => exact single
  | completed only idle enabled =>
    rename_i slot op code
    have attempt := sound.attempt slot op (only_mem only)
    have own : op.task.attempt.slot = slot := by rw [attempt]
    by_cases written : code = .success ∧ ∃ bytes, op.task.stage = .writeReq bytes
    · obtain ⟨rfl,bytes,stage⟩ := written
      have eq : delivered op .success (s.setOps slot [op.complete .success]) =
          { s.setOps slot [op.complete .success] with
            wire := Function.update s.wire op.socket { s.wire op.socket with
              requests := (s.wire op.socket).requests ++ [⟨op.task.attempt,bytes⟩] } } := by
        simp [delivered,stage,State.setOps]
      rw [eq] at earlier ⊢
      refine single.send earlier op.socket ⟨op.task.attempt,bytes⟩ ?_ ?_ rfl rfl
      · exact .inr ⟨op,by simp [own,only],rfl,by simp [Unwritten,stage,idle]⟩
      · simp only [own]
        rintro (later | ⟨op',member,_,open'⟩)
        · rw [attempt] at later
          exact absurd later (lt_irrefl _)
        · simp only [setOps_same,List.mem_singleton] at member
          subst member
          simp [Unwritten,Operation.complete,stage,idle] at open'
    · refine keep ?_ ⟨_,_,rfl⟩
      intro c
      cases code <;> cases stage : op.task.stage <;> simp_all [delivered,State.setOps,State.emit]
  | opened dropped idle perm opened =>
    refine keep ?_ ⟨_,_,rfl⟩
    intro c
    by_cases eq : c = s.fresh
    · simp [State.install,State.create,State.store,eq]
    · simp [State.install,State.create,State.store,eq]
  | transferred only idle bound =>
    rename_i slot op amount count
    refine keep ?_ ⟨_,_,rfl⟩
    intro c
    by_cases eq : c = op.socket
    · simp [eq]
    · simp [eq]
  | answered waiting legal => exact single.answer waiting earlier _ rfl rfl
  | swept sub => exact single.keep earlier (fun _ => List.Sublist.refl _) (fun _ _ member => member)
  | _ => exact keep (fun _ => List.Sublist.refl _) ⟨_,_,rfl⟩

/-- An attempt is told a head once, on its way from the head read to the body read. -/
structure OneHead (log : List Event) (slot : Slot) (d : ModuleData) (ops : List Op) : Prop where
  unborn : ∀ a head, a.slot = slot → d.serial < a.serial → .onReadHeadImpl a head ∉ log
  early : ∀ op ∈ ops, op.task.attempt.slot = slot → (∀ len, op.task.stage ≠ .respBody len) →
    ∀ head, .onReadHeadImpl op.task.attempt head ∉ log
  once : ∀ a head head', a.slot = slot → .onReadHeadImpl a head ∈ log →
    .onReadHeadImpl a head' ∈ log → head = head'

theorem OneHead.keep (valid : OneHead log slot d ops) (later : d.serial ≤ data.serial)
    (silent : ∀ a head, .onReadHeadImpl a head ∉ events)
    (early : ∀ op ∈ ops', op.task.attempt.slot = slot → (∀ len, op.task.stage ≠ .respBody len) →
      ∀ head, .onReadHeadImpl op.task.attempt head ∉ log) :
    OneHead (log ++ events) slot data ops' := by
  have old (a : Attempt) (head : List UInt8) (member : .onReadHeadImpl a head ∈ log ++ events) :
      .onReadHeadImpl a head ∈ log := (List.mem_append.mp member).resolve_right (silent a head)
  constructor
  · intro a head own born member
    exact valid.unborn a head own (lt_of_le_of_lt later born) (old a head member)
  · intro op member own stage head told
    exact early op member own stage head (old _ head told)
  · intro a head head' own first second
    exact valid.once a head head' own (old a head first) (old a head' second)

theorem OneHead.told (valid : OneHead log slot d ops) (data : ModuleData) (only : ops = [op])
    (attempt : op.task.attempt = ⟨slot,d.serial⟩) (stage : op.task.stage = .respHead len)
    (serial : data.serial = d.serial) (events : List Event)
    (silent : ∀ a head, .onReadHeadImpl a head ∉ events)
    (bodies : ∀ op ∈ ops', ∃ len, op.task.stage = .respBody len) :
    OneHead (log ++ .onReadHeadImpl op.task.attempt op.received :: events) slot data ops' := by
  have untold := valid.early op (by simp [only]) (by rw [attempt]) (by simp [stage])
  have cases' (a : Attempt) (head : List UInt8)
      (member : .onReadHeadImpl a head ∈ log ++ .onReadHeadImpl op.task.attempt op.received :: events) :
      .onReadHeadImpl a head ∈ log ∨ a = op.task.attempt ∧ head = op.received := by
    rcases List.mem_append.mp member with old | new
    · exact .inl old
    · rcases List.mem_cons.mp new with same | other
      · exact .inr (by simpa using same)
      · exact absurd other (silent a head)
  constructor
  · intro a head own born member
    rw [serial] at born
    rcases cases' a head member with old | ⟨rfl,_⟩
    · exact valid.unborn a head own born old
    · rw [attempt] at born
      exact absurd born (lt_irrefl _)
  · intro op' member _ early
    obtain ⟨len,body⟩ := bodies op' member
    exact absurd body (early len)
  · intro a head head' own first second
    rcases cases' a head first with old | ⟨rfl,rfl⟩ <;>
      rcases cases' _ head' second with old' | ⟨same,rfl⟩
    · exact valid.once a head head' own old old'
    · exact absurd old (same ▸ untold head)
    · exact absurd old' (untold head')
    · rfl

theorem Change.oneHead (change : Change cfg slot d ops action data ops' events)
    (valid : OneHead log slot d ops) : OneHead (log ++ events) slot data ops' := by
  have fresh (head : List UInt8) : .onReadHeadImpl ⟨slot,d.serial + 1⟩ head ∉ log :=
    valid.unborn _ head rfl (Nat.lt_succ_self _)
  cases change with
  | rejected idle => exact valid.keep (Nat.le_succ _) (by simp) (by simp)
  | ran idle ran =>
    cases ran <;> refine valid.keep (Nat.le_succ _) (by simp) ?_ <;> simp [Operation.start,fresh]
  | opened idle opened =>
    cases opened <;> refine valid.keep (Nat.le_succ _) (by simp) ?_ <;> simp [Operation.start,fresh]
  | completed only idle enabled =>
    refine valid.keep (le_refl _) ?_ ?_
    · intro a head
      unfold completion
      split <;> simp
    · simpa [only,Operation.complete] using valid.early
  | transferred only idle => exact valid.keep (le_refl _) (by simp) (by simpa [only] using valid.early)
  | handled only done attempt handled =>
    cases handled with
    | aborted => exact valid.keep (le_refl _) (by simp) (by simp)
    | failed =>
      rename_i op _
      refine valid.keep (le_refl _) ?_ (by simp)
      cases stage : op.task.stage <;> simp [failureHook,stage]
    | connected stage =>
      have untold := valid.early _ (only_mem only) (by rw [attempt]) (by simp [stage])
      exact valid.keep (le_refl _) (by simp) (by simpa [Operation.start,attempt] using untold)
    | written stage =>
      have untold := valid.early _ (only_mem only) (by rw [attempt]) (by simp [stage])
      exact valid.keep (le_refl _) (by simp) (by simpa [Operation.start,attempt] using untold)
    | headAccepted stage =>
      refine valid.told { d with socketEvent := .opened } only attempt stage rfl [] ?_ ?_ <;>
        simp [Operation.start]
    | headRejected stage =>
      refine valid.told { d with socketEvent := .closed, timer := d.timer.cancel }
        only attempt stage rfl _ ?_ ?_ <;> simp
  | bodyRead only done attempt stage => exact valid.keep (le_refl _) (by simp) (by simp)
  | expired => exact valid.keep (le_refl _) (by simp) valid.early
  | ignored queued other => exact valid.keep (le_refl _) (by simp) valid.early
  | fired queued fired =>
    rename_i index timeOut
    generalize d.client = client at fired
    cases fired with
    | missing => exact valid.keep (le_refl _) (by cases timeOut <;> simp [timeOutHook]) valid.early
    | cancelled =>
      refine valid.keep (le_refl _) (by cases timeOut <;> simp [timeOutHook]) ?_
      simpa using valid.early

theorem Move.legal (move : Move cfg s act next)
    (valid : ∀ request response, .answered request response ∈ s.log → Legal cfg request response) :
    ∀ request response, .answered request response ∈ next.log → Legal cfg request response := by
  intro request response member
  cases act with
  | on slot action => exact valid request response (move.answers request response member)
  | checkClients now error => cases move <;> exact valid request response member
  | answer socket bytes =>
    cases move with
    | stay => exact valid request response member
    | answered waiting legal =>
      simp only [State.emit,List.mem_append,List.mem_singleton,Event.answered.injEq] at member
      rcases member with old | ⟨rfl,rfl⟩
      · exact valid request response old
      · exact legal

structure Paired (cfg : Config) (s : State) : Prop where
  sound : Sound none s
  tidy : Tidy cfg s
  single : Single s
  legal : ∀ request response, .answered request response ∈ s.log → Legal cfg request response
  oneHead : ∀ slot, OneHead s.log slot (s.data slot) (s.ops slot)

theorem initial_paired (cfg : Config) (maxTimes : Int32) (checkTime : Int) :
    Paired cfg (initial maxTimes checkTime) where
  sound := initial_sound maxTimes checkTime
  tidy := ⟨by simp [initial,TcpClientPool.pooled],by simp [initial],by simp [initial]⟩
  single := by constructor <;> simp [initial]
  legal := by simp [initial]
  oneHead slot := by constructor <;> simp [initial]

theorem step_paired (cfg : Config) (s : State) (a : Action) (sequential : Sequential s a) (paired : Paired cfg s) :
    Paired cfg (step cfg s a) where
  sound := step_sound cfg s a sequential paired.sound
  tidy := (step_moves cfg paired.sound a sequential).tidy paired.sound paired.tidy
  single := (step_moves cfg paired.sound a sequential).single paired.sound paired.single
  legal := (step_moves cfg paired.sound a sequential).legal paired.legal
  oneHead := by
    refine step_each paired.sound ?_ paired.oneHead a sequential ?_
    · intro log more slot d ops foreign valid
      have old (a : Attempt) (own : a.slot = slot) (head : List UInt8)
          (member : .onReadHeadImpl a head ∈ log ++ more) : .onReadHeadImpl a head ∈ log :=
        (List.mem_append.mp member).resolve_right fun new =>
          foreign (.onReadHeadImpl a head) new (congrArg some own)
      constructor
      · intro a head own born member
        exact valid.unborn a head own born (old a own head member)
      · intro op member own stage head told
        exact valid.early op member own stage head (old _ own head told)
      · intro a head head' own first second
        exact valid.once a head head' own (old a own head first) (old a own head' second)
    · rintro slot action data ops events rfl change
      exact change.oneHead (paired.oneHead slot)

theorem run_paired (cfg : Config) (maxTimes : Int32) (checkTime : Int) (schedule : List Action)
    (sequential : Along (step cfg) Sequential (initial maxTimes checkTime) schedule) :
    Paired cfg (execute (step cfg) (initial maxTimes checkTime) schedule) :=
  along_invariant (step_paired cfg) (initial_paired cfg maxTimes checkTime) schedule sequential

/-- Whenever `on_read_body_impl` has been called for an attempt, the attempt has been told
one head, and head and body are together the response to the request it wrote. A request
whose response has no bytes may be read before the server has got to it. -/
def Pairs (cfg : Config) (log : List Event) (a : Attempt) : Prop :=
  ∀ body, .onReadBodyImpl a body ∈ log →
    (∃ head bytes, .onReadHeadImpl a head ∈ log ∧
      (.answered ⟨a,bytes⟩ (head ++ body) ∈ log ∨ Silent cfg ⟨a,bytes⟩ ∧ head ++ body = [])) ∧
    ∀ head request response, .onReadHeadImpl a head ∈ log →
      .answered request response ∈ log → request.attempt = a → head ++ body = response

/-- Requests and responses pair in every run in which no two branches share a TcpModule. -/
theorem response_pairs (cfg : Config) (maxTimes : Int32) (checkTime : Int) (schedule : List Action)
    (sequential : Along (step cfg) Sequential (initial maxTimes checkTime) schedule) (a : Attempt) :
    Pairs cfg (execute (step cfg) (initial maxTimes checkTime) schedule).log a := by
  intro body read
  have paired := run_paired cfg maxTimes checkTime schedule sequential
  obtain ⟨head,bytes,told,whole⟩ := paired.tidy.read a body read
  refine ⟨⟨head,bytes,told,whole⟩,?_⟩
  intro head' request response told' answered mine
  obtain rfl : head = head' := (paired.oneHead a.slot).once a head head' rfl told told'
  rcases whole with mine' | ⟨silent,nothing⟩
  · exact paired.single.once ⟨a,bytes⟩ request (head ++ body) response mine' answered mine.symm
  · have silent' : Silent cfg request := by
      rw [← mine] at silent
      exact silent
    rw [nothing,silent'.legal (paired.legal request response answered)]

/-- A request over a new connection, answered with one byte of head and one of body. -/
def exchange : List Action := responseRead ⟨0,0⟩ 0 ++ [.on ⟨0,0⟩ (.handler 0 ⟨[1],true,true,0⟩)]

theorem exchange_pairs :
    let s := execute (step ⟨fun _ => 1,fun _ _ => 1⟩) (initial 0 0) exchange
    .onReadBodyImpl ⟨⟨0,0⟩,1⟩ [8] ∈ s.log ∧ Pairs ⟨fun _ => 1,fun _ _ => 1⟩ s.log ⟨⟨0,0⟩,1⟩ := by
  intro s
  have sequential : Along (step ⟨fun _ => 1,fun _ _ => 1⟩) Sequential (initial 0 0) exchange := by
    simp [exchange,responseRead,Along,Sequential,initial]
  exact ⟨by decide,response_pairs _ 0 0 exchange sequential _⟩

/-- Two branches of a fork run the module. The first has read the head of its response when
the second runs, and reads the body on the connection of the second. -/
def sharedExchange : List Action :=
  let slot : Slot := ⟨0,0⟩
  let first : Replies := ⟨[1],true,true,0⟩
  let second : Replies := ⟨[2],true,true,0⟩
  (responseRead slot 0).take 8 ++
  [.on slot (.run ⟨0,fun _ => false,some ("10.0.0.1",80),none,[],0⟩),.on slot (.complete 1 .success),
    .on slot (.handler 0 first),.on slot (.handler 0 second),.on slot (.complete 1 .success),.answer 1 [5,6],
    .on slot (.transfer 0 1),.on slot (.complete 0 .success),.on slot (.handler 0 first)]

/-- The first attempt is given the head of the second one's response for its body. -/
theorem shared_exchange_unpaired :
    let s := execute (step ⟨fun _ => 1,fun _ _ => 1⟩) (initial 0 0) sharedExchange
    .answered ⟨⟨⟨0,0⟩,1⟩,[1]⟩ [7,8] ∈ s.log ∧ .answered ⟨⟨⟨0,0⟩,2⟩,[2]⟩ [5,6] ∈ s.log ∧
      .onReadHeadImpl ⟨⟨0,0⟩,1⟩ [7] ∈ s.log ∧ .onReadBodyImpl ⟨⟨0,0⟩,1⟩ [5] ∈ s.log ∧
      ¬ Pairs ⟨fun _ => 1,fun _ _ => 1⟩ s.log ⟨⟨0,0⟩,1⟩ := by
  intro s
  have answered : .answered ⟨⟨⟨0,0⟩,1⟩,[1]⟩ [7,8] ∈ s.log := by decide +kernel
  have head : .onReadHeadImpl ⟨⟨0,0⟩,1⟩ [7] ∈ s.log := by decide +kernel
  have body : .onReadBodyImpl ⟨⟨0,0⟩,1⟩ [5] ∈ s.log := by decide +kernel
  refine ⟨answered,by decide +kernel,head,body,?_⟩
  intro pairs
  exact absurd ((pairs [5] body).2 _ _ _ head answered rfl) (by decide)

end Zerver.TcpModule
