import Zerver.TcpModuleOwnership

/-! Responses are read by the attempt that wrote the request. The unread bytes of a
connection are related to where its client is: clean in the pool and until a request
is written, and holding the rest of one response while an attempt reads it. -/
namespace Zerver.TcpModule

open Zerver.Asio Zerver.TcpClientPool Zerver.Schedule

def Config.headLen (cfg : Config) (a : Attempt) : Nat := cfg.respHeadLen a.slot.module

/-- A request whose response has no bytes at all: both reads succeed at once. -/
def Silent (cfg : Config) (request : Request) : Prop :=
  cfg.headLen request.attempt = 0 ∧ cfg.respBodyLen request.attempt [] = 0

/-- The length of every response the server sends. -/
def Legal (cfg : Config) (request : Request) (response : List UInt8) : Prop :=
  response.length = cfg.headLen request.attempt +
    cfg.respBodyLen request.attempt (response.take (cfg.headLen request.attempt))

theorem Silent.legal (silent : Silent cfg request) (legal : Legal cfg request response) :
    response = [] := by
  unfold Legal at legal
  rw [silent.1,List.take_zero,silent.2] at legal
  exact List.eq_nil_of_length_eq_zero legal

/-- Nothing to read now or later. -/
structure Clean (cfg : Config) (wire : Wire) : Prop where
  inbound : wire.inbound = []
  silent : ∀ request ∈ wire.requests, Silent cfg request

/-- `request` is the last one on the connection and `got` what has been read of its
response: nothing before the server answers, else all but the unread bytes. -/
inductive Owes (cfg : Config) (log : List Event) (wire : Wire) (request : Request)
    (got : List UInt8) : Prop where
  | pending (mute : List Request) : wire.requests = mute ++ [request] →
      (∀ earlier ∈ mute, Silent cfg earlier) → wire.inbound = [] → got = [] →
      Owes cfg log wire request got
  | answered (response : List UInt8) : wire.requests = [] → .answered request response ∈ log →
      Legal cfg request response → got ++ wire.inbound = response → Owes cfg log wire request got

/-- The connection of an operation that has not failed, by its stage. -/
def Fits (cfg : Config) (log : List Event) (wire : Wire) (op : Op) : Prop :=
  match op.task.stage with
  | .connect _ _ => Clean cfg wire
  | .writeReq bytes =>
    if op.result = none then Clean cfg wire else Owes cfg log wire ⟨op.task.attempt,bytes⟩ []
  | .respHead len =>
    len = cfg.headLen op.task.attempt ∧ (op.result = some .success → op.received.length = len) ∧
      ∃ bytes, Owes cfg log wire ⟨op.task.attempt,bytes⟩ op.received
  | .respBody len =>
    ∃ head bytes, .onReadHeadImpl op.task.attempt head ∈ log ∧
      head.length = cfg.headLen op.task.attempt ∧ len = cfg.respBodyLen op.task.attempt head ∧
      (op.result = some .success → op.received.length = len) ∧
      Owes cfg log wire ⟨op.task.attempt,bytes⟩ (head ++ op.received)

def Healthy (op : Op) : Prop := ∀ code, op.result = some code → code = .success

/-- What was read for an attempt is the response to the request of that attempt. -/
def Answered (cfg : Config) (log : List Event) (a : Attempt) (body : List UInt8) : Prop :=
  ∃ head bytes, .onReadHeadImpl a head ∈ log ∧
    (.answered ⟨a,bytes⟩ (head ++ body) ∈ log ∨ Silent cfg ⟨a,bytes⟩ ∧ head ++ body = [])

structure Tidy (cfg : Config) (s : State) : Prop where
  pooled : ∀ c ∈ pooled s.pool.freeClients, Clean cfg (s.wire c)
  running : ∀ slot op, op ∈ s.ops slot → Healthy op → Fits cfg s.log (s.wire op.socket) op
  read : ∀ a body, .onReadBodyImpl a body ∈ s.log → Answered cfg s.log a body

section Grow

variable {cfg : Config} {log : List Event} {wire : Wire}

theorem Owes.grow (owes : Owes cfg log wire request got) (more : List Event) :
    Owes cfg (log ++ more) wire request got := by
  cases owes with
  | pending mute requests silent inbound nothing => exact .pending mute requests silent inbound nothing
  | answered response requests member legal split =>
    exact .answered response requests (List.mem_append_left _ member) legal split

theorem Fits.grow (fits : Fits cfg log wire op) (more : List Event) :
    Fits cfg (log ++ more) wire op := by
  unfold Fits at fits ⊢
  split
  · rename_i stage
    simpa [stage] using fits
  · rename_i bytes stage
    simp only [stage] at fits
    split
    · rename_i idle
      simpa [idle] using fits
    · rename_i done
      rw [if_neg done] at fits
      exact fits.grow more
  · rename_i len stage
    simp only [stage] at fits
    obtain ⟨length,full,bytes,owes⟩ := fits
    exact ⟨length,full,bytes,owes.grow more⟩
  · rename_i len stage
    simp only [stage] at fits
    obtain ⟨head,bytes,member,headLen,bodyLen,full,owes⟩ := fits
    exact ⟨head,bytes,List.mem_append_left _ member,headLen,bodyLen,full,owes.grow more⟩

theorem Answered.grow (answered : Answered cfg log a body) (more : List Event) :
    Answered cfg (log ++ more) a body := by
  obtain ⟨head,bytes,member,split⟩ := answered
  exact ⟨head,bytes,List.mem_append_left _ member,split.imp_left (List.mem_append_left _)⟩

end Grow

section Wires

variable {cfg : Config} {log : List Event} {wire : Wire}

theorem Clean.written (clean : Clean cfg wire) (request : Request) :
    Owes cfg log { wire with requests := wire.requests ++ [request] } request [] :=
  .pending wire.requests rfl clean.silent clean.inbound rfl

/-- The server answers on a clean connection: only a silent request can be there. -/
theorem Clean.answered (clean : Clean cfg wire) (waiting : wire.requests = request :: rest)
    (legal : Legal cfg request response) : Clean cfg ⟨rest,wire.inbound ++ response⟩ := by
  have silent := clean.silent
  rw [waiting] at silent
  refine ⟨?_,fun later member => silent later (List.mem_cons_of_mem _ member)⟩
  rw [clean.inbound,(silent request List.mem_cons_self).legal legal,List.append_nil]

theorem Owes.answer (owes : Owes cfg log wire request got)
    (waiting : wire.requests = oldest :: rest) (legal : Legal cfg oldest response) :
    Owes cfg (log ++ [.answered oldest response]) ⟨rest,wire.inbound ++ response⟩ request got := by
  cases owes with
  | answered response requests member legal split => simp [requests] at waiting
  | pending mute requests silent inbound nothing =>
    rw [requests] at waiting
    cases mute with
    | nil =>
      obtain ⟨rfl,rfl⟩ := List.cons.inj waiting
      exact .answered response rfl (by simp) legal (by simp [nothing,inbound])
    | cons first others =>
      obtain ⟨rfl,rfl⟩ := List.cons.inj waiting
      have empty := (silent first List.mem_cons_self).legal legal
      exact .pending others rfl (fun earlier member => silent earlier (List.mem_cons_of_mem _ member))
        (by simp [inbound,empty]) nothing

theorem Owes.transfer (owes : Owes cfg log wire request got) (amount : Nat) :
    Owes cfg log ⟨wire.requests,wire.inbound.drop amount⟩ request (got ++ wire.inbound.take amount) := by
  cases owes with
  | pending mute requests silent inbound nothing =>
    exact .pending mute requests silent (by simp [inbound]) (by simp [inbound,nothing])
  | answered response requests member legal split =>
    refine .answered response requests member legal ?_
    rw [List.append_assoc,List.take_append_drop]
    exact split

/-- Once head and body have been read the connection is clean again and the bytes are
the whole response. -/
theorem Owes.finished (owes : Owes cfg log wire request (head ++ body))
    (headLen : head.length = cfg.headLen request.attempt)
    (bodyLen : body.length = cfg.respBodyLen request.attempt head) :
    Clean cfg wire ∧ (.answered request (head ++ body) ∈ log ∨ Silent cfg request ∧ head ++ body = []) := by
  cases owes with
  | pending mute requests silent inbound nothing =>
    obtain ⟨rfl,rfl⟩ := List.append_eq_nil_iff.mp nothing
    have mine : Silent cfg request := ⟨headLen.symm,bodyLen.symm⟩
    refine ⟨⟨inbound,?_⟩,.inr ⟨mine,rfl⟩⟩
    intro earlier member
    rw [requests] at member
    rcases List.mem_append.mp member with old | new
    · exact silent earlier old
    · rw [List.mem_singleton.mp new]
      exact mine
  | answered response requests member legal split =>
    have prefixed : response.take (cfg.headLen request.attempt) = head := by
      rw [← split,← headLen,List.append_assoc,List.take_left]
    have rest : wire.inbound = [] := by
      have total := congrArg List.length split
      unfold Legal at legal
      rw [prefixed] at legal
      simp only [List.length_append] at total
      exact List.eq_nil_of_length_eq_zero (by omega)
    rw [rest,List.append_nil] at split
    exact ⟨⟨rest,by simp [requests]⟩,.inl (split ▸ member)⟩

end Wires

theorem Tidy.install (tidy : Tidy cfg s) (slot : Slot) (opsEq : next.ops = Function.update s.ops slot ops)
    (logEq : next.log = s.log ++ events)
    (others : ∀ other op, other ≠ slot → op ∈ s.ops other → next.wire op.socket = s.wire op.socket)
    (pool : ∀ c ∈ TcpClientPool.pooled next.pool.freeClients,
      next.wire c = s.wire c ∧ Clean cfg (s.wire c))
    (mine : ∀ op ∈ ops, Healthy op → Fits cfg next.log (next.wire op.socket) op)
    (bodies : ∀ a body, .onReadBodyImpl a body ∈ events → Answered cfg next.log a body) :
    Tidy cfg next where
  pooled c member := (pool c member).1 ▸ (pool c member).2
  running other op member healthy := by
    rw [opsEq] at member
    by_cases eq : other = slot
    · subst other
      rw [Function.update_self] at member
      exact mine op member healthy
    · rw [Function.update_of_ne eq] at member
      rw [others other op eq member,logEq]
      exact (tidy.running other op member healthy).grow events
  read a body member := by
    rw [logEq] at member
    rcases List.mem_append.mp member with old | new
    · rw [logEq]
      exact (tidy.read a body old).grow events
    · exact bodies a body new

theorem Fits.cancel (fits : Healthy op → Fits cfg log wire op) (socket : Nat) (issuer : Issuer)
    (healthy : Healthy (op.cancel socket issuer)) : Fits cfg log wire (op.cancel socket issuer) := by
  by_cases same : op.socket = socket
  · cases result : op.result with
    | none =>
      have aborted := healthy .aborted (by simp [Operation.cancel,same,result])
      simp at aborted
    | some code =>
      obtain rfl : code = .success := healthy code (Operation.cancel_result _ _ _ _ result)
      have kept := fits (by intro code done; rw [result] at done; exact (Option.some.inj done).symm)
      simpa [Fits,Operation.cancel,same,result] using kept
  · rw [Operation.cancel_other _ _ _ same] at healthy ⊢
    exact fits healthy

/-- An operation that completes: only a request that has been written changes the wire. -/
theorem Fits.complete (fits : Healthy op → Fits cfg log (s.wire op.socket) op) (idle : op.result = none)
    (enabled : mayComplete op code = true) (healthy : Healthy (op.complete code)) :
    Fits cfg log ((delivered op code s).wire op.socket) (op.complete code) := by
  obtain rfl : code = .success := healthy code (by simp [Operation.complete,idle])
  have before := fits (by simp [Healthy,idle])
  unfold Fits at before ⊢
  cases stage : op.task.stage with
  | connect ip port =>
    simp only [stage] at before
    simpa [Operation.complete,stage,delivered,State.emit] using before
  | writeReq bytes =>
    simp only [stage,idle,↓reduceIte] at before
    simpa [Operation.complete,stage,idle,delivered] using before.written ⟨op.task.attempt,bytes⟩
  | respHead len =>
    simp only [stage] at before
    obtain ⟨length,_,owes⟩ := before
    have full : op.received.length = len := by simpa [mayComplete,stage] using enabled
    simpa [Operation.complete,stage,delivered] using ⟨length,fun _ => full,owes⟩
  | respBody len =>
    simp only [stage] at before
    obtain ⟨head,bytes,member,headLen,bodyLen,_,owes⟩ := before
    have full : op.received.length = len := by simpa [mayComplete,stage] using enabled
    simpa [Operation.complete,stage,delivered] using
      ⟨head,member,headLen,bodyLen,fun _ => full,bytes,owes⟩

theorem Fits.transfer (fits : Fits cfg log wire op) (idle : op.result = none) (amount : Nat) :
    Fits cfg log ⟨wire.requests,wire.inbound.drop amount⟩
      { op with received := op.received ++ wire.inbound.take amount } := by
  have kept (clean : Clean cfg wire) : Clean cfg ⟨wire.requests,wire.inbound.drop amount⟩ :=
    ⟨by simp [clean.inbound],clean.silent⟩
  unfold Fits at fits ⊢
  cases stage : op.task.stage with
  | connect ip port =>
    simp only [stage] at fits ⊢
    exact kept fits
  | writeReq bytes =>
    simp only [stage,idle,↓reduceIte] at fits ⊢
    exact kept fits
  | respHead len =>
    simp only [stage] at fits ⊢
    obtain ⟨length,_,bytes,owes⟩ := fits
    exact ⟨length,by simp [idle],bytes,owes.transfer amount⟩
  | respBody len =>
    simp only [stage] at fits ⊢
    obtain ⟨head,bytes,member,headLen,bodyLen,_,owes⟩ := fits
    refine ⟨head,bytes,member,headLen,bodyLen,by simp [idle],?_⟩
    rw [← List.append_assoc]
    exact owes.transfer amount

theorem Fits.answer (fits : Fits cfg log wire op) (waiting : wire.requests = oldest :: rest)
    (legal : Legal cfg oldest response) :
    Fits cfg (log ++ [.answered oldest response]) ⟨rest,wire.inbound ++ response⟩ op := by
  unfold Fits at fits ⊢
  cases stage : op.task.stage with
  | connect ip port =>
    simp only [stage] at fits ⊢
    exact fits.answered waiting legal
  | writeReq bytes =>
    simp only [stage] at fits ⊢
    split
    · rename_i idle
      rw [if_pos idle] at fits
      exact fits.answered waiting legal
    · rename_i done
      rw [if_neg done] at fits
      exact fits.answer waiting legal
  | respHead len =>
    simp only [stage] at fits ⊢
    obtain ⟨length,full,bytes,owes⟩ := fits
    exact ⟨length,full,bytes,owes.answer waiting legal⟩
  | respBody len =>
    simp only [stage] at fits ⊢
    obtain ⟨head,bytes,member,headLen,bodyLen,full,owes⟩ := fits
    exact ⟨head,bytes,List.mem_append_left _ member,headLen,bodyLen,full,owes.answer waiting legal⟩

theorem Handled.fits (handled : Handled cfg op replies d error data ops events)
    (done : op.result = some error) (fits : Healthy op → Fits cfg log wire op) (next : Op)
    (member : next ∈ ops) : next.socket = op.socket ∧ Fits cfg (log ++ events) wire next := by
  have healthy (fine : error = .success) : Healthy op := by
    intro code result
    rw [done,fine] at result
    exact (Option.some.inj result).symm
  cases handled with
  | aborted => simp at member
  | failed => simp at member
  | headRejected stage => simp at member
  | connected stage =>
    obtain rfl := List.mem_singleton.mp member
    have before := fits (healthy rfl)
    simp only [Fits,stage] at before
    exact ⟨rfl,by simpa [Fits,Operation.start] using before⟩
  | written stage =>
    obtain rfl := List.mem_singleton.mp member
    have before := fits (healthy rfl)
    simp only [Fits,stage,done,reduceCtorEq,↓reduceIte] at before
    refine ⟨rfl,?_⟩
    simpa [Fits,Operation.start,Config.headLen] using ⟨_,before⟩
  | headAccepted stage =>
    obtain rfl := List.mem_singleton.mp member
    have before := fits (healthy rfl)
    simp only [Fits,stage] at before
    obtain ⟨length,full,bytes,owes⟩ := before
    refine ⟨rfl,op.received,bytes,by simp [Operation.start],(full done).trans length,rfl,
      by simp [Operation.start],?_⟩
    rw [Operation.start,List.append_nil]
    exact owes.grow _

theorem Handled.bodies (handled : Handled cfg op replies d error data ops events) (a : Attempt)
    (body : List UInt8) : .onReadBodyImpl a body ∉ events := by
  cases handled with
  | failed => cases stage : op.task.stage <;> simp [failureHook,stage]
  | _ => simp

theorem completion_bodies (op : Op) (code : ErrorCode) (a : Attempt) (body : List UInt8) :
    .onReadBodyImpl a body ∉ completion op code := by
  unfold completion
  split <;> simp

theorem Fired.bodies (fired : Fired slot timeOut ops client ops' events) (a : Attempt)
    (body : List UInt8) : .onReadBodyImpl a body ∉ events := by
  cases fired <;> cases timeOut <;> simp [timeOutHook]

theorem Sound.wire_other (sound : Sound none s) (only : s.ops slot = [op]) (wire : Wire) (other : Slot)
    (op' : Op) (apart : other ≠ slot) (member : op' ∈ s.ops other) :
    Function.update s.wire op.socket wire op'.socket = s.wire op'.socket := by
  have held := sound.socket slot op (only_mem only)
  refine Function.update_of_ne ?_ _ _
  intro same
  exact apart (sound.holder held other op' member same)

theorem Sound.wire_pooled (sound : Sound none s) (only : s.ops slot = [op]) (wire : Wire) (c : Nat)
    (member : c ∈ pooled s.pool.freeClients) :
    Function.update s.wire op.socket wire c = s.wire c := by
  refine Function.update_of_ne ?_ _ _
  rintro rfl
  exact sound.unpooled op (only_mem only) member

theorem delivered_wire (op : Op) (code : ErrorCode) (s : State) :
    ∃ wire, (delivered op code s).wire = Function.update s.wire op.socket wire := by
  unfold delivered
  split
  · exact ⟨s.wire op.socket,(Function.update_eq_self _ _).symm⟩
  · exact ⟨_,rfl⟩
  · exact ⟨s.wire op.socket,(Function.update_eq_self _ _).symm⟩

theorem Move.tidy (sound : Sound none s) (tidy : Tidy cfg s) (move : Move cfg s a next) :
    Tidy cfg next := by
  have fits {slot : Slot} {op : Op} (only : s.ops slot = [op]) :
      Healthy op → Fits cfg s.log (s.wire op.socket) op :=
    tidy.running slot op (only_mem only)
  cases move with
  | stay => exact tidy
  | rejected idle =>
    exact tidy.install _ rfl rfl (fun _ _ _ _ => rfl)
      (fun c member => ⟨rfl,tidy.pooled c member⟩) (by simp) (by simp)
  | ran dropped idle perm ran =>
    have clean : ∀ c, _ → Clean cfg (s.wire c) :=
      fun c member => tidy.pooled c (perm.mem_iff.mpr (List.mem_append_right _ member))
    refine tidy.install _ rfl rfl (fun _ _ _ _ => rfl)
      (fun c member => ⟨rfl,clean c (List.mem_append_right _ member)⟩) ?_ ?_
    · intro op member healthy
      cases ran with
      | failed timer => simp at member
      | reused =>
        obtain rfl := List.mem_singleton.mp member
        have found := clean _ (List.mem_append_left _ (Option.mem_toList.mpr rfl))
        simpa [Fits,Operation.start,State.install,State.store] using found
    · cases ran <;> simp
  | opened dropped idle perm opened =>
    refine tidy.install _ rfl rfl ?_ ?_ ?_ ?_
    · intro other op _ member
      refine Function.update_of_ne ?_ _ _
      exact ne_of_lt (sound.owned.heldFresh other _ (sound.socket other op member))
    · intro c member
      have old := perm.mem_iff.mpr (List.mem_append_right _ member)
      refine ⟨Function.update_of_ne ?_ _ _,tidy.pooled c old⟩
      exact ne_of_lt (sound.owned.pooledFresh c old)
    · intro op member healthy
      cases opened with
      | failed => simp at member
      | connecting =>
        obtain rfl := List.mem_singleton.mp member
        exact ⟨by simp [State.install,State.create,State.store,Operation.start],
          by simp [State.install,State.create,State.store,Operation.start]⟩
    · cases opened <;> simp
  | completed only idle enabled =>
    rename_i slot op code
    obtain ⟨_,pool,_,ops⟩ := delivered_fields op code (s.setOps slot [op.complete code])
    obtain ⟨wire,changed⟩ := delivered_wire op code (s.setOps slot [op.complete code])
    have after := Fits.complete (s := s.setOps slot [op.complete code]) (fits only) idle enabled
    refine tidy.install slot ops (delivered_log _ _ _) ?_ ?_ ?_ ?_
    · intro other op' apart member
      rw [changed]
      exact sound.wire_other only wire other op' apart member
    · intro c member
      rw [pool] at member
      rw [changed]
      exact ⟨sound.wire_pooled only wire c member,tidy.pooled c member⟩
    · intro op' member healthy
      obtain rfl := List.mem_singleton.mp member
      rw [delivered_log]
      exact (after healthy).grow _
    · exact fun a body member => absurd member (completion_bodies op code a body)
  | transferred only idle bound =>
    rename_i slot op amount count
    refine tidy.install slot rfl (List.append_nil _).symm ?_ ?_ ?_ (by simp)
    · exact fun other op' apart member => sound.wire_other only _ other op' apart member
    · exact fun c member => ⟨sound.wire_pooled only _ c member,tidy.pooled c member⟩
    · intro op' member healthy
      obtain rfl := List.mem_singleton.mp member
      have before := fits only (by simp [Healthy,idle])
      simpa [State.setOps] using before.transfer idle amount
  | handled only done opened attempt client handled =>
    refine tidy.install _ rfl rfl (fun _ _ _ _ => rfl)
      (fun c member => ⟨rfl,tidy.pooled c member⟩) ?_ ?_
    · intro op' member _
      obtain ⟨socket,after⟩ := handled.fits done (fits only) op' member
      rw [socket]
      exact after
    · exact fun a body member => absurd member (handled.bodies a body)
  | bodyRead only done opened attempt client stage perm =>
    rename_i slot op len pool replies clients
    have healthy : Healthy op := by
      intro code result
      rw [done] at result
      exact (Option.some.inj result).symm
    have before := fits only healthy
    simp only [Fits,stage] at before
    obtain ⟨head,bytes,member,headLen,bodyLen,full,owes⟩ := before
    obtain ⟨clean,whole⟩ := owes.finished headLen ((full done).trans bodyLen)
    refine tidy.install slot rfl rfl (fun _ _ _ _ => rfl) ?_ (by simp) ?_
    · intro c pooled
      rcases List.mem_cons.mp (perm.mem_iff.mp pooled) with rfl | old
      · exact ⟨rfl,clean⟩
      · exact ⟨rfl,tidy.pooled c old⟩
    · intro a body read
      simp only [List.mem_cons,Event.onReadBodyImpl.injEq,reduceCtorEq,List.not_mem_nil,or_false] at read
      obtain ⟨rfl,rfl⟩ := read
      exact Answered.grow ⟨head,bytes,member,whole⟩ _
  | expired => exact ⟨tidy.pooled,tidy.running,tidy.read⟩
  | ignored queued other => exact ⟨tidy.pooled,tidy.running,tidy.read⟩
  | fired queued fired =>
    rename_i slot index timeOut ops events
    refine tidy.install slot rfl rfl (fun _ _ _ _ => rfl)
      (fun c member => ⟨rfl,tidy.pooled c member⟩) ?_ ?_
    · intro op member healthy
      generalize (s.data slot).client = held at fired
      cases fired with
      | missing => exact (tidy.running slot op member healthy).grow _
      | cancelled =>
        obtain ⟨old,was,rfl⟩ := List.mem_map.mp member
        rw [Operation.cancel_socket]
        exact Fits.cancel (fun fine => (tidy.running slot old was fine).grow _) _ _ healthy
    · exact fun a body member => absurd member (fired.bodies a body)
  | answered waiting legal =>
    rename_i socket request rest response
    refine ⟨?_,?_,?_⟩
    · intro c member
      by_cases same : c = socket
      · subst same
        simpa using (tidy.pooled c member).answered waiting legal
      · simpa [same] using tidy.pooled c member
    · intro slot op member healthy
      have before := tidy.running slot op member healthy
      by_cases same : op.socket = socket
      · subst same
        simpa [State.emit] using before.answer waiting legal
      · simpa [State.emit,same] using before.grow [.answered request response]
    · intro a body member
      have old : .onReadBodyImpl a body ∈ s.log := by simpa [State.emit] using member
      exact (tidy.read a body old).grow _
  | swept sub =>
    exact ⟨fun c member => tidy.pooled c (sub.subset member),tidy.running,tidy.read⟩

end Zerver.TcpModule
