import Zerver.FsmConnection

/-! Framing of the byte stream of one client. The specification cuts a stream into frames
by the length functions alone; the three chained reads of each request deliver exactly
those frames, however the stream arrives and whatever the modules in between do. -/
namespace Zerver.FsmConnection

open Zerver.Asio Zerver.Fsm Zerver.Schedule
open Zerver.ClientConnection (Op Event isRead)

structure Frame where
  version : List UInt8
  head : List UInt8
  body : List UInt8
  deriving DecidableEq, Repr

def Frame.parts (frame : Frame) : List (List UInt8) := [frame.version,frame.head,frame.body]

/-- The three calls that hand a frame to one run of the RequestModule. -/
def Frame.delivered (frame : Frame) (attempt : Attempt) : List Delivery :=
  [⟨attempt,.version,frame.version⟩,⟨attempt,.head,frame.head⟩,⟨attempt,.body,frame.body⟩]

/-- The next `len` bytes of a stream and the rest, if there are that many. -/
def cut (len : UInt32) (stream : List UInt8) : Option (List UInt8 × List UInt8) :=
  if len.toNat ≤ stream.length then some (stream.take len.toNat,stream.drop len.toNat) else none

/-- The first `n` frames of a stream and what follows them: each part has the length
that is asked for after the parts before it. -/
def frames (cfg : Config) (mod : Module) (stream : List UInt8) : Nat → Option (List Frame × List UInt8)
  | 0 => some ([],stream)
  | n + 1 =>
    (frames cfg mod stream n).bind fun (done,rest) =>
      let read := done.flatMap Frame.parts
      (cut (cfg.getVersionLen mod read) rest).bind fun (version,rest) =>
        (cut (cfg.getHeadLen mod (read ++ [version])) rest).bind fun (head,rest) =>
          (cut (cfg.getBodyLen mod (read ++ [version,head])) rest).bind fun (body,rest) =>
            some (done ++ [⟨version,head,body⟩],rest)

/-- The parts of the next frame that have been delivered to a run, cut from a stream. -/
inductive Begun (cfg : Config) (mod : Module) (read : List (List UInt8)) (stream : List UInt8)
    (attempt : Attempt) : List Delivery → List UInt8 → Prop where
  | nothing : Begun cfg mod read stream attempt [] stream
  | version : cut (cfg.getVersionLen mod read) stream = some (version,rest) →
      Begun cfg mod read stream attempt [⟨attempt,.version,version⟩] rest
  | head : cut (cfg.getVersionLen mod read) stream = some (version,middle) →
      cut (cfg.getHeadLen mod (read ++ [version])) middle = some (head,rest) →
      Begun cfg mod read stream attempt [⟨attempt,.version,version⟩,⟨attempt,.head,head⟩] rest

/-- A run of the RequestModule comes before another one. -/
def Before (a b : Attempt) : Prop :=
  a.slot.context < b.slot.context ∨ a.slot.context = b.slot.context ∧ a.serial < b.serial

/-- What the log has delivered is the frames of the stream in order, each to a later run
than the one before, and the beginning of one more; `rest` is what is left. -/
structure Framed (cfg : Config) (mod : Module) (log : List Event) (stream : List UInt8)
    (done : List (Attempt × Frame)) (attempt : Attempt) (pieces : List Delivery)
    (after rest : List UInt8) : Prop where
  delivered : deliveries log = done.flatMap (fun item => item.2.delivered item.1) ++ pieces
  cutting : frames cfg mod stream done.length = some (done.map (·.2),after)
  begun : Begun cfg mod (done.flatMap (·.2.parts)) after attempt pieces rest
  ordered : (done.map (·.1) ++ [attempt]).Pairwise Before

theorem cut_append (found : cut len stream = some (part,rest)) (more : List UInt8) :
    cut len (stream ++ more) = some (part,rest ++ more) := by
  unfold cut at found ⊢
  split at found
  · rename_i enough
    obtain ⟨rfl,rfl⟩ := Prod.mk.inj (Option.some.inj found)
    have more' : len.toNat ≤ (stream ++ more).length := by
      rw [List.length_append]
      omega
    rw [if_pos more',List.take_append_of_le_length enough,List.drop_append_of_le_length enough]
  · contradiction

theorem cut_exact (part rest : List UInt8) (exact : part.length = len.toNat) :
    cut len (part ++ rest) = some (part,rest) := by
  rw [cut,if_pos (by simp [exact]),List.take_left' exact,List.drop_left' exact]

theorem cut_flatten (found : cut len stream = some (part,rest)) : part ++ rest = stream := by
  unfold cut at found
  split at found
  · obtain ⟨rfl,rfl⟩ := Prod.mk.inj (Option.some.inj found)
    exact List.take_append_drop _ _
  · contradiction

theorem frames_succ (earlier : frames cfg mod stream n = some (done,after))
    (first : cut (cfg.getVersionLen mod (done.flatMap Frame.parts)) after = some (version,middle))
    (second : cut (cfg.getHeadLen mod (done.flatMap Frame.parts ++ [version])) middle = some (head,last))
    (third : cut (cfg.getBodyLen mod (done.flatMap Frame.parts ++ [version,head])) last = some (body,rest)) :
    frames cfg mod stream (n + 1) = some (done ++ [⟨version,head,body⟩],rest) := by
  simp [frames,earlier,first,second,third]

theorem frames_succ_iff : frames cfg mod stream (n + 1) = some (all,rest) ↔
    ∃ done after version middle head last body, frames cfg mod stream n = some (done,after) ∧
      cut (cfg.getVersionLen mod (done.flatMap Frame.parts)) after = some (version,middle) ∧
      cut (cfg.getHeadLen mod (done.flatMap Frame.parts ++ [version])) middle = some (head,last) ∧
      cut (cfg.getBodyLen mod (done.flatMap Frame.parts ++ [version,head])) last = some (body,rest) ∧
      all = done ++ [⟨version,head,body⟩] := by
  constructor
  · intro found
    simp only [frames,Option.bind_eq_some_iff,Option.some.injEq,Prod.mk.injEq,Prod.exists] at found
    obtain ⟨done,after,earlier,version,middle,first,head,last,second,body,end',third,rfl,rfl⟩ := found
    exact ⟨done,after,version,middle,head,last,body,earlier,first,second,third,rfl⟩
  · rintro ⟨done,after,version,middle,head,last,body,earlier,first,second,third,rfl⟩
    exact frames_succ earlier first second third

theorem frames_append (found : frames cfg mod stream n = some (done,rest)) (more : List UInt8) :
    frames cfg mod (stream ++ more) n = some (done,rest ++ more) := by
  induction n generalizing done rest with
  | zero =>
    simp only [frames,Option.some.injEq,Prod.mk.injEq] at found ⊢
    obtain ⟨rfl,rfl⟩ := found
    exact ⟨rfl,rfl⟩
  | succ n ih =>
    obtain ⟨done,after,version,middle,head,last,body,earlier,first,second,third,rfl⟩ :=
      frames_succ_iff.mp found
    exact frames_succ (ih earlier) (cut_append first more) (cut_append second more) (cut_append third more)

theorem frames_flatten (found : frames cfg mod stream n = some (done,rest)) :
    (done.flatMap Frame.parts).flatten ++ rest = stream := by
  induction n generalizing done rest with
  | zero =>
    simp only [frames,Option.some.injEq,Prod.mk.injEq] at found
    obtain ⟨rfl,rfl⟩ := found
    rfl
  | succ n ih =>
    obtain ⟨done,after,version,middle,head,last,body,earlier,first,second,third,rfl⟩ :=
      frames_succ_iff.mp found
    rw [← ih earlier,← cut_flatten first,← cut_flatten second,← cut_flatten third]
    simp [Frame.parts]

theorem Begun.append {read : List (List UInt8)}
    (begun : Begun cfg mod read stream attempt pieces rest) (more : List UInt8) :
    Begun cfg mod read (stream ++ more) attempt pieces (rest ++ more) := by
  cases begun with
  | nothing => exact .nothing
  | version first => exact .version (cut_append first more)
  | head first second => exact .head (cut_append first more) (cut_append second more)

theorem Begun.flatten {read : List (List UInt8)}
    (begun : Begun cfg mod read stream attempt pieces rest) :
    (pieces.map (·.bytes)).flatten ++ rest = stream := by
  cases begun with
  | nothing => rfl
  | version first =>
    rw [← cut_flatten first]
    simp
  | head first second =>
    rw [← cut_flatten first,← cut_flatten second]
    simp

theorem delivered_parts (done : List (Attempt × Frame)) :
    (done.flatMap fun item => item.2.delivered item.1).map (·.bytes) = done.flatMap (·.2.parts) := by
  rw [List.map_flatMap]
  rfl

theorem Framed.parts (framed : Framed cfg mod log stream done attempt pieces after rest) :
    parts log = done.flatMap (·.2.parts) ++ pieces.map (·.bytes) := by
  rw [FsmConnection.parts,framed.delivered,List.map_append,delivered_parts]

/-- The bytes delivered are a prefix of the stream. -/
theorem Framed.flatten (framed : Framed cfg mod log stream done attempt pieces after rest) :
    (FsmConnection.parts log).flatten ++ rest = stream := by
  have whole := frames_flatten framed.cutting
  rw [List.flatMap_map] at whole
  rw [framed.parts,List.flatten_append,List.append_assoc,framed.begun.flatten]
  exact whole

/-- No read fails, no time-out handler runs with no error and no hook rejects a part. -/
def Smooth (s : State) : Action → Prop
  | .handler ok => ok = true
  | .io (.complete code) => ∀ op, s.conn.op = some op → isRead op.task.stage = true → code = .success
  | .io (.timeOutHandler slot index) => ∀ h, (s.conn.data slot).timer.queued[index]? ≠ some (h,.success)
  | _ => True

/-- What the outstanding operation reads, after the pieces delivered of its frame. -/
inductive Reading (cfg : Config) (mod : Module) (read : List (List UInt8)) (attempt : Attempt) :
    Option Op → List Delivery → Prop where
  | idle : Reading cfg mod read attempt none []
  | writing : isRead op.task.stage = false → op.received = [] → Reading cfg mod read attempt (some op) []
  | version : op.task = ⟨attempt,.version (cfg.getVersionLen mod read)⟩ →
      Reading cfg mod read attempt (some op) []
  | head : op.task = ⟨attempt,.head (cfg.getHeadLen mod (read ++ [version]))⟩ →
      Reading cfg mod read attempt (some op) [⟨attempt,.version,version⟩]
  | body : op.task = ⟨attempt,.body (cfg.getBodyLen mod (read ++ [version,head]))⟩ →
      Reading cfg mod read attempt (some op) [⟨attempt,.version,version⟩,⟨attempt,.head,head⟩]

def taken (conn : ClientConnection.State) : List UInt8 := (conn.op.map (·.received)).getD []

/-- The run of `mod` that reads now, or the next one. -/
def reader (mod : Module) (conn : ClientConnection.State) : Attempt :=
  let slot : Slot := ⟨conn.context,mod.id⟩
  ⟨slot,if (conn.op.map fun op => isRead op.task.stage) = some true then (conn.data slot).serial
    else (conn.data slot).serial + 1⟩

def Unfailed (op : Op) : Prop :=
  op.result = none ∨ op.result = some .success ∧ ClientConnection.mayComplete op .success = true

structure Streaming (cfg : Config) (mod : Module) (conn : ClientConnection.State) (stream : List UInt8)
    (done : List (Attempt × Frame)) (pieces : List Delivery) (after : List UInt8) : Prop where
  framed : Framed cfg mod conn.log stream done (reader mod conn) pieces after (taken conn ++ conn.inbound)
  reading : Reading cfg mod (done.flatMap (·.2.parts)) (reader mod conn) conn.op pieces
  unfailed : ∀ op, conn.op = some op → isRead op.task.stage = true → Unfailed op

section Steps

variable {cfg : Config} {mod : Module} {conn next : ClientConnection.State} {stream after : List UInt8}
  {done : List (Attempt × Frame)} {pieces : List Delivery}

theorem Before.trans (first : Before a b) (second : Before b c) : Before a c := by
  unfold Before at *
  omega

/-- A step that leaves the operation, the bytes and the deliveries as they are. -/
theorem Streaming.same (streaming : Streaming cfg mod conn stream done pieces after)
    (op : next.op = conn.op) (inbound : next.inbound = conn.inbound) (context : next.context = conn.context)
    (serial : ∀ slot, (next.data slot).serial = (conn.data slot).serial)
    (log : deliveries next.log = deliveries conn.log) : Streaming cfg mod next stream done pieces after := by
  have reader' : reader mod next = reader mod conn := by
    simp only [reader,op,context,serial]
  have taken' : taken next = taken conn := by
    unfold taken
    rw [op]
  obtain ⟨framed,reading,unfailed⟩ := streaming
  refine ⟨⟨log.trans framed.delivered,framed.cutting,?_,?_⟩,?_,?_⟩
  · rw [reader',taken',inbound]
    exact framed.begun
  · rw [reader']
    exact framed.ordered
  · rw [reader',op]
    exact reading
  · rw [op]
    exact unfailed

/-- Between two frames nothing has been taken; the run that reads next may be a later one. -/
theorem Streaming.between (streaming : Streaming cfg mod conn stream done [] after)
    (untaken : taken conn = []) (writes : ∀ op, next.op = some op → isRead op.task.stage = false ∧ op.received = [])
    (inbound : next.inbound = conn.inbound) (log : deliveries next.log = deliveries conn.log)
    (later : reader mod next = reader mod conn ∨ Before (reader mod conn) (reader mod next)) :
    Streaming cfg mod next stream done [] after := by
  obtain ⟨framed,reading,unfailed⟩ := streaming
  have untaken' : taken next = [] := by
    unfold taken
    cases busy : next.op with
    | none => rfl
    | some op => exact (writes op busy).2
  refine ⟨⟨log.trans framed.delivered,framed.cutting,?_,?_⟩,?_,?_⟩
  · have begun := framed.begun
    rw [untaken,List.nil_append] at begun
    rw [untaken',List.nil_append,inbound]
    cases begun
    exact .nothing
  · obtain ⟨past,_,last⟩ := List.pairwise_append.mp framed.ordered
    refine List.pairwise_append.mpr ⟨past,List.pairwise_singleton _ _,?_⟩
    intro a member b single
    obtain rfl := List.mem_singleton.mp single
    have before := last a member _ (List.mem_singleton_self _)
    rcases later with same | later
    · rw [same]
      exact before
    · exact before.trans later
  · cases busy : next.op with
    | none => exact .idle
    | some op => exact .writing (writes op busy).1 (writes op busy).2
  · intro op busy read
    rw [(writes op busy).1] at read
    contradiction

theorem Streaming.pieces_nil (streaming : Streaming cfg mod conn stream done pieces after)
    (idle : conn.op = none) : pieces = [] := by
  have reading := streaming.reading
  rw [idle] at reading
  cases reading
  rfl

theorem reader_busy (busy : conn.op = some op) (read : isRead op.task.stage = true) :
    reader mod conn = ⟨⟨conn.context,mod.id⟩,(conn.data ⟨conn.context,mod.id⟩).serial⟩ := by
  simp [reader,busy,read]

theorem reader_free (writes : ∀ op, conn.op = some op → isRead op.task.stage = false) :
    reader mod conn = ⟨⟨conn.context,mod.id⟩,(conn.data ⟨conn.context,mod.id⟩).serial + 1⟩ := by
  cases busy : conn.op with
  | none => simp [reader,busy]
  | some op => simp [reader,busy,writes op busy]

theorem Streaming.send (streaming : Streaming cfg mod conn stream done pieces after) (bytes : List UInt8) :
    Streaming cfg mod { conn with inbound := conn.inbound ++ bytes } (stream ++ bytes) done pieces
      (after ++ bytes) := by
  obtain ⟨framed,reading,unfailed⟩ := streaming
  refine ⟨⟨framed.delivered,frames_append framed.cutting bytes,?_,framed.ordered⟩,reading,unfailed⟩
  have more := framed.begun.append bytes
  rw [List.append_assoc] at more
  exact more

theorem Streaming.progress (streaming : Streaming cfg mod conn stream done pieces after)
    (busy : conn.op = some op) (op' : Op) (task : op'.task = op.task) (inbound : List UInt8)
    (bytes : op'.received ++ inbound = op.received ++ conn.inbound)
    (writes : isRead op.task.stage = false → op'.received = op.received)
    (unfailed : isRead op.task.stage = true → Unfailed op') :
    Streaming cfg mod { conn with op := some op', inbound := inbound } stream done pieces after := by
  obtain ⟨framed,reading,_⟩ := streaming
  have reader' : reader mod { conn with op := some op', inbound := inbound } = reader mod conn := by
    simp [reader,busy,task]
  refine ⟨⟨framed.delivered,framed.cutting,?_,?_⟩,?_,?_⟩
  · have begun := framed.begun
    simp only [taken,busy,Option.map_some,Option.getD_some] at begun
    rw [reader']
    simp only [taken,Option.map_some,Option.getD_some,bytes]
    exact begun
  · rw [reader']
    exact framed.ordered
  · rw [reader']
    rw [busy] at reading
    cases reading with
    | writing write empty => exact .writing (task ▸ write) ((writes write).trans empty)
    | version started => exact .version (task.trans started)
    | head started => exact .head (task.trans started)
    | body started => exact .body (task.trans started)
  · intro current busy' read
    obtain rfl := Option.some.inj busy'
    exact unfailed (task ▸ read)

theorem Streaming.transfer (streaming : Streaming cfg mod conn stream done pieces after) (count : Nat) :
    Streaming cfg mod (ClientConnection.transfer count conn) stream done pieces after := by
  unfold ClientConnection.transfer
  split
  · exact streaming
  · rename_i op busy
    split
    · rename_i running
      refine streaming.progress busy { op with received := op.received ++ conn.inbound.take _ } rfl
        (conn.inbound.drop _) ?_ ?_ (fun _ => .inl running)
      · rw [List.append_assoc,List.take_append_drop]
      · intro write
        cases stage : op.task.stage <;> simp_all [ClientConnection.wants,isRead]
    · exact streaming

theorem Streaming.complete (streaming : Streaming cfg mod conn stream done pieces after) (code : ErrorCode)
    (smooth : ∀ op, conn.op = some op → isRead op.task.stage = true → code = .success) :
    Streaming cfg mod (ClientConnection.complete code conn) stream done pieces after := by
  unfold ClientConnection.complete
  split
  · exact streaming
  · rename_i op busy
    split
    · rename_i enabled
      refine streaming.progress busy (op.complete code) rfl conn.inbound rfl (fun _ => rfl) ?_
      intro read
      obtain rfl := smooth op busy read
      exact .inr ⟨by simp [Operation.complete,enabled.1],enabled.2⟩
    · exact streaming

theorem Streaming.request (streaming : Streaming cfg mod conn stream done pieces after)
    (idle : conn.op = none) :
    Streaming cfg mod (ClientConnection.runRequest mod.id (cfg.getVersionLen mod (parts conn.log)) conn)
      stream done pieces after := by
  obtain rfl := streaming.pieces_nil idle
  obtain ⟨framed,reading,unfailed⟩ := streaming
  let asked := ClientConnection.runRequest mod.id (cfg.getVersionLen mod (parts conn.log)) conn
  have reader' : reader mod asked = reader mod conn := by
    simp [reader,idle,asked,ClientConnection.runRequest,ClientConnection.called,
      ClientConnection.State.setTimer,ClientConnection.State.start,ClientConnection.State.emit,
      Operation.start,isRead]
  have read : parts conn.log = done.flatMap (·.2.parts) := by simpa using framed.parts
  refine ⟨⟨?_,framed.cutting,?_,?_⟩,?_,?_⟩
  · have log : asked.log = conn.log ++ [.returned ⟨⟨conn.context,mod.id⟩,
      (conn.data ⟨conn.context,mod.id⟩).serial + 1⟩ modAsync] := rfl
    rw [log,deliveries_silent _ rfl]
    exact framed.delivered
  · rw [reader']
    have begun := framed.begun
    simp only [taken,idle,Option.map_none,Option.getD_none] at begun
    exact begun
  · rw [reader']
    exact framed.ordered
  · rw [reader']
    refine .version ?_
    rw [← read,reader_free (by simp [idle])]
    rfl
  · intro op busy _
    obtain rfl := Option.some.inj busy
    exact .inl rfl

/-- A read that is handled without an error has the bytes it asked for. -/
theorem received_length (unfailed : Unfailed op) (done : op.result = some error) :
    error = .success ∧ ClientConnection.mayComplete op .success = true := by
  rcases unfailed with running | ⟨success,full⟩
  · rw [running] at done
    contradiction
  · rw [success] at done
    exact ⟨(Option.some.inj done).symm,full⟩

theorem Streaming.write (streaming : Streaming cfg mod conn stream done pieces after)
    (busy : conn.op = some op) (write : isRead op.task.stage = false) (idle : next.op = none)
    (inbound : next.inbound = conn.inbound) (context : next.context = conn.context)
    (serial : ∀ slot, (next.data slot).serial = (conn.data slot).serial)
    (log : deliveries next.log = deliveries conn.log) : Streaming cfg mod next stream done pieces after := by
  have reading := streaming.reading
  rw [busy] at reading
  have reader' : reader mod next = reader mod conn := by
    rw [reader_free (by simp [idle]),reader_free (by simp [busy,write]),context,serial]
  cases reading with
  | writing _ empty =>
    refine streaming.between ?_ (by simp [idle]) inbound log (.inl reader')
    simp [taken,busy,empty]
  | version task => simp [task,isRead] at write
  | head task => simp [task,isRead] at write
  | body task => simp [task,isRead] at write

theorem Streaming.readOn (streaming : Streaming cfg mod conn stream done pieces after)
    (piece : Delivery) (busy : conn.op = some op) (was : isRead op.task.stage = true)
    (started : next.op = some (.start 0 ⟨op.task.attempt,stage⟩)) (reads : isRead stage = true)
    (inbound : next.inbound = conn.inbound) (context : next.context = conn.context)
    (serial : ∀ slot, (next.data slot).serial = (conn.data slot).serial)
    (log : deliveries next.log = deliveries conn.log ++ [piece])
    (begun : Begun cfg mod (done.flatMap (·.2.parts)) after (reader mod conn) (pieces ++ [piece]) conn.inbound)
    (reading : Reading cfg mod (done.flatMap (·.2.parts)) (reader mod conn) next.op (pieces ++ [piece])) :
    Streaming cfg mod next stream done (pieces ++ [piece]) after := by
  have reader' : reader mod next = reader mod conn := by
    rw [reader_busy started reads,reader_busy busy was,context,serial]
  have untaken : taken next = [] := by simp [taken,started,Operation.start]
  refine ⟨⟨?_,streaming.framed.cutting,?_,?_⟩,?_,?_⟩
  · rw [log,streaming.framed.delivered,List.append_assoc]
  · rw [reader',untaken,inbound]
    exact begun
  · rw [reader']
    exact streaming.framed.ordered
  · rw [reader']
    exact reading
  · intro current busy' _
    obtain rfl := Option.some.inj (started.symm.trans busy')
    exact .inl rfl

theorem Streaming.headRead (streaming : Streaming cfg mod conn stream done pieces after)
    (busy : conn.op = some op) (stage : op.task.stage = .version len)
    (full : ClientConnection.mayComplete op .success = true)
    (started : next.op = some (.start 0 ⟨op.task.attempt,
      .head (cfg.getHeadLen mod (parts conn.log ++ [op.received]))⟩))
    (inbound : next.inbound = conn.inbound) (context : next.context = conn.context)
    (serial : ∀ slot, (next.data slot).serial = (conn.data slot).serial)
    (log : next.log = conn.log ++ [.onReadVersionImpl op.task.attempt op.received]) :
    ∃ pieces, Streaming cfg mod next stream done pieces after := by
  have reading := streaming.reading
  rw [busy] at reading
  cases reading with
  | version task =>
    obtain ⟨attempt,rfl⟩ : op.task.attempt = reader mod conn ∧
        len = cfg.getVersionLen mod (done.flatMap (·.2.parts)) := by
      rw [task] at stage ⊢
      exact ⟨rfl,(ClientConnection.Stage.version.inj stage).symm⟩
    have read : parts conn.log = done.flatMap (·.2.parts) := by simpa using streaming.framed.parts
    have cutOff : cut (cfg.getVersionLen mod (done.flatMap (·.2.parts))) after =
        some (op.received,conn.inbound) := by
      have begun := streaming.framed.begun
      simp only [taken,busy,Option.map_some,Option.getD_some] at begun
      generalize whole : op.received ++ conn.inbound = bytes at begun
      cases begun
      rw [← whole]
      exact cut_exact _ _ (by simpa [ClientConnection.mayComplete,stage] using full)
    rw [read] at started
    rw [attempt] at log
    refine ⟨_,streaming.readOn ⟨reader mod conn,.version,op.received⟩ busy (by simp [stage,isRead]) started
      rfl inbound context serial ?_ (.version cutOff) ?_⟩
    · rw [log,deliveries_told _ rfl]
    · rw [started,attempt]
      exact .head rfl
  | writing write empty => simp [stage,isRead] at write
  | head task => simp [task] at stage
  | body task => simp [task] at stage

theorem Streaming.bodyRead (streaming : Streaming cfg mod conn stream done pieces after)
    (busy : conn.op = some op) (stage : op.task.stage = .head len)
    (full : ClientConnection.mayComplete op .success = true)
    (started : next.op = some (.start 0 ⟨op.task.attempt,
      .body (cfg.getBodyLen mod (parts conn.log ++ [op.received]))⟩))
    (inbound : next.inbound = conn.inbound) (context : next.context = conn.context)
    (serial : ∀ slot, (next.data slot).serial = (conn.data slot).serial)
    (log : next.log = conn.log ++ [.onReadHeadImpl op.task.attempt op.received]) :
    ∃ pieces, Streaming cfg mod next stream done pieces after := by
  have reading := streaming.reading
  rw [busy] at reading
  cases reading with
  | head task =>
    rename_i version
    obtain ⟨attempt,rfl⟩ : op.task.attempt = reader mod conn ∧
        len = cfg.getHeadLen mod (done.flatMap (·.2.parts) ++ [version]) := by
      rw [task] at stage ⊢
      exact ⟨rfl,(ClientConnection.Stage.head.inj stage).symm⟩
    have read : parts conn.log = done.flatMap (·.2.parts) ++ [version] := by
      simpa using streaming.framed.parts
    have begun := streaming.framed.begun
    simp only [taken,busy,Option.map_some,Option.getD_some] at begun
    generalize whole : op.received ++ conn.inbound = bytes at begun
    cases begun with
    | version first =>
      have second : cut (cfg.getHeadLen mod (done.flatMap (·.2.parts) ++ [version])) bytes =
          some (op.received,conn.inbound) := by
        rw [← whole]
        exact cut_exact _ _ (by simpa [ClientConnection.mayComplete,stage] using full)
      rw [read,List.append_assoc] at started
      rw [attempt] at log
      refine ⟨_,streaming.readOn ⟨reader mod conn,.head,op.received⟩ busy (by simp [stage,isRead]) started
        rfl inbound context serial ?_ (.head first second) ?_⟩
      · rw [log,deliveries_told _ rfl]
      · rw [started,attempt]
        exact .body rfl
  | writing write empty => simp [stage,isRead] at write
  | version task => simp [task] at stage
  | body task => simp [task] at stage

theorem Streaming.requestRead (streaming : Streaming cfg mod conn stream done pieces after)
    (busy : conn.op = some op) (stage : op.task.stage = .body len)
    (full : ClientConnection.mayComplete op .success = true) (idle : next.op = none)
    (inbound : next.inbound = conn.inbound) (context : next.context = conn.context)
    (serial : ∀ slot, (next.data slot).serial = (conn.data slot).serial)
    (log : deliveries next.log = deliveries conn.log ++ [⟨op.task.attempt,.body,op.received⟩]) :
    ∃ done, Streaming cfg mod next stream done [] conn.inbound := by
  have reading := streaming.reading
  rw [busy] at reading
  cases reading with
  | body task =>
    rename_i version head
    obtain ⟨attempt,rfl⟩ : op.task.attempt = reader mod conn ∧
        len = cfg.getBodyLen mod (done.flatMap (·.2.parts) ++ [version,head]) := by
      rw [task] at stage ⊢
      exact ⟨rfl,(ClientConnection.Stage.body.inj stage).symm⟩
    have begun := streaming.framed.begun
    simp only [taken,busy,Option.map_some,Option.getD_some] at begun
    generalize whole : op.received ++ conn.inbound = bytes at begun
    cases begun with
    | head first second =>
      have third : cut (cfg.getBodyLen mod (done.flatMap (·.2.parts) ++ [version,head])) bytes =
          some (op.received,conn.inbound) := by
        rw [← whole]
        exact cut_exact _ _ (by simpa [ClientConnection.mayComplete,stage] using full)
      have untaken : taken next = [] := by simp [taken,idle]
      refine ⟨done ++ [(reader mod conn,⟨version,head,op.received⟩)],⟨?_,?_,?_,?_⟩,?_,by simp [idle]⟩
      · rw [log,streaming.framed.delivered,attempt]
        simp [Frame.delivered]
      · rw [List.length_append,List.map_append]
        have read : (done.map (·.2)).flatMap Frame.parts = done.flatMap (·.2.parts) := List.flatMap_map ..
        rw [← read] at first second third
        exact frames_succ streaming.framed.cutting first second third
      · rw [untaken,inbound]
        exact .nothing
      · have later : Before (reader mod conn) (reader mod next) := by
          rw [reader_busy busy (by simp [stage,isRead]),reader_free (by simp [idle]),context,serial]
          exact .inr ⟨rfl,Nat.lt_succ_self _⟩
        rw [List.map_append,List.map_singleton]
        refine List.pairwise_append.mpr ⟨streaming.framed.ordered,List.pairwise_singleton _ _,?_⟩
        intro a member b single
        obtain rfl := List.mem_singleton.mp single
        rcases List.mem_append.mp member with past | last
        · have before := (List.pairwise_append.mp streaming.framed.ordered).2.2 a past _
            (List.mem_singleton_self _)
          exact before.trans later
        · rw [List.mem_singleton.mp last]
          exact later
      · rw [idle]
        exact .idle
  | writing write empty => simp [stage,isRead] at write
  | version task => simp [task] at stage
  | head task => simp [task] at stage

theorem Handling.streaming {s : State} (handling : Handling op error (replies cfg true waits s op)
      { s.conn with op := none } next) (own : isRead op.task.stage = true → waits = mod)
    (busy : s.conn.op = some op) (result : op.result = some error)
    (inbound : next.inbound = s.conn.inbound) (context : next.context = s.conn.context)
    (serial : ∀ slot, (next.data slot).serial = (s.conn.data slot).serial)
    (streaming : Streaming cfg mod s.conn stream done pieces after) :
    ∃ done pieces after, Streaming cfg mod next stream done pieces after := by
  have full (read : isRead op.task.stage = true) := received_length (streaming.unfailed op busy read) result
  cases handling with
  | ended hooks state cause failing idle exits log silent =>
    cases read : isRead op.task.stage with
    | true =>
      rcases failing read with failing | rejected
      · exact absurd (full read).1 failing
      · contradiction
    | false =>
      refine ⟨_,_,_,streaming.write busy read idle inbound context serial ?_⟩
      rw [log,deliveries_silent _ rfl,deliveries_append,silent read,List.append_nil]
  | headRead stage fine started exits log =>
    have read := full (by simp [stage,isRead])
    obtain rfl := own (by simp [stage,isRead])
    simp only [replies,stage] at started
    obtain ⟨pieces,streaming⟩ := streaming.headRead busy stage read.2 started inbound context serial log
    exact ⟨_,pieces,_,streaming⟩
  | bodyRead stage fine started exits log =>
    have read := full (by simp [stage,isRead])
    obtain rfl := own (by simp [stage,isRead])
    simp only [replies,stage] at started
    obtain ⟨pieces,streaming⟩ := streaming.bodyRead busy stage read.2 started inbound context serial log
    exact ⟨_,pieces,_,streaming⟩
  | requestRead stage fine idle exits log =>
    have read := full (by simp [stage,isRead])
    have told : deliveries next.log = deliveries s.conn.log ++ [⟨op.task.attempt,.body,op.received⟩] := by
      rw [log,deliveries_silent _ rfl,deliveries_told _ rfl]
    obtain ⟨done,streaming⟩ := streaming.requestRead busy stage read.2 idle inbound context serial told
    exact ⟨done,_,_,streaming⟩
  | written stage fine idle exits log =>
    refine ⟨_,_,_,streaming.write busy (by simp [stage,isRead]) idle inbound context serial ?_⟩
    rw [log,deliveries_silent _ rfl,deliveries_silent _ rfl]

theorem Continued.streaming {s next : State} (continued : Continued s last state context next)
    (streaming : Streaming cfg mod s.conn stream done pieces after) :
    Streaming cfg mod next.conn stream done pieces after := by
  obtain ⟨exits,same⟩ := continued.conn_eq
  rw [same]
  exact streaming.same rfl rfl rfl (fun _ => rfl) rfl

theorem Streaming.response (streaming : Streaming cfg mod conn stream done pieces after)
    (idle : conn.op = none) (id : Nat) (resp : Option (List UInt8)) :
    Streaming cfg mod (ClientConnection.runResponse id resp conn) stream done pieces after := by
  obtain rfl := streaming.pieces_nil idle
  have untaken : taken conn = [] := by simp [taken,idle]
  let answered := ClientConnection.runResponse id resp conn
  have writes : ∀ op, answered.op = some op → isRead op.task.stage = false ∧ op.received = [] := by
    intro op busy
    cases resp with
    | none => simp [answered,ClientConnection.runResponse,ClientConnection.called,
        ClientConnection.State.emit,idle] at busy
    | some bytes =>
      obtain rfl := Option.some.inj busy
      exact ⟨rfl,rfl⟩
  have log : deliveries answered.log = deliveries conn.log := by
    cases resp <;> exact deliveries_silent _ rfl
  refine streaming.between untaken writes (by cases resp <;> rfl) log ?_
  rw [reader_free (fun op busy => (writes op busy).1),reader_free (by simp [idle])]
  by_cases same : mod.id = id
  · right
    refine .inr ⟨by cases resp <;> rfl,?_⟩
    cases resp <;> simp [answered,ClientConnection.runResponse,ClientConnection.called,
      ClientConnection.State.emit,ClientConnection.State.setTimer,ClientConnection.State.start,same]
  · left
    cases resp <;> simp [answered,ClientConnection.runResponse,ClientConnection.called,
      ClientConnection.State.emit,ClientConnection.State.setTimer,ClientConnection.State.start,same]

theorem Streaming.runTimeOut (streaming : Streaming cfg mod conn stream done pieces after) (slot : Slot)
    (index : Nat) (smooth : ∀ h, (conn.data slot).timer.queued[index]? ≠ some (h,.success)) :
    Streaming cfg mod (ClientConnection.runTimeOut slot index conn) stream done pieces after := by
  have skipped : Streaming cfg mod (conn.setTimer slot (.take index)) stream done pieces after :=
    streaming.same rfl rfl rfl (ClientConnection.setTimer_serial conn slot · _) rfl
  unfold ClientConnection.runTimeOut
  split
  · exact streaming
  · rename_i h error queued
    have failing : error ≠ .success := by
      rintro rfl
      exact smooth h queued
    cases h with
    | readTimeOut flag attempt =>
      rw [ClientConnection.timeOutHandler,ClientConnection.onReadTimeOut,if_pos failing]
      exact skipped
    | writeTimeOut attempt =>
      rw [ClientConnection.timeOutHandler,ClientConnection.onWriteTimeOut,if_pos failing]
      exact skipped

theorem Streaming.endRequest (streaming : Streaming cfg mod conn stream done pieces after)
    (idle : conn.op = none) (exits : Nat → Bool) :
    Streaming cfg mod { ClientConnection.endRequest conn with exits := exits } stream done pieces after := by
  obtain rfl := streaming.pieces_nil idle
  obtain ⟨op,inbound,data,log,count⟩ := endRequest_fields conn
  rw [idle] at op
  refine streaming.between (by simp [taken,idle]) (by simp [op]) inbound ?_ ?_
  · simp only [log]
    exact deliveries_silent _ rfl
  · rw [reader_free (by simp [op]),reader_free (by simp [idle])]
    simp only [data,count]
    split
    · exact .inl rfl
    · exact .inr (.inl (Nat.lt_succ_self _))

end Steps

def sentBy : Action → List UInt8
  | .io (.send bytes) => bytes
  | _ => []

def sent (schedule : List Action) : List UInt8 := schedule.flatMap sentBy

/-- One step delivers at most the next part of the stream. -/
theorem Move.streaming (move : Move cfg s a next) (aligned : Aligned cfg s) (smooth : Smooth s a)
    (reads : ∀ m, cfg.kind m = .request → m = mod)
    (streaming : Streaming cfg mod s.conn stream done pieces after) :
    ∃ done pieces after, Streaming cfg mod next.conn (stream ++ sentBy a) done pieces after := by
  have owner {op : Op} {m : Module} {context : Nat} (waiting : s.control = .waiting m context)
      (busy : s.conn.op = some op) (read : isRead op.task.stage = true) : m = mod := by
    obtain ⟨_,waiting',kind,_⟩ := aligned.owner op busy
    obtain ⟨rfl,_⟩ := Control.waiting.inj (waiting.symm.trans waiting')
    exact reads m (by simpa [read] using kind)
  have kept (quiet : sentBy a = []) (streaming : ∃ done pieces after,
      Streaming cfg mod next.conn stream done pieces after) : ∃ done pieces after,
      Streaming cfg mod next.conn (stream ++ sentBy a) done pieces after := by
    rw [quiet,List.append_nil]
    exact streaming
  cases move with
  | stay quiet =>
    refine kept ?_ ⟨_,_,_,streaming⟩
    unfold sentBy
    split
    · rename_i bytes
      exact absurd (quiet _ rfl) (by simp [external])
    · rfl
  | io outer =>
    rename_i a
    cases a with
    | send bytes => exact ⟨_,_,_,streaming.send bytes⟩
    | transfer count => exact kept rfl ⟨_,_,_,streaming.transfer count⟩
    | complete code => exact kept rfl ⟨_,_,_,streaming.complete code smooth⟩
    | expire slot =>
      exact kept rfl ⟨_,_,_,streaming.same rfl rfl rfl (ClientConnection.setTimer_serial s.conn slot · _) rfl⟩
    | timeOutHandler slot index => exact kept rfl ⟨_,_,_,streaming.runTimeOut slot index smooth⟩
    | _ => contradiction
  | exited =>
    exact kept rfl ⟨_,_,_,streaming.same rfl rfl rfl (fun _ => rfl) (deliveries_silent _ rfl)⟩
  | renewed control => exact kept rfl ⟨_,_,_,streaming.same rfl rfl rfl (fun _ => rfl) rfl⟩
  | requested control kind =>
    obtain rfl := reads _ kind
    exact kept rfl ⟨_,_,_,streaming.request (aligned.idle control)⟩
  | responded control kind resp =>
    rename_i m context lastModState bytes choice
    exact kept rfl ⟨_,_,_,streaming.response (aligned.idle control) m.id (some bytes)⟩
  | unanswered control kind resp continued =>
    rename_i m context lastModState choice
    exact kept rfl ⟨_,_,_,continued.streaming (streaming.response (aligned.idle control) m.id none)⟩
  | deferred control kind => exact kept rfl ⟨_,_,_,streaming⟩
  | returned control kind continued => exact kept rfl ⟨_,_,_,continued.streaming streaming⟩
  | continued control continued => exact kept rfl ⟨_,_,_,continued.streaming streaming⟩
  | finished control exits => exact kept rfl ⟨_,_,_,streaming.endRequest (aligned.idle control) _⟩
  | crashed control exits => exact kept rfl ⟨_,_,_,streaming.endRequest (aligned.idle control) _⟩
  | ended control exits => exact kept rfl ⟨_,_,_,streaming.endRequest (aligned.idle control) _⟩
  | reads control busy result handling inbound context serial reading =>
    obtain rfl := smooth
    exact kept rfl (handling.streaming (owner control busy) busy result inbound context serial streaming)
  | handled control busy result handling inbound context serial idle log =>
    obtain rfl := smooth
    exact kept rfl (handling.streaming (owner control busy) busy result inbound context serial streaming)
  | resumed control kind => exact kept rfl ⟨_,_,_,streaming⟩

theorem run_streaming (reads : ∀ m, cfg.kind m = .request → m = mod) (schedule : List Action)
    (smooth : Along (step cfg) Smooth s schedule) (aligned : Aligned cfg s)
    (streaming : Streaming cfg mod s.conn stream done pieces after) :
    ∃ done pieces after,
      Streaming cfg mod (execute (step cfg) s schedule).conn (stream ++ sent schedule) done pieces after := by
  induction schedule generalizing s stream done pieces after with
  | nil => exact ⟨done,pieces,after,by simpa [sent] using streaming⟩
  | cons a rest ih =>
    have move := step_moves cfg s a
    obtain ⟨done,pieces,after,streaming⟩ := move.streaming aligned smooth.1 reads streaming
    have later := ih smooth.2 (move.aligned aligned) streaming
    rw [List.append_assoc] at later
    exact later

/-- In every run of a connection whose only reader is the start module, in which no read
fails, no timer expires and no hook rejects, the parts delivered are the consecutive
frames of the stream sent, however it is cut into segments; what is not delivered yet is
with the outstanding read or still on the socket. -/
theorem stream_framed (cfg : Config) (fsm : Fsm)
    (only : ∀ mod, cfg.kind mod = .request ↔ mod = fsm.startMod) (schedule : List Action)
    (smooth : Along (step cfg) Smooth (initial fsm) schedule) :
    let s := execute (step cfg) (initial fsm) schedule
    (parts s.conn.log).flatten <+: sent schedule ∧
      ∃ done attempt pieces after, Framed cfg fsm.startMod s.conn.log (sent schedule) done attempt pieces
        after (taken s.conn ++ s.conn.inbound) := by
  intro s
  have begun : Streaming cfg fsm.startMod (initial fsm).conn [] [] [] [] :=
    ⟨⟨rfl,rfl,.nothing,List.pairwise_singleton _ _⟩,.idle,by simp [initial,ClientConnection.initial]⟩
  obtain ⟨done,pieces,after,streaming⟩ := run_streaming (fun m => (only m).mp) schedule smooth
    (initial_aligned cfg fsm) begun
  rw [List.nil_append] at streaming
  exact ⟨⟨_,streaming.framed.flatten⟩,done,_,pieces,after,streaming.framed⟩

/-- A RequestModule r with the end module behind it. A version is one byte, the length
of the head; a body is one byte. -/
def oneByteBodies : Config where
  kind mod := if mod = ⟨1,"r"⟩ then .request else .other
  getVersionLen _ _ := 1
  getHeadLen _ read := ((read.getLast?.bind List.head?).getD 0).toUInt32
  getBodyLen _ _ := 1
  getSucceedState _ _ := modSucceed

def requestToEnd : Fsm :=
  configure ⟨1,"r"⟩ ⟨2,"e"⟩ [.addModule ⟨1,"r"⟩,.addModule ⟨2,"e"⟩,.linkModule ⟨1,"r"⟩ ⟨2,"e"⟩ modSucceed]

/-- Two requests, the second with an empty head, in segments that respect no part. -/
def twoFrames : List Action :=
  let call : Action := .call ⟨none,modSucceed⟩
  let next (count : Nat) : List Action := [.io (.transfer count),.io (.complete .success),.handler true]
  [call,call,.io (.send [2,7])] ++ next 1 ++ [.io (.transfer 9),.io (.send [8,9,0])] ++ next 1 ++ next 1 ++
    [call,call,call,call,call] ++ next 1 ++ next 0 ++ [.io (.send [5])] ++ next 1

theorem two_frames_framed :
    let s := execute (step oneByteBodies) (initial requestToEnd) twoFrames
    (deliveries s.conn.log).map (·.bytes) = [[2],[7,8],[9],[0],[],[5]] ∧
      (parts s.conn.log).flatten <+: [2,7,8,9,0,5] := by
  refine ⟨by decide,(stream_framed oneByteBodies requestToEnd ?_ twoFrames ?_).1⟩
  · intro mod
    simp [oneByteBodies,requestToEnd,configure,setup,addModule,linkModule]
  · simp [twoFrames,Along,Smooth]

end Zerver.FsmConnection
