import Zerver.DeadlineTimer

/-! Outstanding socket operations. An operation is outstanding from its start until
its completion handler runs; in between it is in progress or has a result and waits
in the queue. `cancel` reaches the operations still in progress and no others. -/
namespace Zerver.Asio

/-- `task` is what the completion handler is bound to, `received` what an
`async_read` has transferred so far, and `hits` who has cancelled the socket since
the operation was started. -/
structure Operation (τ ι : Type) where
  socket : Nat
  task : τ
  result : Option ErrorCode
  received : List UInt8
  hits : List ι
  deriving DecidableEq, Repr

namespace Operation

variable {τ ι : Type}

def start (socket : Nat) (task : τ) : Operation τ ι := ⟨socket,task,none,[],[]⟩

/-- A cancel or close of `socket` issued by `issuer`. -/
def cancel (socket : Nat) (issuer : ι) (op : Operation τ ι) : Operation τ ι :=
  if op.socket = socket then
    { op with result := some (op.result.getD .aborted), hits := op.hits ++ [issuer] }
  else op

def complete (code : ErrorCode) (op : Operation τ ι) : Operation τ ι :=
  { op with result := some (op.result.getD code) }

@[simp] theorem cancel_task (socket : Nat) (issuer : ι) (op : Operation τ ι) :
    (op.cancel socket issuer).task = op.task := by
  unfold cancel
  split <;> rfl

@[simp] theorem cancel_socket (socket : Nat) (issuer : ι) (op : Operation τ ι) :
    (op.cancel socket issuer).socket = op.socket := by
  unfold cancel
  split <;> rfl

theorem cancel_other (socket : Nat) (issuer : ι) (op : Operation τ ι) (apart : op.socket ≠ socket) :
    op.cancel socket issuer = op := by simp [cancel,apart]

theorem cancel_result (socket : Nat) (issuer : ι) (op : Operation τ ι) (code : ErrorCode)
    (done : op.result = some code) : (op.cancel socket issuer).result = some code := by
  unfold cancel
  split <;> simp [done]

/-- A cancel hits what is on its socket: it is over then, and no success is made of it. -/
theorem cancel_hit (socket : Nat) (issuer : ι) (op : Operation τ ι) (own : op.socket = socket) :
    (op.cancel socket issuer).hits ≠ [] ∧ (op.cancel socket issuer).result ≠ none ∧
      (op.result ≠ some .success → (op.cancel socket issuer).result ≠ some .success) := by
  refine ⟨by simp [cancel,own],by simp [cancel,own],?_⟩
  intro unfinished
  cases result : op.result with
  | none => simp [cancel,own,result]
  | some code =>
    rw [cancel_result _ _ _ _ result,← result]
    exact unfinished

def cancelAll (sockets : List Nat) (issuer : ι) (op : Operation τ ι) : Operation τ ι :=
  sockets.foldl (fun op socket => op.cancel socket issuer) op

@[simp] theorem cancelAll_task (sockets : List Nat) (issuer : ι) (op : Operation τ ι) :
    (op.cancelAll sockets issuer).task = op.task := by
  induction sockets generalizing op with
  | nil => rfl
  | cons socket rest ih => exact (ih _).trans (cancel_task socket issuer op)

@[simp] theorem cancelAll_socket (sockets : List Nat) (issuer : ι) (op : Operation τ ι) :
    (op.cancelAll sockets issuer).socket = op.socket := by
  induction sockets generalizing op with
  | nil => rfl
  | cons socket rest ih => exact (ih _).trans (cancel_socket socket issuer op)

theorem cancelAll_apart (sockets : List Nat) (issuer : ι) (op : Operation τ ι)
    (apart : op.socket ∉ sockets) : op.cancelAll sockets issuer = op := by
  induction sockets with
  | nil => rfl
  | cons socket rest ih =>
    obtain ⟨first,others⟩ := not_or.mp (mt List.mem_cons.mpr apart)
    simp only [cancelAll,List.foldl_cons,cancel_other socket issuer op first]
    exact ih others

end Operation

end Zerver.Asio
