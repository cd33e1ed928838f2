/-! Module states and module identity of `framework/module.h` and
`module/fork_module.h`. A module is known by its pointer and routed by its name. -/
namespace Zerver

abbrev ModState := UInt32

def modElse : ModState := 0
def modSucceed : ModState := 1
def modFailed : ModState := 2
def modTimeout : ModState := 3
def modAsync : ModState := 4
def modStart : ModState := 5
def modFork0 : ModState := 840

/-- `id` stands for the address of the object. -/
structure Module where
  id : Nat
  name : String
  deriving DecidableEq, Repr

/-- One `ModuleData`: that of a module in a context. -/
structure Slot where
  context : Nat
  module : Nat
  deriving DecidableEq, Repr

/-- The n-th call of `run` with one `ModuleData`. -/
structure Attempt where
  slot : Slot
  serial : Nat
  deriving DecidableEq, Repr

end Zerver
