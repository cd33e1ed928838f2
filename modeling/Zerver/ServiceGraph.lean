import Mathlib
import Zerver.Format
import Zerver.FsmRouting
import Zerver.ForkJoinGraph

/-! The graph that `example1/main.cc` configures, for all values of its flags. A request
goes to the feature servers, each shard of which may fan out to predictor servers, or to
the predictor servers alone, or is answered at random. -/
namespace Zerver.Service

open Zerver.Fsm
open Zerver.ForkJoin
open Zerver.Format

/-- The flags, as far as they shape the graph. They are not negative, and an `int` holds
the number of predictor shards. -/
structure Flags where
  fsMaxShardNum : Nat
  psMaxShardNum : Nat
  maxSubModelIdSize : Nat
  fsFits : fsMaxShardNum < 2 ^ 31
  subFits : maxSubModelIdSize < 2 ^ 31
  psFits : maxSubModelIdSize * psMaxShardNum < 2 ^ 31

def Flags.maxPsForkNum (flags : Flags) : Nat := flags.maxSubModelIdSize * flags.psMaxShardNum

/-- The states of the application's own. -/
structure States where
  reqSucceedToFs : ModState
  reqSucceedToPs : ModState
  reqSucceedToRandom : ModState
  randResp : ModState
  notRandResp : ModState
  routes : [modElse,reqSucceedToFs,reqSucceedToPs,reqSucceedToRandom].Nodup
  answers : randResp ≠ notRandResp

/-- A module of the graph, by the variable that holds it and the loops around that. -/
inductive Node where
  | reqMod | genFsReqMod | fsForkMod | fsJoinMod
  | fsMod (i : Nat) | psForkMod2 (i : Nat) | psJoinMod2 (i : Nat)
  | psMod2 (i j : Nat) | psBackfillMod2 (i j : Nat)
  | genPsReqMod | psForkMod | psJoinMod
  | psMod (i : Nat) | psBackfillMod (i : Nat)
  | ifRandMod | respMod | randRespMod | emptyRespMod | endMod
  deriving DecidableEq, Repr

namespace Node

def printed : Node → String × List Nat
  | reqMod => ("req_mod",[])
  | genFsReqMod => ("gen_fs_req_mod",[])
  | fsForkMod => ("fs_fork_mod",[])
  | fsJoinMod => ("fs_join_mod",[])
  | fsMod i => ("fs_mod%d",[i])
  | psForkMod2 i => ("ps_fork_mod2_%d",[i])
  | psJoinMod2 i => ("ps_join_mod2_%d",[i])
  | psMod2 i j => ("ps_mod2_%d_%d",[i,j])
  | psBackfillMod2 i j => ("ps_backfill_mod2_%d_%d",[i,j])
  | genPsReqMod => ("gen_ps_req_mod",[])
  | psForkMod => ("ps_fork_mod",[])
  | psJoinMod => ("ps_join_mod",[])
  | psMod i => ("ps_mod_%d",[i])
  | psBackfillMod i => ("ps_backfill_mod_%d",[i])
  | ifRandMod => ("if_rand_mod",[])
  | respMod => ("resp_mod",[])
  | randRespMod => ("rand_resp_mod",[])
  | emptyRespMod => ("empty_resp_mod",[])
  | endMod => ("end_mod",[])

/-- `mod_name` has 128 bytes. -/
def name (n : Node) : String := snprintf 128 n.printed.1 n.printed.2

def Inside (flags : Flags) : Node → Prop
  | fsMod i | psForkMod2 i | psJoinMod2 i => i < flags.fsMaxShardNum
  | psMod2 i j | psBackfillMod2 i j => i < flags.fsMaxShardNum ∧ j < flags.maxSubModelIdSize
  | psMod i | psBackfillMod i => i < flags.maxPsForkNum
  | _ => True

def forkNum (flags : Flags) : Node → Nat
  | fsForkMod | fsJoinMod => flags.fsMaxShardNum
  | psForkMod2 _ | psJoinMod2 _ => flags.maxSubModelIdSize
  | psForkMod | psJoinMod => flags.maxPsForkNum
  | _ => 0

def kind (flags : Flags) (n : Node) : Kind :=
  match n with
  | fsForkMod | psForkMod2 _ | psForkMod => .fork (UInt16.ofNat (n.forkNum flags))
  | fsJoinMod | psJoinMod2 _ | psJoinMod => .join
  | _ => .sequential

/-- The join that belongs to a fork. -/
def join : Node → Option Node
  | fsForkMod => some fsJoinMod
  | psForkMod2 i => some (psJoinMod2 i)
  | psForkMod => some psJoinMod
  | _ => none

end Node

/-- A line of `main` that configures the Fsm. -/
inductive Line where
  | add (n : Node)
  | link (origin target : Node) (state : ModState)
  deriving DecidableEq, Repr

section Configure

variable (flags : Flags) (states : States)

def subShardLines (i j : Nat) : List Line :=
  [.add (.psMod2 i j),.link (.psForkMod2 i) (.psMod2 i j) (modFork0 + UInt32.ofNat j),
    .link (.psMod2 i j) (.psJoinMod2 i) modSucceed,.add (.psBackfillMod2 i j),
    .link (.psMod2 i j) (.psBackfillMod2 i j) modElse,.link (.psBackfillMod2 i j) (.psJoinMod2 i) modSucceed,
    .link (.psBackfillMod2 i j) (.psJoinMod2 i) modElse]

def fsShardLines (i : Nat) : List Line :=
  ([.add (.fsMod i),.link .fsForkMod (.fsMod i) (modFork0 + UInt32.ofNat i),.add (.psForkMod2 i),
    .link (.fsMod i) (.psForkMod2 i) modSucceed,.add (.psJoinMod2 i)] : List Line) ++
  (List.range flags.maxSubModelIdSize).flatMap (subShardLines i) ++
  ([.link (.psJoinMod2 i) .fsJoinMod modSucceed,.link (.psJoinMod2 i) .fsJoinMod modElse,
    .link (.fsMod i) .fsJoinMod modElse] : List Line)

def psShardLines (i : Nat) : List Line :=
  [.add (.psMod i),.link .psForkMod (.psMod i) (modFork0 + UInt32.ofNat i),.add (.psBackfillMod i),
    .link (.psMod i) .psJoinMod modSucceed,.link (.psMod i) (.psBackfillMod i) modElse,
    .link (.psBackfillMod i) .psJoinMod modSucceed,.link (.psBackfillMod i) .psJoinMod modElse]

/-- The calls of `add_module` and `link_module`, in the order of `main`. -/
def lines : List Line :=
  ([.add .reqMod,.add .genFsReqMod,.link .reqMod .genFsReqMod states.reqSucceedToFs,.add .fsForkMod,
    .link .genFsReqMod .fsForkMod modSucceed,.add .fsJoinMod] : List Line) ++
  (List.range flags.fsMaxShardNum).flatMap (fsShardLines flags) ++
  ([.add .genPsReqMod,.link .reqMod .genPsReqMod states.reqSucceedToPs,.add .psForkMod,
    .link .genPsReqMod .psForkMod modSucceed,.add .psJoinMod] : List Line) ++
  (List.range flags.maxPsForkNum).flatMap psShardLines ++
  ([.add .ifRandMod,.link .fsJoinMod .ifRandMod modSucceed,.link .psJoinMod .ifRandMod modSucceed,
    .add .respMod,.link .ifRandMod .respMod states.notRandResp,
    .add .randRespMod,.link .ifRandMod .randRespMod states.randResp,
    .link .reqMod .randRespMod states.reqSucceedToRandom,
    .add .emptyRespMod,.link .fsJoinMod .emptyRespMod modElse,.link .psJoinMod .emptyRespMod modElse,
    .add .endMod,.link .respMod .endMod modSucceed,.link .respMod .endMod modElse,
    .link .randRespMod .endMod modSucceed,.link .randRespMod .endMod modElse,
    .link .emptyRespMod .endMod modSucceed,.link .emptyRespMod .endMod modElse,
    .link .reqMod .endMod modElse,.link .genFsReqMod .emptyRespMod modElse,
    .link .genPsReqMod .emptyRespMod modElse] : List Line)

/-- The address at which a module is allocated is of no matter. -/
def mod (alloc : Node → Nat) (n : Node) : Module := ⟨alloc n,n.name⟩

def Line.call (alloc : Node → Nat) : Line → Setup
  | .add n => .addModule (mod alloc n)
  | .link origin target state => .linkModule (mod alloc origin) (mod alloc target) state

def calls (alloc : Node → Nat) : List Setup := (lines flags states).map (Line.call alloc)

def fsm (alloc : Node → Nat) : Fsm :=
  configure (mod alloc .reqMod) (mod alloc .endMod) (calls flags states alloc)

/-- The branch that a fork starts with a state, if there is one. -/
def shard (count : Nat) (branch : Nat → Node) (state : ModState) : Option Node :=
  let i := (state - modFork0).toNat
  if i < count then some (branch i) else none

def either (succeeded other : Node) (state : ModState) : Option Node :=
  if state = modSucceed then some succeeded else if state = modElse then some other else none

def target : Node → ModState → Option Node
  | .reqMod,state =>
    if state = states.reqSucceedToFs then some .genFsReqMod
    else if state = states.reqSucceedToPs then some .genPsReqMod
    else if state = states.reqSucceedToRandom then some .randRespMod
    else if state = modElse then some .endMod else none
  | .fsForkMod,state => shard flags.fsMaxShardNum .fsMod state
  | .psForkMod2 i,state => shard flags.maxSubModelIdSize (.psMod2 i) state
  | .psForkMod,state => shard flags.maxPsForkNum .psMod state
  | .ifRandMod,state =>
    if state = states.notRandResp then some .respMod
    else if state = states.randResp then some .randRespMod else none
  | .genFsReqMod,state => either .fsForkMod .emptyRespMod state
  | .fsJoinMod,state => either .ifRandMod .emptyRespMod state
  | .fsMod i,state => either (.psForkMod2 i) .fsJoinMod state
  | .psJoinMod2 _,state => either .fsJoinMod .fsJoinMod state
  | .psMod2 i j,state => either (.psJoinMod2 i) (.psBackfillMod2 i j) state
  | .psBackfillMod2 i _,state => either (.psJoinMod2 i) (.psJoinMod2 i) state
  | .genPsReqMod,state => either .psForkMod .emptyRespMod state
  | .psJoinMod,state => either .ifRandMod .emptyRespMod state
  | .psMod i,state => either .psJoinMod (.psBackfillMod i) state
  | .psBackfillMod _,state => either .psJoinMod .psJoinMod state
  | .respMod,state => either .endMod .endMod state
  | .randRespMod,state => either .endMod .endMod state
  | .emptyRespMod,state => either .endMod .endMod state
  | .endMod,_ => none

end Configure

namespace Node

def shapes (args : List Nat) : List Node :=
  let i := args.getD 0 0
  let j := args.getD 1 0
  [reqMod,genFsReqMod,fsForkMod,fsJoinMod,fsMod i,psForkMod2 i,psJoinMod2 i,psMod2 i j,psBackfillMod2 i j,
    genPsReqMod,psForkMod,psJoinMod,psMod i,psBackfillMod i,ifRandMod,respMod,randRespMod,emptyRespMod,endMod]

def formats : List String := (shapes []).map (·.printed.1)

theorem shape_printed (n : Node) : (shapes n.printed.2).find? (·.printed.1 = n.printed.1) = some n := by
  cases n <;> simp [shapes,printed]

theorem printed_formats (n : Node) : n.printed.1 ∈ formats := by
  cases n <;> simp [formats,shapes,printed]

theorem printed_arity (n : Node) : n.printed.2.length = arity (parse n.printed.1.toList) := by
  cases n <;> simp [printed,parse,arity]

/-- The formats differ in their letters. -/
theorem formats_apart : (formats.map fun format => letters (parse format.toList)).Nodup := by
  decide +kernel

/-- The numbers are kept apart, and `mod_name` is long enough. -/
theorem formats_fit : ∀ format ∈ formats, Separated (parse format.toList) ∧
    (parse format.toList).length + 10 * arity (parse format.toList) ≤ 127 := by
  decide +kernel

section Flags

variable (flags : Flags)

theorem numbers_bounded (n : Node) (inside : n.Inside flags) : ∀ a ∈ n.printed.2, a < 10 ^ 10 := by
  have fs := flags.fsFits
  have sub := flags.subFits
  have ps : flags.maxPsForkNum < 2 ^ 31 := flags.psFits
  cases n with
  | fsMod i | psForkMod2 i | psJoinMod2 i | psMod i | psBackfillMod i =>
    simp only [Inside] at inside
    simp only [printed,List.mem_singleton,forall_eq]
    omega
  | psMod2 i j | psBackfillMod2 i j =>
    simp only [Inside] at inside
    simp only [printed,List.mem_cons,List.not_mem_nil,or_false,forall_eq_or_imp,forall_eq]
    omega
  | _ => simp [printed]

theorem print_length (n : Node) (inside : n.Inside flags) :
    (print (parse n.printed.1.toList) n.printed.2).length ≤ 128 - 1 := by
  have short := (formats_fit _ (printed_formats n)).2
  rw [← printed_arity] at short
  exact (length_print _ _ (numbers_bounded flags n inside)).trans short

theorem name_injective (n m : Node) (one : n.Inside flags) (two : m.Inside flags)
    (same : n.name = m.name) : n = m := by
  obtain ⟨same,texts⟩ := snprintf_letters 128 _ _ _ _ (print_length flags n one) (print_length flags m two) same
  have format : n.printed.1 = m.printed.1 :=
    List.inj_on_of_nodup_map formats_apart (printed_formats n) (printed_formats m) same
  rw [format] at texts
  have args := print_injective (formats_fit _ (printed_formats m)).1 _ _ (format ▸ printed_arity n)
    (printed_arity m) texts
  have found := shape_printed n
  rw [format,args,shape_printed m] at found
  exact (Option.some.inj found).symm

end Flags

end Node

section Links

variable (flags : Flags) (states : States)

theorem mem_add (n : Node) : .add n ∈ lines flags states ↔ n.Inside flags := by
  cases n <;> simp [lines,fsShardLines,subShardLines,psShardLines,Node.Inside]

theorem shard_iff (count : Nat) (fits : count < 2 ^ 31) (branch : Nat → Node) (state : ModState) (t : Node) :
    shard count branch state = some t ↔ ∃ i < count, branch i = t ∧ modFork0 + UInt32.ofNat i = state := by
  unfold shard
  dsimp only
  constructor
  · intro found
    split at found
    · rename_i inside
      exact ⟨_,inside,Option.some.inj found,by simp⟩
    · cases found
  · rintro ⟨i,inside,rfl,rfl⟩
    have index : (modFork0 + UInt32.ofNat i - modFork0).toNat = i := by
      rw [UInt32.add_comm,UInt32.add_sub_cancel]
      exact Nat.mod_eq_of_lt (by omega)
    rw [index,if_pos inside]

theorem either_iff (succeeded other : Node) (state : ModState) (t : Node) :
    either succeeded other state = some t ↔
      t = succeeded ∧ state = modSucceed ∨ t = other ∧ state = modElse := by
  have apart : modSucceed ≠ modElse := by decide
  unfold either
  grind

theorem mem_link (n t : Node) (state : ModState) :
    .link n t state ∈ lines flags states ↔ n.Inside flags ∧ target flags states n state = some t := by
  have routes := states.routes
  have answers := states.answers
  cases n
  case reqMod | ifRandMod =>
    simp [lines,fsShardLines,subShardLines,psShardLines,Node.Inside,target]
    grind
  all_goals
    simp only [target,shard_iff _ flags.fsFits,shard_iff _ flags.subFits,shard_iff flags.maxPsForkNum flags.psFits,either_iff]
    simp [lines,fsShardLines,subShardLines,psShardLines,Node.Inside]
    try grind

theorem target_inside (n t : Node) (inside : n.Inside flags) (found : target flags states n state = some t) :
    t.Inside flags := by
  cases n <;> simp only [target,shard,either,Node.Inside] at inside found <;> grind [Node.Inside]

variable (alloc : Node → Nat)

theorem firstAdded_node (n : Node) (inside : n.Inside flags) :
    firstAdded n.name (calls flags states alloc) = some (mod alloc n) := by
  rw [firstAdded,earliest,calls,List.find?_map]
  cases found : (lines flags states).find? ((fun call => decide (call.key = .name n.name)) ∘ Line.call alloc) with
  | none =>
    have missed := List.find?_eq_none.mp found (.add n) ((mem_add flags states n).mpr inside)
    simp [Line.call,Setup.key,mod] at missed
  | some line =>
    have key := List.find?_some found
    have member := List.mem_of_find?_eq_some found
    cases line with
    | link origin target state => simp [Line.call,Setup.key] at key
    | add m =>
      have name : m.name = n.name := by simpa [Line.call,Setup.key,mod] using key
      rw [Node.name_injective flags m n ((mem_add flags states m).mp member) inside name]
      rfl

theorem firstTarget_node (n : Node) (state : ModState) (inside : n.Inside flags) :
    firstTarget n.name state (calls flags states alloc) = (target flags states n state).map Node.name := by
  rw [firstTarget,earliest,calls,List.find?_map]
  cases found : (lines flags states).find?
      ((fun call => decide (call.key = .link n.name state)) ∘ Line.call alloc) with
  | none =>
    cases linked : target flags states n state with
    | none => rfl
    | some t =>
      have missed := List.find?_eq_none.mp found _ ((mem_link flags states n t state).mpr ⟨inside,linked⟩)
      simp [Line.call,Setup.key,mod] at missed
  | some line =>
    have key := List.find?_some found
    have member := List.mem_of_find?_eq_some found
    cases line with
    | add m => simp [Line.call,Setup.key] at key
    | link m t other =>
      obtain ⟨name,rfl⟩ : m.name = n.name ∧ other = state := by simpa [Line.call,Setup.key,mod] using key
      obtain ⟨known,linked⟩ := (mem_link flags states m t other).mp member
      rw [Node.name_injective flags m n known inside name] at linked
      rw [linked]
      rfl

/-- Every link leads to the module that `main` names in it. -/
theorem route_node (n : Node) (state : ModState) (inside : n.Inside flags) :
    (fsm flags states alloc).route (mod alloc n) state =
      ((target flags states n state).or (target flags states n modElse)).map (mod alloc) := by
  rw [fsm,configure_route,specified]
  show ((firstTarget n.name state _).or (firstTarget n.name modElse _)).bind _ = _
  rw [firstTarget_node flags states alloc n state inside,firstTarget_node flags states alloc n modElse inside,
    ← Option.map_or]
  cases linked : (target flags states n state).or (target flags states n modElse) with
  | none => rfl
  | some t =>
    have known : t.Inside flags := by
      rcases Option.or_eq_some_iff.mp linked with linked | ⟨_,linked⟩
      · exact target_inside flags states n t inside linked
      · exact target_inside flags states n t inside linked
    exact firstAdded_node flags states alloc t known

theorem registered_node (n : Node) (inside : n.Inside flags) :
    Registered (fsm flags states alloc) (mod alloc n) := by
  rw [Registered,fsm,configure_lookup]
  show (firstAdded n.name _).map some = _
  rw [firstAdded_node flags states alloc n inside]
  rfl

theorem mod_inj (n m : Node) (one : n.Inside flags) (two : m.Inside flags) :
    mod alloc n = mod alloc m ↔ n = m := by
  constructor
  · intro same
    exact Node.name_injective flags n m one two (congrArg Module.name same)
  · rintro rfl
    rfl

end Links

end Zerver.Service
