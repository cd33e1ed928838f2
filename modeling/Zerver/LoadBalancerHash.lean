import Mathlib.Algebra.Group.Nat.Defs
import Zerver.LoadBalancer

/-! Routing by hash. The index depends on the hash value and the number of addresses
alone; whether the address there is handed out depends on the calls since the latest
rotation. -/
namespace Zerver.LoadBalancer

open Zerver.Schedule

theorem nonneg_toNat (index : Int32) (nonneg : 0 ≤ index.toInt) :
    index.toInt64.toUInt64.toNat = index.toInt.toNat := by
  have widened : index.toInt64.toInt = index.toInt := Int32.toInt_toInt64 index
  have bits := BitVec.toInt_eq_toNat_cond index.toInt64.toBitVec
  have bound := index.toInt64.toBitVec.isLt
  change index.toInt64.toInt = _ at bits
  change index.toInt64.toBitVec.toNat = _
  rw [widened] at bits
  split at bits <;> omega

/-- The remainder fits an int again, whatever the sign of the hash. -/
theorem hashIndex_toInt (hash : Int32) (size : Nat) (filled : 0 < size) (short : size < 2 ^ 31) :
    (hashIndex hash size).toInt = (hash.toInt64.toUInt64.toNat % size : Nat) := by
  apply Int32.toInt_ofNat_of_lt
  have := Nat.mod_lt hash.toInt64.toUInt64.toNat filled
  omega

/-- Reported after the most recent rotation, by the calls of a run. -/
def FreshlyReported (ip : String) (schedule : List Action) : Prop :=
  ∃ before after, schedule = before ++ .serverConnectFail ip :: after ∧ .clearBadIps ∉ after

theorem freshlyReported_append (ip : String) (schedule : List Action) (a : Action) :
    FreshlyReported ip (schedule ++ [a]) ↔
      a = .serverConnectFail ip ∨ (FreshlyReported ip schedule ∧ a ≠ .clearBadIps) := by
  constructor
  · rintro ⟨before,after,split,quiet⟩
    rcases List.eq_nil_or_concat after with rfl | ⟨after,b,rfl⟩
    · exact .inl (by simpa using (List.append_inj' split rfl).2)
    · rw [List.concat_eq_append,← List.cons_append,← List.append_assoc] at split
      obtain ⟨rfl,same⟩ := List.append_inj' split rfl
      obtain rfl : a = b := by simpa using same
      simp only [List.concat_eq_append,List.mem_append,List.mem_singleton,not_or] at quiet
      exact .inr ⟨⟨before,after,rfl,quiet.1⟩,Ne.symm quiet.2⟩
  · rintro (rfl | ⟨⟨before,after,rfl,quiet⟩,other⟩)
    · exact ⟨schedule,[],rfl,by simp⟩
    · refine ⟨before,after ++ [a],by simp,?_⟩
      simp [quiet,Ne.symm other]

theorem execute_bad (ips : List String) (port : UInt16) (schedule : List Action) :
    let b := (execute step (initial ips port) schedule).balancer
    b.ips = ips ∧ b.port = port ∧ ∀ ip, ip ∈ b.badIps ↔ FreshlyReported ip schedule := by
  intro b
  induction schedule using List.reverseRecOn with
  | nil => simp [b,initial,create,FreshlyReported]
  | append_singleton schedule a ih =>
    obtain ⟨sameIps,samePort,bad⟩ := ih
    simp only [b,execute_append,execute_cons,execute_nil] at *
    generalize execute step (initial ips port) schedule = s at *
    simp only [freshlyReported_append,← bad]
    cases a with
    | serverConnectFail other =>
      refine ⟨sameIps,samePort,?_⟩
      intro ip
      simp [step,serverConnectFail,Finset.mem_insert,eq_comm]
    | clearBadIps => exact ⟨sameIps,samePort,by simp [step,clearBadIps]⟩
    | getAliveIpByHash hash => exact ⟨sameIps,samePort,by simp [step]⟩
    | getAliveIpRandom order rand => exact ⟨sameIps,samePort,by simp [step]⟩

theorem byHash_eq (b : Balancer) (hash : Int32) (caller : UInt16) (filled : b.ips ≠ [])
    (short : b.ips.length < 2 ^ 31) :
    ∃ ip, b.ips[(hashIndex hash b.ips.length).toInt.toNat]? = some ip ∧
      getAliveIpByHash hash caller b =
        some (if ip ∈ b.badIps then ⟨false,"",caller⟩ else ⟨true,ip,b.port⟩) := by
  have index := hashIndex_toInt hash b.ips.length (List.length_pos_iff.mpr filled) short
  have bound := Nat.mod_lt hash.toInt64.toUInt64.toNat (List.length_pos_iff.mpr filled)
  have wide := nonneg_toNat (hashIndex hash b.ips.length) (by rw [index]; omega)
  have inside : (hashIndex hash b.ips.length).toInt.toNat < b.ips.length := by
    rw [index]
    exact bound
  refine ⟨b.ips[(hashIndex hash b.ips.length).toInt.toNat],List.getElem?_eq_getElem inside,?_⟩
  simp only [getAliveIpByHash,if_neg filled,wide,List.getElem?_eq_getElem inside]
  split <;> rfl

/-- In every run of a balancer with addresses, the hash getter looks inside the vector, refuses
exactly the addresses reported since the latest rotation, and returns one address for one hash. -/
theorem hash_routed (ips : List String) (port : UInt16) (filled : ips ≠ [])
    (short : ips.length < 2 ^ 31) (schedule : List Action) (hash : Int32) :
    let index := (hashIndex hash ips.length).toInt
    let run := fun schedule => (execute step (initial ips port) schedule).balancer
    (0 ≤ index ∧ index < ips.length) ∧
    (∃ ip, ips[index.toNat]? = some ip ∧ ∀ caller, ∃ reply,
      getAliveIpByHash hash caller (run schedule) = some reply ∧
      (reply.found = false ↔ FreshlyReported ip schedule) ∧
      (reply.found = false → reply.ip = "" ∧ reply.port = caller) ∧
      (reply.found = true → reply.ip = ip ∧ reply.port = port)) ∧
    ∀ first later, schedule = first ++ later → ∀ caller caller' reply reply',
      getAliveIpByHash hash caller (run first) = some reply →
      getAliveIpByHash hash caller' (run schedule) = some reply' →
      reply.found = true → reply'.found = true → reply'.ip = reply.ip := by
  intro index run
  have indexed := hashIndex_toInt hash ips.length (List.length_pos_iff.mpr filled) short
  have bound := Nat.mod_lt hash.toInt64.toUInt64.toNat (List.length_pos_iff.mpr filled)
  have answered (schedule : List Action) (caller : UInt16) :
      ∃ ip, ips[index.toNat]? = some ip ∧ getAliveIpByHash hash caller (run schedule) =
        some (if ip ∈ (run schedule).badIps then ⟨false,"",caller⟩ else ⟨true,ip,port⟩) := by
    obtain ⟨sameIps,samePort,_⟩ := execute_bad ips port schedule
    have byHash := byHash_eq (run schedule) hash caller
    rw [sameIps,samePort] at byHash
    exact byHash filled short
  refine ⟨by omega,?_,?_⟩
  · obtain ⟨ip,found,_⟩ := answered schedule 0
    refine ⟨ip,found,?_⟩
    intro caller
    obtain ⟨ip',found',reply⟩ := answered schedule caller
    obtain rfl : ip = ip' := Option.some.inj (found.symm.trans found')
    have bad := (execute_bad ips port schedule).2.2 ip
    refine ⟨_,reply,?_⟩
    by_cases fresh : ip ∈ (run schedule).badIps
    · simp [fresh,bad.mp fresh]
    · simp [fresh,mt bad.mpr fresh]
  · intro first later _ caller caller' reply reply' one two found found'
    have returned (schedule : List Action) (caller : UInt16) (reply : Reply)
        (answer : getAliveIpByHash hash caller (run schedule) = some reply) (found : reply.found = true) :
        ips[index.toNat]? = some reply.ip := by
      obtain ⟨ip,here,same⟩ := answered schedule caller
      obtain rfl := Option.some.inj (answer.symm.trans same)
      by_cases bad : ip ∈ (run schedule).badIps
      · simp [bad] at found
      · simpa [bad] using here
    exact Option.some.inj ((returned schedule caller' reply' two found').symm.trans
      (returned first caller reply one found))

theorem negative_hash_routed :
    let index := (hashIndex (-2) ["a","b","c"].length).toInt
    (0 ≤ index ∧ index < 3) ∧
    FreshlyReported "c" [.serverConnectFail "c"] ∧
    getAliveIpByHash (-2) 7 (execute step (initial ["a","b","c"] 80) [.serverConnectFail "c"]).balancer =
      some ⟨false,"",7⟩ := by
  obtain ⟨inside,answered,_⟩ :=
    hash_routed ["a","b","c"] 80 (by decide) (by decide) [.serverConnectFail "c"] (-2)
  obtain ⟨ip,found,answers⟩ := answered
  obtain ⟨reply,answer,refused,fields,_⟩ := answers 7
  obtain rfl : "c" = ip := Option.some.inj found
  have fresh : FreshlyReported "c" [.serverConnectFail "c"] := ⟨[],[],rfl,by simp⟩
  refine ⟨inside,fresh,answer.trans ?_⟩
  obtain ⟨found,ip,port⟩ := reply
  obtain ⟨rfl,rfl⟩ := fields (refused.mpr fresh)
  obtain rfl : found = false := refused.mpr fresh
  rfl

end Zerver.LoadBalancer
