import Mathlib.Algebra.BigOperators.Group.Finset.Basic
import Mathlib.Algebra.Group.Nat.Defs
import Mathlib.Data.List.Basic
import Mathlib.Logic.Function.Basic

/-! Interleavings of several traces. Any of the threads may take the next step, and each
keeps the order of its own. -/
namespace Zerver.Interleaving

variable {α : Type*}

/-- The traces of the threads below `width` are merged into one. -/
inductive Merge (width : Nat) : (Nat → List α) → List α → Prop where
  | done : (∀ i < width, traces i = []) → Merge width traces []
  | step (i : Nat) (event : α) : i < width → Merge width traces trace →
      Merge width (Function.update traces i (event :: traces i)) (event :: trace)

variable {width : Nat} {traces : Nat → List α} {trace rest : List α}

theorem merge_mem_iff (merge : Merge width traces trace) (event : α) :
    event ∈ trace ↔ ∃ i < width, event ∈ traces i := by
  induction merge with
  | done none =>
    constructor
    · intro member
      cases member
    · rintro ⟨i,inside,member⟩
      rw [none i inside] at member
      cases member
  | step i first inside _ ih =>
    rw [List.mem_cons,ih]
    constructor
    · rintro (rfl | ⟨j,bound,member⟩)
      · exact ⟨i,inside,by simp⟩
      · refine ⟨j,bound,?_⟩
        by_cases same : j = i
        · subst same
          simp [member]
        · rwa [Function.update_of_ne same]
    · rintro ⟨j,bound,member⟩
      by_cases same : j = i
      · subst same
        rw [Function.update_self] at member
        exact (List.mem_cons.mp member).imp_right fun member => ⟨j,bound,member⟩
      · rw [Function.update_of_ne same] at member
        exact .inr ⟨j,bound,member⟩

theorem Merge.congr (merge : Merge width traces trace) (same : ∀ i < width, traces' i = traces i) :
    Merge width traces' trace := by
  induction merge generalizing traces' with
  | done none => exact .done fun i inside => (same i inside).trans (none i inside)
  | @step traces trace i event inside _ ih =>
    have first : traces' i = event :: traces i := by simpa using same i inside
    have others : ∀ j < width, Function.update traces' i (traces i) j = traces j := by
      intro j bound
      by_cases here : j = i
      · subst here
        rw [Function.update_self]
      · rw [Function.update_of_ne here,same j bound,Function.update_of_ne here]
    have stepped := (ih others).step i event inside
    rwa [Function.update_self,Function.update_idem,← first,Function.update_eq_self] at stepped

theorem merge_countP (merge : Merge width traces trace) (p : α → Bool) :
    trace.countP p = ∑ i ∈ Finset.range width, (traces i).countP p := by
  induction merge with
  | done none =>
    rw [List.countP_nil,Finset.sum_eq_zero]
    intro i member
    rw [none i (Finset.mem_range.mp member),List.countP_nil]
  | @step traces trace i event inside _ ih =>
    have member := Finset.mem_range.mpr inside
    have others : ∑ j ∈ (Finset.range width).erase i, (Function.update traces i (event :: traces i) j).countP p =
        ∑ j ∈ (Finset.range width).erase i, (traces j).countP p := by
      apply Finset.sum_congr rfl
      intro j erased
      rw [Function.update_of_ne (Finset.ne_of_mem_erase erased)]
    calc (event :: trace).countP p
        = (event :: traces i).countP p + ∑ j ∈ (Finset.range width).erase i, (traces j).countP p := by
          rw [List.countP_cons,ih,← Finset.add_sum_erase _ _ member,List.countP_cons]
          omega
      _ = ∑ j ∈ Finset.range width, (Function.update traces i (event :: traces i) j).countP p := by
          rw [← Finset.add_sum_erase _ _ member,others,Function.update_self]

section Threads

variable {β : Type*} {i : Nat}

/-- The items of the other threads stay when one thread is replaced. -/
theorem items_update (items : β → List α) (threads : Nat → β) (inside : i < width) : ∃ rest, ∀ thread,
    ((List.range width).flatMap fun j => items (Function.update threads i thread j)).Perm (items thread ++ rest) := by
  induction width with
  | zero => omega
  | succ width ih =>
    simp only [List.range_succ,List.flatMap_append,List.flatMap_singleton]
    by_cases last : i = width
    · subst last
      refine ⟨(List.range i).flatMap fun j => items (threads j),?_⟩
      intro thread
      have others : ((List.range i).flatMap fun j => items (Function.update threads i thread j)) =
          (List.range i).flatMap fun j => items (threads j) := by
        apply List.flatMap_congr
        intro j member
        rw [Function.update_of_ne (by have := List.mem_range.mp member; omega)]
      rw [Function.update_self,others]
      exact List.perm_append_comm
    · obtain ⟨rest,perm⟩ := ih (by omega)
      refine ⟨rest ++ items (threads width),?_⟩
      intro thread
      rw [Function.update_of_ne (Ne.symm last),← List.append_assoc]
      exact (perm thread).append_right _

theorem items_erase [DecidableEq α] {items : β → List α} {threads : Nat → β} (item : α) {rest : List α}
    (split : ∀ thread, ((List.range width).flatMap fun j => items (Function.update threads i thread j)).Perm
      (items thread ++ rest)) (member : item ∈ items (threads i)) :
    (((List.range width).flatMap fun j => items (threads j)).erase item).Perm
      ((items (threads i)).erase item ++ rest) := by
  have whole := split (threads i)
  simp only [Function.update_eq_self] at whole
  exact (whole.erase item).trans (by rw [List.erase_append_left _ member])

end Threads

end Zerver.Interleaving
