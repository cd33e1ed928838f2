import Mathlib.Data.List.Basic

/-! Association lists as the tables of `std::map` and `std::unordered_map`: lookups by key. -/
namespace Zerver.Assoc

variable {κ ν μ : Type*} [DecidableEq κ] {entries : List (κ × ν)} {key : κ} {value : ν}

theorem lookup_cons_eq (key other : κ) (value : ν) (rest : List (κ × ν)) :
    ((key,value) :: rest).lookup other = if key = other then some value else rest.lookup other := by
  by_cases same : key = other
  · simp [same]
  · have differ : (other == key) = false := by simpa using Ne.symm same
    simp [List.lookup_cons,differ,same]

theorem lookup_mem (found : entries.lookup key = some value) : (key,value) ∈ entries := by
  obtain ⟨before,after,rfl,_⟩ := List.lookup_eq_some_iff.mp found
  simp

theorem lookup_none_iff : entries.lookup key = none ↔ key ∉ entries.map Prod.fst := by
  rw [List.lookup_eq_none_iff]
  constructor
  · intro each member
    obtain ⟨pair,there,rfl⟩ := List.mem_map.mp member
    simpa using each pair there
  · intro absent pair there
    by_contra same
    have same : key = pair.1 := by simpa using same
    exact absent (same ▸ List.mem_map_of_mem there)

/-- What `insert` does to a lookup: the first value under a key is kept. -/
theorem lookup_insert (entries : List (κ × ν)) (key other : κ) (value : ν) :
    (if (entries.lookup key).isSome then entries else entries ++ [(key,value)]).lookup other =
      (entries.lookup other).or (if key = other then some value else none) := by
  by_cases same : key = other
  · subst same
    cases found : entries.lookup key <;> simp [found,List.lookup_append]
  · split <;> simp [List.lookup_append,lookup_cons_eq,same]

theorem lookup_map (entries : List (κ × ν)) (f : κ → ν → μ) (key : κ) :
    (entries.map fun entry => (entry.1,f entry.1 entry.2)).lookup key = (entries.lookup key).map (f key) := by
  induction entries with
  | nil => rfl
  | cons entry rest ih =>
    obtain ⟨first,value⟩ := entry
    rw [List.map_cons,lookup_cons_eq,lookup_cons_eq]
    by_cases same : first = key
    · simp [same]
    · simpa [same] using ih

end Zerver.Assoc
