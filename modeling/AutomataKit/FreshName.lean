/-!
# Fresh names

A name that must differ from names already in use is made from a base by appending primes until
it does. Each prime makes the name longer, and a name longer than all those in use is free, so a
free one is found.
-/

namespace AutomataKit

/-- Among the names in use, those at least as long as a given name. -/
def atLeastAsLong (name : String) (taken : List String) : List String :=
  taken.filter fun other => name.length ≤ other.length

/-- Appending a prime to a name in use leaves fewer names that are as long. -/
theorem atLeastAsLong_prime_lt {name : String} {taken : List String} (used : name ∈ taken) :
    (atLeastAsLong (name ++ "'") taken).length < (atLeastAsLong name taken).length := by
  have longer : (name ++ "'").length = name.length + 1 := by
    rw [String.length_append]
    rfl
  have shrunk : atLeastAsLong (name ++ "'") taken =
      (atLeastAsLong name taken).filter fun other => name.length + 1 ≤ other.length := by
    simp only [atLeastAsLong, List.filter_filter, longer]
    refine List.filter_congr fun other _ => ?_
    rw [Bool.eq_iff_iff]
    simp only [decide_eq_true_eq, Bool.and_eq_true]
    omega
  have mem : name ∈ atLeastAsLong name taken := by
    simp [atLeastAsLong, used]
  rw [shrunk, List.length_filter_lt_length_iff_exists]
  exact ⟨name, mem, by simp⟩

/-- The base followed by the least number of primes that makes it differ from all names in use. -/
def freshName (base : String) (taken : List String) : String :=
  if base ∈ taken then freshName (base ++ "'") taken else base
termination_by (atLeastAsLong base taken).length
decreasing_by
  rename_i used
  exact atLeastAsLong_prime_lt used

theorem freshName_not_mem (base : String) (taken : List String) :
    freshName base taken ∉ taken := by
  fun_induction freshName base taken with
  | case1 base _ ih => exact ih
  | case2 base free => exact free

/-- Only which names are in use counts, not how they are listed. -/
theorem freshName_congr (base : String) {taken others : List String}
    (same : ∀ name, name ∈ taken ↔ name ∈ others) :
    freshName base taken = freshName base others := by
  fun_induction freshName base taken with
  | case1 base used ih =>
    rw [ih]
    conv => rhs; rw [freshName, if_pos ((same base).mp used)]
  | case2 base free =>
    rw [freshName, if_neg fun used => free ((same base).mpr used)]

end AutomataKit
