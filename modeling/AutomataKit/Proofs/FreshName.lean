import AutomataKit.FreshName
import Mathlib.Data.Finset.Card
import Mathlib.Data.Finset.Dedup
import Mathlib.Data.Finset.Range

/-!
# The least number of primes

A fresh name is looked for by a loop: a name in use gets another prime, and a free name ends it
(`Primes`). The loop can end in one way only, with the least number of primes that gives a free name
(`primes_iff`). The names with fewer primes differ from one another and are all in use, so there are
no more of them than names in use (`le_card_of_primed_mem`).
-/

namespace AutomataKit

/-- The base followed by a number of primes. -/
def primed (base : String) (count : Nat) : String :=
  base ++ String.ofList (List.replicate count '\'')

/-- The loop from a name: in a number of rounds, each of which appends a prime to a name in use, it
comes to a free name and ends. -/
inductive Primes (taken : List String) : String → Nat → String → Prop
  | free {name : String} (free : name ∉ taken) : Primes taken name 0 name
  | round {name result : String} {rounds : Nat} (used : name ∈ taken)
    (onward : Primes taken (name ++ "'") rounds result) : Primes taken name (rounds + 1) result

theorem primed_zero (base : String) : primed base 0 = base := String.append_empty

theorem primed_prime (base : String) (count : Nat) :
    primed (base ++ "'") count = primed base (count + 1) := by
  apply String.toList_inj.mp
  simp [primed, List.replicate_succ]

theorem length_primed (base : String) (count : Nat) :
    (primed base count).length = base.length + count := by
  simp [primed]

/-- Different numbers of primes give different names. -/
theorem primed_injective (base : String) : Function.Injective (primed base) := by
  intro first second same
  have lengths := congrArg String.length same
  rw [length_primed, length_primed] at lengths
  exact Nat.add_left_cancel lengths

/-- **How the loop can end.** It appends as many primes as it takes rounds, all names before the
last are in use, and the last one is free. -/
theorem primes_iff {taken : List String} {base result : String} {rounds : Nat} :
    Primes taken base rounds result ↔
      primed base rounds = result ∧ result ∉ taken ∧
        ∀ fewer < rounds, primed base fewer ∈ taken := by
  constructor
  · intro loop
    induction loop with
    | free free =>
      exact ⟨primed_zero _, free, fun fewer before => absurd before (Nat.not_lt_zero fewer)⟩
    | round used _ ih =>
      obtain ⟨reached, free, before⟩ := ih
      refine ⟨(primed_prime _ _).symm.trans reached, free, fun fewer within => ?_⟩
      cases fewer with
      | zero => exact primed_zero _ ▸ used
      | succ fewer => exact primed_prime _ _ ▸ before fewer (Nat.lt_of_succ_lt_succ within)
  · rintro ⟨rfl, free, before⟩
    induction rounds generalizing base with
    | zero =>
      rw [primed_zero] at free ⊢
      exact .free free
    | succ rounds ih =>
      have used := before 0 (Nat.succ_pos rounds)
      rw [primed_zero] at used
      rw [← primed_prime] at free ⊢
      refine .round used (ih free fun fewer within => ?_)
      rw [primed_prime]
      exact before (fewer + 1) (Nat.succ_lt_succ within)

/-- The loop ends in one way only. -/
theorem Primes.unique {taken : List String} {base result other : String} {rounds others : Nat}
    (loop : Primes taken base rounds result) (again : Primes taken base others other) :
    rounds = others ∧ result = other := by
  induction loop generalizing others with
  | free free =>
    cases again with
    | free _ => exact ⟨rfl, rfl⟩
    | round used _ => exact absurd used free
  | round used _ ih =>
    cases again with
    | free free => exact absurd used free
    | round _ onward =>
      obtain ⟨rfl, rfl⟩ := ih onward
      exact ⟨rfl, rfl⟩

/-- The loop that computes a fresh name ends. -/
theorem exists_primes_freshName (base : String) (taken : List String) :
    ∃ rounds, Primes taken base rounds (freshName base taken) := by
  fun_induction freshName base taken with
  | case1 base used ih =>
    obtain ⟨rounds, onward⟩ := ih
    exact ⟨rounds + 1, .round used onward⟩
  | case2 base free => exact ⟨0, .free free⟩

/-- Names with different numbers of primes are different, so no more of them are in use than there
are names in use. -/
theorem le_card_of_primed_mem {base : String} {taken : List String} {count : Nat}
    (used : ∀ fewer < count, primed base fewer ∈ taken) : count ≤ taken.toFinset.card := by
  have fits : ∀ fewer ∈ Finset.range count, primed base fewer ∈ taken.toFinset :=
    fun fewer within => List.mem_toFinset.mpr (used fewer (Finset.mem_range.mp within))
  calc count = (Finset.range count).card := (Finset.card_range count).symm
    _ ≤ taken.toFinset.card := Finset.card_le_card_of_injOn (primed base) fits
        (primed_injective base).injOn

/-- **The fresh name is the least free one.** The loop ends after a number of rounds that is at most
the number of different names in use, and it can end in no other way. The fresh name has as many
primes as there were rounds, it is not in use, and the base with fewer primes always is. -/
theorem freshName_eq_primed (base : String) (taken : List String) :
    ∃ count ≤ taken.toFinset.card,
      (∀ rounds result, Primes taken base rounds result ↔
        rounds = count ∧ result = freshName base taken) ∧
      freshName base taken = primed base count ∧ freshName base taken ∉ taken ∧
      ∀ fewer < count, primed base fewer ∈ taken := by
  obtain ⟨count, loop⟩ := exists_primes_freshName base taken
  obtain ⟨reached, free, before⟩ := primes_iff.mp loop
  refine ⟨count, le_card_of_primed_mem before, fun rounds result => ?_, reached.symm, free, before⟩
  constructor
  · exact fun other => other.unique loop
  · rintro ⟨rfl, rfl⟩
    exact loop

-- A gap among the names in use ends the loop.
example : freshName "q" ["q'", "q", "q'''", "q"] = "q''" := by simp [freshName]

end AutomataKit
