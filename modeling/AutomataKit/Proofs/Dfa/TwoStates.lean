import AutomataKit.Proofs.Dfa.Enumeration
import AutomataKit.Proofs.Dfa.Validity
import Mathlib.Data.Fintype.BigOperators
import Mathlib.Data.Fintype.Pi
import Mathlib.Data.Fintype.Powerset
import Mathlib.Data.List.NodupEquivFin
import Mathlib.Data.Nat.Bitwise

/-!
# Every automaton with two states is listed once

Over an alphabet without repetitions the bits of an index are a transition function on the states
`q0` and `q1` together with a set of accepting states (`Dfa.Enumeration.decoded`). Different indices
give different ones, and there are as many indices as there are transition functions with accept
sets, so each of them has exactly one index (`Dfa.Enumeration.enumerate_all`).
-/

namespace AutomataKit

namespace Dfa

namespace Enumeration

/-- One of the states `q0` and `q1`. -/
abbrev TwoState : Type := { name // name ∈ states }

/-- One of the symbols of an alphabet. -/
abbrev SymbolOf (alphabet : List String) : Type := { name // name ∈ alphabet }

/-- A transition function on the two states, and the states that accept. -/
abbrev Behavior (alphabet : List String) : Type :=
  (TwoState → SymbolOf alphabet → TwoState) × Finset TwoState

/-- The description starts in `q0` and has the transitions and the accepting states of a behavior.
-/
structure Realizes {alphabet : List String} (description : Description)
    (behavior : Behavior alphabet) : Prop where
  states_eq : description.states = ["q0", "q1"]
  alphabet_eq : description.alphabet = alphabet
  start_eq : description.startState = "q0"
  next_eq : ∀ (state : TwoState) (symbol : SymbolOf alphabet),
    ((description.transitions.find? state).bind fun row => row.find? symbol) =
      some (behavior.1 state symbol).val
  accept_iff : ∀ state : TwoState, state.val ∈ description.acceptStates ↔ state ∈ behavior.2

variable {alphabet : List String}

/-- A description realizes at most one behavior. -/
theorem Realizes.unique {description : Description} {first second : Behavior alphabet}
    (left : Realizes description first) (right : Realizes description second) :
    first = second := by
  apply Prod.ext
  · funext state symbol
    apply Subtype.ext
    have same := (left.next_eq state symbol).symm.trans (right.next_eq state symbol)
    exact Option.some.inj same
  · apply Finset.ext
    intro state
    rw [← left.accept_iff, right.accept_iff]

/-! ## The behavior at an index -/

theorem target_mem (bit : Bool) : target bit ∈ states := by
  cases bit <;> decide

theorem target_inj {first second : Bool} (same : target first = target second) :
    first = second := by
  revert first second
  decide

/-- Of numbers with few bits those bits are all there is to compare. -/
theorem eq_of_bits {count first second : Nat} (firstLess : first < 2 ^ count)
    (secondLess : second < 2 ^ count)
    (same : ∀ place < count, first.testBit place = second.testBit place) : first = second := by
  apply Nat.eq_of_testBit_eq
  intro place
  by_cases inside : place < count
  · exact same place inside
  · have power : 2 ^ count ≤ 2 ^ place := Nat.pow_le_pow_right Nat.two_pos (Nat.le_of_not_lt inside)
    rw [Nat.testBit_lt_two_pow (Nat.lt_of_lt_of_le firstLess power),
      Nat.testBit_lt_two_pow (Nat.lt_of_lt_of_le secondLess power)]

/-- In a list without repetitions what stands at a place does not stand behind it. -/
theorem not_mem_drop_succ (distinct : alphabet.Nodup) {place : Nat} {symbol : String}
    (stands : alphabet[place]? = some symbol) : symbol ∉ alphabet.drop (place + 1) := by
  obtain ⟨inside, rfl⟩ := List.getElem?_eq_some_iff.mp stands
  intro later
  obtain ⟨further, _, again⟩ := List.getElem_of_mem later
  rw [List.getElem_drop] at again
  have same := (List.getElem_inj distinct).mp again
  omega

theorem mem_accepting_iff {mask number : Nat} {name : String}
    (named : states[number]? = some name) : name ∈ accepting mask ↔ mask.testBit number := by
  rcases number with _ | _ | number
  · cases named
    simp [accepting, states]
  · cases named
    simp [accepting, states]
  · cases named

/-- The place of the transition from a state on a symbol among the bits of a table. -/
def placeOf (state : TwoState) (symbol : SymbolOf alphabet) : Nat :=
  states.idxOf state.val * alphabet.length + alphabet.idxOf symbol.val

variable (alphabet) in
/-- The behavior that the bits of an index give. -/
def decoded (index : Nat) : Behavior alphabet :=
  (fun state symbol => ⟨target ((index / 4).testBit (placeOf state symbol)), target_mem _⟩,
    Finset.univ.filter fun state => (index % 4).testBit (states.idxOf state.val))

theorem realizes_entry (distinct : alphabet.Nodup) (index : Nat) :
    Realizes (entry alphabet index) (decoded alphabet index) where
  states_eq := rfl
  alphabet_eq := rfl
  start_eq := rfl
  next_eq := by
    intro state symbol
    have named : states[states.idxOf state.val]? = some state.val :=
      List.getElem?_idxOf state.property
    have stands : alphabet[alphabet.idxOf symbol.val]? = some symbol.val :=
      List.getElem?_idxOf symbol.property
    rw [find?_transitions_entry alphabet index named, Option.bind_some,
      find?_row stands (not_mem_drop_succ distinct stands)]
    rfl
  accept_iff := by
    intro state
    rw [decoded, Finset.mem_filter_univ]
    exact mem_accepting_iff (List.getElem?_idxOf state.property)

/-- Every bit of a table belongs to a state and a symbol. -/
theorem exists_placeOf_eq (distinct : alphabet.Nodup) {place : Nat}
    (inside : place < 2 * alphabet.length) :
    ∃ (state : TwoState) (symbol : SymbolOf alphabet), placeOf state symbol = place := by
  have number : place / alphabet.length < states.length := Nat.div_lt_of_lt_mul (by
    rw [Nat.mul_comm]
    exact inside)
  have column : place % alphabet.length < alphabet.length := Nat.mod_lt _ (by omega)
  refine ⟨⟨states[place / alphabet.length], List.getElem_mem number⟩,
    ⟨alphabet[place % alphabet.length], List.getElem_mem column⟩, ?_⟩
  rw [placeOf, states_nodup.idxOf_getElem, distinct.idxOf_getElem]
  exact Nat.div_add_mod' place alphabet.length

/-- Different indices give different behaviors. -/
theorem eq_of_decoded_eq (distinct : alphabet.Nodup) {first second : Nat}
    (firstLess : first < size alphabet) (secondLess : second < size alphabet)
    (same : decoded alphabet first = decoded alphabet second) : first = second := by
  have number {index : Nat} (inside : index < size alphabet) :
      index / 4 < 2 ^ (2 * alphabet.length) :=
    Nat.div_lt_of_lt_mul (Nat.lt_of_lt_of_eq inside (Nat.mul_comm _ 4))
  have mask (index : Nat) : index % 4 < 2 ^ 2 := Nat.mod_lt index (by decide)
  have tables : first / 4 = second / 4 := by
    apply eq_of_bits (number firstLess) (number secondLess)
    intro place inside
    obtain ⟨state, symbol, rfl⟩ := exists_placeOf_eq distinct inside
    have next := congrArg (fun behavior => (behavior.1 state symbol).val) same
    exact target_inj next
  have masks : first % 4 = second % 4 := by
    apply eq_of_bits (mask first) (mask second)
    intro place inside
    have accept := congrArg
      (fun behavior => (⟨states[place], List.getElem_mem inside⟩ : TwoState) ∈ behavior.2) same
    have place_eq : states.idxOf states[place] = place := states_nodup.idxOf_getElem place inside
    simp only [decoded, Finset.mem_filter_univ, eq_iff_iff] at accept
    rw [place_eq] at accept
    exact Bool.eq_iff_iff.mpr accept
  rw [← Nat.div_add_mod first 4, ← Nat.div_add_mod second 4, tables, masks]

/-- There are as many behaviors as indices. -/
theorem card_behavior (distinct : alphabet.Nodup) :
    Fintype.card (Behavior alphabet) = size alphabet := by
  have symbols : Fintype.card (SymbolOf alphabet) = alphabet.length := by
    rw [← Fintype.card_fin alphabet.length]
    exact (Fintype.card_congr (distinct.getEquiv alphabet)).symm
  have twoStates : Fintype.card TwoState = 2 := rfl
  have tables : tableCount alphabet = (2 ^ alphabet.length) ^ 2 := by
    rw [← Nat.pow_mul, Nat.mul_comm]
    rfl
  rw [Fintype.card_prod, Fintype.card_finset, Fintype.card_fun, Fintype.card_fun, symbols,
    twoStates, size, tables]
  rfl

/-- Every behavior is the one at some index. -/
theorem exists_decoded_eq (distinct : alphabet.Nodup) (behavior : Behavior alphabet) :
    ∃ index < size alphabet, decoded alphabet index = behavior := by
  have bijective : Function.Bijective
      fun index : Fin (size alphabet) => decoded alphabet index := by
    apply (Fintype.bijective_iff_injective_and_card _).mpr
    refine ⟨?_, by rw [Fintype.card_fin, card_behavior distinct]⟩
    intro first second same
    exact Fin.ext (eq_of_decoded_eq distinct first.isLt second.isLt same)
  obtain ⟨index, found⟩ := bijective.surjective behavior
  exact ⟨index, index.isLt, found⟩

/-- Every entry passes the checks. -/
theorem defect?_entry (distinct : alphabet.Nodup) (index : Nat) :
    defect? (entry alphabet index).toJson = none := by
  apply (defect?_eq_none_iff_isDescription _).1.mpr
  apply Description.isDescription_toJson _ states_nodup distinct
  · intro state member
    have named : states[states.idxOf state]? = some state := List.getElem?_idxOf member
    refine ⟨_, find?_transitions_entry alphabet index named, ?_⟩
    intro symbol known
    have stands : alphabet[alphabet.idxOf symbol]? = some symbol := List.getElem?_idxOf known
    exact ⟨_, target_mem _, find?_row stands (not_mem_drop_succ distinct stands) _ _⟩
  · exact List.mem_cons_self
  · intro state member
    obtain ⟨⟨name, place⟩, kept, rfl⟩ := List.mem_map.mp member
    exact List.fst_mem_of_mem_zipIdx (List.mem_of_mem_filter kept)

/-- **The list is complete and without repetitions.** When as many automata are requested as there
are, every one of them passes the checks, and every transition function on the two states has with
every set of accepting states exactly one index. -/
theorem enumerate_all (alphabet : List String) (distinct : alphabet.Nodup) (maxStates count : Int)
    (all : size alphabet ≤ count) :
    let listed := enumerate alphabet maxStates count
    (∀ description ∈ listed, defect? description.toJson = none) ∧
      (∀ behavior : Behavior alphabet,
        ∃! index : Fin listed.size, Realizes listed[index] behavior) ∧
      (∀ index : Fin listed.size, ∃ behavior : Behavior alphabet,
        Realizes listed[index] behavior) ∧
      listed.toList.Nodup ∧ listed.size = size alphabet ∧
      Fintype.card (Behavior alphabet) = size alphabet := by
  intro listed
  have length : listed.size = size alphabet := by
    change (enumerate alphabet maxStates count).size = _
    rw [size_enumerate, supply]
    omega
  have realizes (index : Fin listed.size) :
      Realizes listed[index] (decoded alphabet index) := by
    change Realizes (enumerate alphabet maxStates count)[index.val] _
    rw [getElem_enumerate]
    exact realizes_entry distinct index
  have unique (first second : Fin listed.size) {behavior : Behavior alphabet}
      (left : Realizes listed[first] behavior) (right : Realizes listed[second] behavior) :
      first = second := by
    apply Fin.ext
    apply eq_of_decoded_eq distinct (length ▸ first.isLt) (length ▸ second.isLt)
    rw [(realizes first).unique left, (realizes second).unique right]
  refine ⟨?_, ?_, fun index => ⟨_, realizes index⟩, ?_, length, card_behavior distinct⟩
  · intro description member
    obtain ⟨index, inside, rfl⟩ := Array.getElem_of_mem member
    rw [getElem_enumerate]
    exact defect?_entry distinct index
  · intro behavior
    obtain ⟨index, inside, rfl⟩ := exists_decoded_eq distinct behavior
    refine ⟨⟨index, length.symm ▸ inside⟩, realizes _, ?_⟩
    intro other found
    exact unique _ _ found (realizes _)
  · apply List.nodup_iff_injective_getElem.mpr
    intro first second same
    have equal : listed[first.val] = listed[second.val] := by simpa using same
    have found : Realizes listed[first.val] (decoded alphabet second) := by
      rw [equal]
      exact realizes ⟨second, second.isLt⟩
    exact Fin.ext (congrArg Fin.val
      (unique ⟨first, first.isLt⟩ ⟨second, second.isLt⟩ found (realizes _)))

/-- The behavior of the automaton for an even number of the letter a. -/
def evenBehavior : Behavior ["a", "b"] :=
  (fun state symbol =>
      if symbol.val = "a" then ⟨target (state.val == "q0"), target_mem _⟩ else state,
    {⟨"q0", List.mem_cons_self⟩})

/-- Of the 64 automata over two letters exactly one has this behavior. -/
theorem existsUnique_evenBehavior :
    ["a", "b"].Nodup ∧ (size ["a", "b"] : Int) ≤ 64 ∧
      (∃! index : Fin (enumerate ["a", "b"] 2 64).size,
        Realizes (enumerate ["a", "b"] 2 64)[index] evenBehavior) ∧
      Fintype.card (Behavior ["a", "b"]) = 64 := by
  have distinct : ["a", "b"].Nodup := by decide
  have all : (size ["a", "b"] : Int) ≤ 64 := by decide
  obtain ⟨-, unique, -, -, -, count⟩ := enumerate_all ["a", "b"] distinct 2 64 all
  exact ⟨distinct, all, unique evenBehavior, count⟩

end Enumeration

end Dfa

end AutomataKit
