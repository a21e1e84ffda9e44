import AutomataKit.Proofs.Dfa.Emptiness
import AutomataKit.Proofs.Dfa.Interning
import Mathlib.Computability.DFA

/-!
# Short words

A word as long as the number of states passes through some state twice, and what it does in between
can be left out. So every state that is reached is reached by a word shorter than the number of
states (`Dfa.exists_short_word`), and a search that finds an accepting state could show such a word
(`Dfa.isEmpty_ofJson_iff`).
-/

namespace AutomataKit

namespace Dfa

/-- The automaton as an abstract one over its positions. -/
def toDFA (dfa : Dfa) : DFA dfa.Symbol dfa.State where
  step := dfa.next
  start := dfa.start
  accept := {state | dfa.accepts state = true}

theorem exists_short_word (dfa : Dfa) (state : dfa.State) (word : List dfa.Symbol) :
    ∃ short, short.length < dfa.states.length ∧ dfa.after state short = dfa.after state word := by
  induction length : word.length using Nat.strong_induction_on generalizing word with
  | h count shorten =>
    by_cases bounded : word.length < dfa.states.length
    · exact ⟨word, bounded, rfl⟩
    · have long : Fintype.card dfa.State ≤ word.length := by
        rw [Fintype.card_fin]
        exact Nat.le_of_not_lt bounded
      obtain ⟨again, before, loop, rest, rfl, -, nonempty, arrives, returns, goesOn⟩ :=
        dfa.toDFA.evalFrom_split (s := state) long rfl
      have fewer : (before ++ rest).length < count := by
        have moves := List.length_pos_iff.mpr nonempty
        simp only [List.length_append] at length ⊢
        omega
      obtain ⟨short, bounded, same⟩ := shorten _ fewer (before ++ rest) rfl
      refine ⟨short, bounded, same.trans ?_⟩
      rw [after_append, show dfa.after state before = again from arrives]
      exact goesOn

/-- Some word is accepted exactly when one is that is shorter than the number of states. -/
theorem isEmpty_eq_false_iff_short {dfa : Dfa} :
    dfa.isEmpty = false ↔
      ∃ word, word.length < dfa.states.length ∧
        dfa.accepts (dfa.after dfa.start word) = true := by
  rw [isEmpty_eq_false_iff]
  constructor
  · rintro ⟨word, accepting⟩
    obtain ⟨short, bounded, same⟩ := dfa.exists_short_word dfa.start word
    exact ⟨short, bounded, same ▸ accepting⟩
  · rintro ⟨word, -, accepting⟩
    exact ⟨word, accepting⟩

/-- **What emptiness says of a description.** Every sequence of symbols leads to a state. The search
finds no accepting state exactly when no sequence of symbols is accepted, and when it finds one, a
sequence shorter than the number of states is accepted. -/
theorem isEmpty_ofJson_iff {value : Json} {dfa : Dfa} (read : ofJson value = .ok dfa) :
    ∃ doc, Document.ofJson value = .ok doc ∧
      (∀ word, doc.IsWord word →
        ∃ last ∈ doc.stateNames, doc.follow? doc.startName word = some last) ∧
      (dfa.isEmpty = true ↔ ∀ word, doc.IsWord word → ¬ doc.Accepts word) ∧
      (dfa.isEmpty = false →
        ∃ word, doc.IsWord word ∧ word.length < doc.stateNames.length ∧ doc.Accepts word) := by
  obtain ⟨doc, sound, entries, -, rfl⟩ := ofJson_eq_ok_iff.mp read
  refine ⟨doc, entries, ?_, ?_, ?_⟩
  · intro word symbols
    obtain ⟨positions, rfl⟩ := exists_spell_eq sound symbols
    rw [← name_start_ofDocument sound, follow?_name_spell]
    exact ⟨_, List.getElem_mem _, rfl⟩
  · rw [isEmpty_eq_true_iff]
    constructor
    · intro rejected word symbols accepted
      obtain ⟨positions, rfl⟩ := exists_spell_eq sound symbols
      rw [accepts_spell_iff, rejected] at accepted
      cases accepted
    · intro rejected positions
      rw [← Bool.not_eq_true, ← accepts_spell_iff]
      exact rejected _ (isWord_spell sound positions)
  · intro nonempty
    obtain ⟨positions, bounded, accepting⟩ := isEmpty_eq_false_iff_short.mp nonempty
    refine ⟨_, isWord_spell sound positions, ?_, (accepts_spell_iff sound positions).mpr accepting⟩
    rw [spell, List.length_map]
    exact bounded

/-- Three states in a row, the last of which accepts, and one symbol of four characters. -/
def chainDescription : Description where
  states := ["first", "second", "third"]
  alphabet := ["next"]
  transitions := .ofList [
    ("first", .ofList [("next", "second")]),
    ("second", .ofList [("next", "third")]),
    ("third", .ofList [("next", "third")])]
  startState := "first"
  acceptStates := ["third"]

/-- The automaton of this description. -/
def chain : Dfa where
  states := ["first", "second", "third"]
  alphabet := ["next"]
  table := #v[#v[1], #v[2], #v[2]]
  start := 0
  accepting := #v[false, false, true]
  states_nodup := by decide
  alphabet_nodup := by decide

/-- In the chain the bound is met: of the sequences shorter than three only the longest is accepted.
-/
theorem isEmpty_chain :
    ofJson chainDescription.toJson = .ok chain ∧ chain.isEmpty = false ∧
      ∃ doc, Document.ofJson chainDescription.toJson = .ok doc ∧
        (∃ word, doc.IsWord word ∧ word.length < 3 ∧ doc.Accepts word) ∧
        ¬ doc.Accepts [] ∧ ¬ doc.Accepts ["next"] := by
  have read : ofJson chainDescription.toJson = .ok chain := rfl
  have found : chain.isEmpty = false :=
    isEmpty_eq_false_iff_short.mpr ⟨[⟨0, Nat.zero_lt_one⟩, ⟨0, Nat.zero_lt_one⟩], by decide, rfl⟩
  obtain ⟨doc, entries, -, -, short⟩ := isEmpty_ofJson_iff read
  refine ⟨read, found, doc, entries, ?_⟩
  have accepted := short found
  cases entries
  refine ⟨accepted, ?_, ?_⟩
  · rintro ⟨last, member, ⟨⟩⟩
    revert member
    decide
  · rintro ⟨last, member, ⟨⟩⟩
    revert member
    decide

end Dfa

end AutomataKit
