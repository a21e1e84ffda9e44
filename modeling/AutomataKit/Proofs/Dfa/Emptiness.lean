import AutomataKit.Dfa.Description
import AutomataKit.Dfa.Document
import AutomataKit.Proofs.Dfa.Search

/-!
# The decision on emptiness

The search follows every symbol, and so decides whether a word of symbols is accepted
(`Dfa.isEmpty_eq_true_iff`). A run reads single characters. The texts are the words whose symbols
are single characters, and the decision is one about texts up to the words with another symbol in
them.
-/

namespace AutomataKit

namespace Dfa

variable {dfa : Dfa}

/-- The search for an accepting state finds none exactly when no word is accepted. -/
theorem isEmpty_eq_true_iff :
    dfa.isEmpty = true ↔ ∀ word, dfa.accepts (dfa.after dfa.start word) = false := by
  unfold isEmpty
  rw [Bool.not_eq_true', List.any_eq_false]
  constructor
  · intro turns word
    apply Bool.eq_false_iff.mpr
    intro accepting
    have some : ¬ dfa.acceptStates.isEmpty = true := by
      intro none
      rw [List.isEmpty_iff] at none
      have member := mem_acceptStates.mpr accepting
      rw [none] at member
      cases member
    rw [emptinessTurns, if_neg some] at turns
    obtain ⟨onward, searched, ended⟩ :=
      (Frontier.searched_initial dfa).searched_turns dfa.accepts
    rcases ended with drained | ⟨state, member, stops⟩
    · exact turns _ ((searched.mem_past_iff drained _).mpr ⟨word, rfl⟩) accepting
    · exact turns state member stops
  · intro rejected state member
    by_cases none : dfa.acceptStates.isEmpty = true
    · rw [emptinessTurns, if_pos none] at member
      cases member
    · rw [emptinessTurns, if_neg none] at member
      obtain ⟨onward, searched, -⟩ :=
        (Frontier.searched_initial dfa).searched_turns dfa.accepts
      obtain ⟨word, rfl⟩ := searched.reached state (List.mem_append_left _ member)
      rw [rejected word]
      exact Bool.false_ne_true

theorem isEmpty_eq_false_iff :
    dfa.isEmpty = false ↔ ∃ word, dfa.accepts (dfa.after dfa.start word) = true := by
  rw [← Bool.not_eq_true, isEmpty_eq_true_iff]
  simp only [Classical.not_forall, Bool.not_eq_false]

/-- Where the search finds no accepting state, no text is accepted. -/
theorem accepted_run_of_isEmpty (empty : dfa.isEmpty = true) (text : String) :
    (dfa.run text).accepted = false := by
  apply Bool.eq_false_iff.mpr
  intro accepted
  obtain ⟨word, -, accepting⟩ := (accepted_run_iff text).mp accepted
  rw [isEmpty_eq_true_iff.mp empty word] at accepting
  cases accepting

/-- Where no text is accepted, neither is a word of symbols that are single characters. -/
theorem accepts_after_of_texts (texts : ∀ text, (dfa.run text).accepted = false)
    {word : List dfa.Symbol} (single : ∀ symbol ∈ word, (dfa.label symbol).length = 1) :
    dfa.accepts (dfa.after dfa.start word) = false := by
  obtain ⟨text, spelled⟩ := exists_text_of_single single
  apply Bool.eq_false_iff.mpr
  intro accepting
  have accepted := (accepted_run_iff text).mpr ⟨word, spelled, accepting⟩
  rw [texts text] at accepted
  cases accepted

variable (dfa) in
/-- **What emptiness says of texts.** The search finds no accepting state exactly when no text is
accepted and no word with a symbol that is not a single character is. So when every symbol is a
single character, it decides whether a text is accepted. -/
theorem isEmpty_iff_texts :
    (dfa.isEmpty = true ↔
      (∀ text, (dfa.run text).accepted = false) ∧
        ∀ word : List dfa.Symbol, (∃ symbol ∈ word, (dfa.label symbol).length ≠ 1) →
          dfa.accepts (dfa.after dfa.start word) = false) ∧
    ((∀ symbol ∈ dfa.alphabet, symbol.length = 1) →
      (dfa.isEmpty = true ↔ ∀ text, (dfa.run text).accepted = false)) := by
  refine ⟨⟨?_, ?_⟩, ?_⟩
  · intro empty
    refine ⟨accepted_run_of_isEmpty empty, ?_⟩
    intro word _
    exact isEmpty_eq_true_iff.mp empty word
  · rintro ⟨texts, others⟩
    rw [isEmpty_eq_true_iff]
    intro word
    by_cases single : ∀ symbol ∈ word, (dfa.label symbol).length = 1
    · exact accepts_after_of_texts texts single
    · apply others word
      simpa using single
  · intro single
    refine ⟨accepted_run_of_isEmpty, ?_⟩
    intro texts
    rw [isEmpty_eq_true_iff]
    intro word
    exact accepts_after_of_texts texts fun symbol _ => single _ (List.getElem_mem _)

/-- A description with one symbol, of two characters, that leads to the accepting state. -/
def twoLettersDescription : Description where
  states := ["before", "after"]
  alphabet := ["ab"]
  transitions := .ofList [
    ("before", .ofList [("ab", "after")]),
    ("after", .ofList [("ab", "after")])]
  startState := "before"
  acceptStates := ["after"]

/-- The automaton of this description. -/
def twoLetters : Dfa where
  states := ["before", "after"]
  alphabet := ["ab"]
  table := #v[#v[1], #v[1]]
  start := 0
  accepting := #v[false, true]
  states_nodup := by decide
  alphabet_nodup := by decide

/-- The search goes through a symbol that no run reads: no text is accepted, and yet the language
does not count as empty. -/
theorem isEmpty_twoLetters :
    ofJson twoLettersDescription.toJson = .ok twoLetters ∧
      ¬ (twoLetters.isEmpty = true ↔ ∀ text, (twoLetters.run text).accepted = false) := by
  refine ⟨rfl, ?_⟩
  intro agree
  have texts (text : String) : (twoLetters.run text).accepted = false := by
    unfold run
    cases text.toList with
    | nil => rfl
    | cons c rest =>
      have unknown : twoLetters.symbolOf? c = none := by
        rw [symbolOf?_eq_none_iff]
        intro member
        have same : String.singleton c = "ab" := List.mem_singleton.mp member
        have lengths := congrArg (fun name => name.toList.length) same
        rw [String.toList_singleton] at lengths
        cases lengths
      rw [walk_cons_of_none unknown]
      rfl
  have accepting : twoLetters.accepts
      (twoLetters.after twoLetters.start [⟨0, Nat.zero_lt_one⟩]) = true := rfl
  rw [isEmpty_eq_true_iff.mp (agree.mpr texts)] at accepting
  cases accepting

end Dfa

end AutomataKit
