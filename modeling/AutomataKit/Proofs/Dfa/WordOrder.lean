import Mathlib.Data.List.Shortlex
import Mathlib.Data.Prod.Lex
import Mathlib.Order.Fin.Basic
import AutomataKit.Proofs.Dfa.Interning

/-!
# The order of words

Words are compared first by length and then symbol by symbol, by the places of the symbols in the
alphabet. Of the words that lead to a state one is the first, its access word (`Dfa.access`). Read
as names it is the first sequence of symbols by which the description leads to the state
(`Dfa.isAccess_spell`).
-/

namespace AutomataKit

namespace Dfa

variable {dfa : Dfa}

/-! ## Words of positions -/

/-- The rank of a word. The shorter of two words has the lower rank, and of two words of one length
the one that has the lower symbol where they first differ. -/
def rank (word : List dfa.Symbol) : ℕ ×ₗ List dfa.Symbol := toLex (word.length, word)

/-- Ranks are ordered as the words are: by length, and then by the symbols. -/
theorem rank_lt_rank_iff {first second : List dfa.Symbol} :
    rank first < rank second ↔ List.Shortlex (· < ·) first second :=
  Iff.rfl

/-- A word is known by its rank. -/
theorem rank_injective {first second : List dfa.Symbol} (same : rank first = rank second) :
    first = second :=
  congrArg (fun rank => (ofLex rank).2) same

/-- A longer word has a higher rank. -/
theorem rank_lt_concat (word : List dfa.Symbol) (symbol : dfa.Symbol) :
    rank word < rank (word ++ [symbol]) := by
  apply List.Shortlex.of_length_lt
  rw [List.length_append, List.length_singleton]
  exact Nat.lt_succ_self _

/-- The last symbol decides between words that agree before it. -/
theorem rank_concat_lt_of_lt (word : List dfa.Symbol) {symbol other : dfa.Symbol}
    (before : symbol < other) : rank (word ++ [symbol]) < rank (word ++ [other]) :=
  List.Shortlex.append_left ((List.shortlex_singleton_iff symbol other).mpr before) word

/-- Where words of one length differ, what is appended to them does not matter. -/
theorem lex_append_of_lex {first second : List dfa.Symbol}
    (earlier : List.Lex (· < ·) first second) (same : first.length = second.length)
    (left right : List dfa.Symbol) : List.Lex (· < ·) (first ++ left) (second ++ right) := by
  induction earlier with
  | nil => cases same
  | cons _ ih => exact .cons (ih (Nat.succ.inj same))
  | rel before => exact .rel before

/-- Extensions by one symbol are in the order of the words, whatever the symbols. -/
theorem rank_concat_lt_concat {first second : List dfa.Symbol} (earlier : rank first < rank second)
    (symbol other : dfa.Symbol) : rank (first ++ [symbol]) < rank (second ++ [other]) := by
  rcases List.shortlex_def.mp (rank_lt_rank_iff.mp earlier) with shorter | ⟨same, lex⟩
  · apply List.Shortlex.of_length_lt
    simpa using shorter
  · apply List.Shortlex.of_lex
    · simpa using same
    · exact lex_append_of_lex lex same _ _

/-! ## Access words -/

/-- Among the words that lead to a state is one of the lowest rank. -/
theorem exists_first_word {state : dfa.State} (reached : ∃ word, dfa.after dfa.start word = state) :
    ∃ word, dfa.after dfa.start word = state ∧
      ∀ other, dfa.after dfa.start other = state → rank word ≤ rank other := by
  have founded : WellFounded (List.Shortlex fun first second : dfa.Symbol => first < second) :=
    List.Shortlex.wf wellFounded_lt
  obtain ⟨word, leads, first⟩ :=
    founded.has_min {word | dfa.after dfa.start word = state} reached
  exact ⟨word, leads, fun other arrives => not_lt.mp (first other arrives)⟩

open Classical in
/-- The access word of a state: the first of the words that lead to it from the start state. -/
noncomputable def access (dfa : Dfa) (state : dfa.State) : List dfa.Symbol :=
  if reached : ∃ word, dfa.after dfa.start word = state then (exists_first_word reached).choose
  else []

/-- The access word of a state leads to it. -/
theorem after_access {state : dfa.State} (reached : ∃ word, dfa.after dfa.start word = state) :
    dfa.after dfa.start (dfa.access state) = state := by
  rw [access, dif_pos reached]
  exact (exists_first_word reached).choose_spec.1

/-- No word that leads to a state comes before its access word. -/
theorem rank_access_le {state : dfa.State} {word : List dfa.Symbol}
    (leads : dfa.after dfa.start word = state) : rank (dfa.access state) ≤ rank word := by
  rw [access, dif_pos ⟨word, leads⟩]
  exact (exists_first_word ⟨word, leads⟩).choose_spec.2 word leads

/-- A word that leads to a state and comes before all others is its access word. -/
theorem access_eq_of_first {state : dfa.State} {word : List dfa.Symbol}
    (leads : dfa.after dfa.start word = state)
    (first : ∀ other, dfa.after dfa.start other = state → rank word ≤ rank other) :
    dfa.access state = word :=
  rank_injective (le_antisymm (rank_access_le leads) (first _ (after_access ⟨word, leads⟩)))

/-! ## Sequences of names -/

namespace Document

/-- A sequence of symbols comes before another when it is shorter, or of the same length and has
the symbol that stands earlier in the alphabet where the two first differ. -/
def Precedes (doc : Document) (first second : List String) : Prop :=
  List.Shortlex (fun one other => doc.symbolNames.idxOf one < doc.symbolNames.idxOf other) first
    second

/-- The sequence is the first by which the description leads from the start state to a state. -/
structure IsAccess (doc : Document) (state : String) (word : List String) : Prop where
  isWord : doc.IsWord word
  leads : doc.follow? doc.startName word = some state
  first : ∀ other, doc.IsWord other → doc.follow? doc.startName other = some state →
    other = word ∨ doc.Precedes word other

end Document

/-- A symbol stands in the alphabet where it is said to. -/
theorem idxOf_label (dfa : Dfa) (symbol : dfa.Symbol) :
    dfa.alphabet.idxOf (dfa.label symbol) = symbol :=
  dfa.alphabet_nodup.idxOf_getElem symbol.val symbol.isLt

variable {doc : Document} (sound : doc.WellFormed)

/-- Words come in the same order when they are spelled by the names of their symbols. -/
theorem lex_spell {first second : List (ofDocument doc sound).Symbol}
    (earlier : List.Lex (· < ·) first second) :
    List.Lex (fun one other => doc.symbolNames.idxOf one < doc.symbolNames.idxOf other)
      ((ofDocument doc sound).spell first) ((ofDocument doc sound).spell second) := by
  induction earlier with
  | nil => exact .nil
  | cons _ ih => exact .cons ih
  | rel before =>
    refine .rel ?_
    change (ofDocument doc sound).alphabet.idxOf _ < (ofDocument doc sound).alphabet.idxOf _
    rw [idxOf_label, idxOf_label]
    exact before

/-- The names of two words are in the order of the words. -/
theorem precedes_spell {first second : List (ofDocument doc sound).Symbol}
    (earlier : rank first < rank second) :
    doc.Precedes ((ofDocument doc sound).spell first) ((ofDocument doc sound).spell second) := by
  rcases List.shortlex_def.mp (rank_lt_rank_iff.mp earlier) with shorter | ⟨same, lex⟩
  · apply List.Shortlex.of_length_lt
    simpa [spell] using shorter
  · apply List.Shortlex.of_lex
    · simpa [spell] using same
    · exact lex_spell sound lex

/-- The access word of a state, read as names. -/
theorem isAccess_spell {state : (ofDocument doc sound).State}
    (reached : ∃ word, (ofDocument doc sound).after (ofDocument doc sound).start word = state) :
    doc.IsAccess ((ofDocument doc sound).name state)
      ((ofDocument doc sound).spell ((ofDocument doc sound).access state)) where
  isWord := isWord_spell sound _
  leads := by rw [← name_start_ofDocument sound, follow?_name_spell, after_access reached]
  first := by
    intro other symbols leads
    obtain ⟨positions, rfl⟩ := exists_spell_eq sound symbols
    rw [← name_start_ofDocument sound, follow?_name_spell] at leads
    have arrives := (ofDocument doc sound).name_injective (Option.some.inj leads)
    rcases (rank_access_le arrives).eq_or_lt with same | later
    · exact .inl (congrArg _ (rank_injective same.symm))
    · exact .inr (precedes_spell sound later)

end Dfa

end AutomataKit
