import AutomataKit.Dfa.Run

/-!
# Words over the symbols of an automaton

A word is a sequence of symbols, whatever their names are; `Dfa.after` follows one through the
transitions. A run reads characters instead. It accepts a text exactly when the characters, one by
one, are the names of the symbols of a word that leads to an accepting state
(`Dfa.accepted_run_iff`).
-/

namespace AutomataKit

namespace Dfa

variable (dfa : Dfa)

/-- The state to which a word leads. -/
def after (state : dfa.State) (word : List dfa.Symbol) : dfa.State := word.foldl dfa.next state

/-- The names of the symbols of a word. -/
def spell (word : List dfa.Symbol) : List String := word.map dfa.label

theorem label_mem (symbol : dfa.Symbol) : dfa.label symbol ∈ dfa.alphabet := List.getElem_mem _

/-- Each of the names belongs to a state. -/
theorem exists_name_eq {name : String} (known : name ∈ dfa.states) :
    ∃ state, dfa.name state = name := by
  obtain ⟨place, inside, equal⟩ := List.getElem_of_mem known
  exact ⟨⟨place, inside⟩, equal⟩

/-- Each name in the alphabet belongs to a symbol. -/
theorem exists_label_eq {name : String} (known : name ∈ dfa.alphabet) :
    ∃ symbol, dfa.label symbol = name := by
  obtain ⟨place, inside, equal⟩ := List.getElem_of_mem known
  exact ⟨⟨place, inside⟩, equal⟩

variable {dfa}

@[simp] theorem after_nil (state : dfa.State) : dfa.after state [] = state := rfl

/-- A word leads where its rest leads from the first successor. -/
@[simp] theorem after_cons (state : dfa.State) (symbol : dfa.Symbol) (word : List dfa.Symbol) :
    dfa.after state (symbol :: word) = dfa.after (dfa.next state symbol) word := rfl

/-- Two words one after the other lead where the second leads from the end of the first. -/
theorem after_append (state : dfa.State) (first second : List dfa.Symbol) :
    dfa.after state (first ++ second) = dfa.after (dfa.after state first) second :=
  List.foldl_append

/-- A character is read as the symbol whose name it is. -/
theorem symbolOf?_eq_some_iff {c : Char} {symbol : dfa.Symbol} :
    dfa.symbolOf? c = some symbol ↔ dfa.label symbol = String.singleton c :=
  symbol?_eq_some_iff

/-- A character is read as no symbol when the alphabet does not have it. -/
theorem symbolOf?_eq_none_iff {c : Char} :
    dfa.symbolOf? c = none ↔ String.singleton c ∉ dfa.alphabet :=
  symbol?_eq_none_iff

/-- A walk stops before a character that is no symbol. -/
theorem walk_cons_of_none {c : Char} (unknown : dfa.symbolOf? c = none) (state : dfa.State)
    (rest : List Char) : dfa.walk state (c :: rest) = ⟨[], state, some c⟩ := by
  rw [walk, unknown]

/-- A walk takes a step for a character that is a symbol, and goes on with the rest. -/
theorem walk_cons_of_some {c : Char} {symbol : dfa.Symbol} (known : dfa.symbolOf? c = some symbol)
    (state : dfa.State) (rest : List Char) :
    dfa.walk state (c :: rest) =
      ⟨(state, c, dfa.next state symbol) :: (dfa.walk (dfa.next state symbol) rest).steps,
        (dfa.walk (dfa.next state symbol) rest).last,
        (dfa.walk (dfa.next state symbol) rest).stoppedBy⟩ := by
  rw [walk, known]

/-- A walk takes at most one step for each character. -/
theorem length_steps_walk_le (state : dfa.State) (chars : List Char) :
    (dfa.walk state chars).steps.length ≤ chars.length := by
  induction chars generalizing state with
  | nil => exact Nat.le_refl _
  | cons c rest ih =>
    cases found : dfa.symbolOf? c with
    | none =>
      rw [walk_cons_of_none found]
      exact Nat.zero_le _
    | some symbol =>
      rw [walk_cons_of_some found]
      exact Nat.succ_le_succ (ih _)

/-- A walk is not stopped exactly when its characters are the names in a word, and then it ends
where the word leads. -/
theorem walk_eq_iff (state last : dfa.State) (chars : List Char) :
    (dfa.walk state chars).stoppedBy = none ∧ (dfa.walk state chars).last = last ↔
      ∃ word, dfa.spell word = chars.map String.singleton ∧ dfa.after state word = last := by
  induction chars generalizing state with
  | nil =>
    constructor
    · rintro ⟨-, ended⟩
      exact ⟨[], rfl, ended⟩
    · rintro ⟨word, spelled, ended⟩
      have empty : word = [] := List.map_eq_nil_iff.mp spelled
      subst empty
      exact ⟨rfl, ended⟩
  | cons c rest ih =>
    cases found : dfa.symbolOf? c with
    | none =>
      rw [walk_cons_of_none found]
      constructor
      · rintro ⟨stopped, -⟩
        cases stopped
      · rintro ⟨word, spelled, -⟩
        have member : String.singleton c ∈ dfa.spell word := by
          rw [spelled]
          exact List.mem_cons_self
        obtain ⟨symbol, -, named⟩ := List.mem_map.mp member
        have known := symbolOf?_eq_some_iff.mpr named
        rw [found] at known
        cases known
    | some symbol =>
      rw [walk_cons_of_some found, ih]
      constructor
      · rintro ⟨word, spelled, ended⟩
        refine ⟨symbol :: word, ?_, ended⟩
        rw [spell, List.map_cons, symbolOf?_eq_some_iff.mp found]
        exact congrArg _ spelled
      · rintro ⟨word, spelled, ended⟩
        obtain ⟨first, others, rfl, named, spelled⟩ := List.map_eq_cons_iff.mp spelled
        have same : first = symbol :=
          Option.some.inj ((symbolOf?_eq_some_iff.mpr named).symm.trans found)
        subst same
        exact ⟨others, spelled, ended⟩

/-- **What a run accepts.** A text is accepted when its characters are the names in a word that
leads to an accepting state. -/
theorem accepted_run_iff (text : String) :
    (dfa.run text).accepted = true ↔
      ∃ word, dfa.spell word = text.toList.map String.singleton ∧
        dfa.accepts (dfa.after dfa.start word) = true := by
  have ends := walk_eq_iff dfa.start (dfa.walk dfa.start text.toList).last text.toList
  simp only [run, Walk.report, Bool.and_eq_true, Option.isNone_iff_eq_none]
  constructor
  · rintro ⟨unstopped, accepting⟩
    obtain ⟨word, spelled, ended⟩ := ends.mp ⟨unstopped, rfl⟩
    exact ⟨word, spelled, ended ▸ accepting⟩
  · rintro ⟨word, spelled, accepting⟩
    obtain ⟨unstopped, ended⟩ := (walk_eq_iff dfa.start _ text.toList).mpr ⟨word, spelled, rfl⟩
    exact ⟨unstopped, ended ▸ accepting⟩

/-- A text that is accepted is made of symbols. -/
theorem mem_alphabet_of_accepted {text : String} (accepted : (dfa.run text).accepted = true)
    {c : Char} (member : c ∈ text.toList) : String.singleton c ∈ dfa.alphabet := by
  obtain ⟨word, spelled, -⟩ := (accepted_run_iff text).mp accepted
  have named : String.singleton c ∈ dfa.spell word := by
    rw [spelled]
    exact List.mem_map_of_mem member
  obtain ⟨symbol, -, equal⟩ := List.mem_map.mp named
  rw [← equal]
  exact dfa.label_mem symbol

/-- A word of symbols that are single characters is read from a text. -/
theorem exists_text_of_single {word : List dfa.Symbol}
    (single : ∀ symbol ∈ word, (dfa.label symbol).length = 1) :
    ∃ text : String, dfa.spell word = text.toList.map String.singleton := by
  induction word with
  | nil => exact ⟨"", rfl⟩
  | cons symbol rest ih =>
    obtain ⟨text, spelled⟩ := ih fun other member =>
      single other (List.mem_cons_of_mem symbol member)
    have one := single symbol List.mem_cons_self
    rw [← String.length_toList] at one
    obtain ⟨c, chars⟩ := List.length_eq_one_iff.mp one
    have named : dfa.label symbol = String.singleton c := by
      apply String.toList_injective
      rw [chars, String.toList_singleton]
    refine ⟨String.singleton c ++ text, ?_⟩
    rw [String.toList_append, String.toList_singleton, List.singleton_append, List.map_cons,
      ← spelled, ← named]
    rfl

end Dfa

end AutomataKit
