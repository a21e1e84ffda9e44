import AutomataKit.Proofs.Dfa.Validity
import AutomataKit.Proofs.Dfa.Words

/-!
# The automaton of a description, by its names

An automaton works with positions, a description with names. The transitions of a description can be
followed by names alone (`Dfa.Document.follow?`). Read back as names, the states that the automaton
goes through are those to which the description leads, it starts where the description says, and the
accepting states are the listed ones.
-/

namespace AutomataKit

namespace Dfa

namespace Document

variable (doc : Document)

/-- The name of the start state. -/
def startName : String := doc.start.text?.getD ""

/-- The name of the state to which a sequence of symbols leads, symbol by symbol. -/
def follow? (state : String) (word : List String) : Option String := word.foldlM doc.target? state

/-- All symbols in the sequence are symbols of the alphabet. -/
def IsWord (word : List String) : Prop := ∀ symbol ∈ word, symbol ∈ doc.symbolNames

/-- The sequence leads from the start state to one of the accepting states. -/
def Accepts (word : List String) : Prop :=
  ∃ last ∈ doc.acceptNames, doc.follow? doc.startName word = some last

variable {doc}

/-- A word is followed from the target of its first symbol on. -/
theorem follow?_cons (state symbol : String) (word : List String) :
    doc.follow? state (symbol :: word) =
      (doc.target? state symbol).bind fun next => doc.follow? next word :=
  rfl

/-- In a sound description the start state is a string. -/
theorem WellFormed.start_eq (sound : doc.WellFormed) : doc.start = .str doc.startName := by
  obtain ⟨start, -, entry⟩ := sound.start_mem
  unfold startName
  rw [entry]
  rfl

/-- In a sound description the start state is one of the states. -/
theorem WellFormed.startName_mem (sound : doc.WellFormed) : doc.startName ∈ doc.stateNames := by
  obtain ⟨start, member, entry⟩ := sound.start_mem
  rw [sound.start_eq] at entry
  cases entry
  exact member

end Document

variable {doc : Document} (sound : doc.WellFormed)

theorem getElem_ofFn_ofFn {α : Type} {rows columns : Nat} (entry : Fin rows → Fin columns → α)
    (row : Fin rows) (column : Fin columns) :
    (Vector.ofFn fun row => Vector.ofFn fun column => entry row column)[row][column] =
      entry row column := by
  simp

/-- The table leads where the description says. -/
theorem next_ofDocument (state : Fin doc.stateNames.length)
    (symbol : Fin doc.symbolNames.length) :
    (ofDocument doc sound).next state symbol = doc.targetIndex sound state symbol :=
  getElem_ofFn_ofFn (doc.targetIndex sound) state symbol

/-- A transition of the automaton is the one that the description has under the two names. -/
theorem target?_name_label (state : (ofDocument doc sound).State)
    (symbol : (ofDocument doc sound).Symbol) :
    doc.target? ((ofDocument doc sound).name state) ((ofDocument doc sound).label symbol) =
      some ((ofDocument doc sound).name ((ofDocument doc sound).next state symbol)) := by
  obtain ⟨found, member⟩ := sound.target_get state symbol
  have named : (ofDocument doc sound).name (doc.targetIndex sound state symbol) = _ :=
    List.getElem_idxOf (List.idxOf_lt_length_of_mem member)
  rw [next_ofDocument sound state symbol, named]
  exact (Option.some_get found).symm

/-- The automaton accepts in the states that the description lists. -/
theorem accepts_ofDocument_iff (state : (ofDocument doc sound).State) :
    (ofDocument doc sound).accepts state = true ↔
      (ofDocument doc sound).name state ∈ doc.acceptNames := by
  have listed : (ofDocument doc sound).accepts state =
      doc.acceptNames.contains ((ofDocument doc sound).name state) := Vector.getElem_ofFn ..
  rw [listed, List.contains_iff_mem]

/-- The automaton starts in the state that the description names. -/
theorem name_start_ofDocument :
    (ofDocument doc sound).name (ofDocument doc sound).start = doc.startName :=
  List.getElem_idxOf (List.idxOf_lt_length_of_mem sound.startName_mem)

/-- **Following names is following positions.** -/
theorem follow?_name_spell (state : (ofDocument doc sound).State)
    (word : List (ofDocument doc sound).Symbol) :
    doc.follow? ((ofDocument doc sound).name state) ((ofDocument doc sound).spell word) =
      some ((ofDocument doc sound).name ((ofDocument doc sound).after state word)) := by
  induction word generalizing state with
  | nil => rfl
  | cons symbol rest ih =>
    change doc.follow? _
      ((ofDocument doc sound).label symbol :: (ofDocument doc sound).spell rest) = _
    rw [Document.follow?_cons, target?_name_label, Option.bind_some]
    exact ih _

/-- Every sequence of symbols is one of positions. -/
theorem exists_spell_eq {word : List String} (symbols : doc.IsWord word) :
    ∃ positions, (ofDocument doc sound).spell positions = word := by
  induction word with
  | nil => exact ⟨[], rfl⟩
  | cons symbol rest ih =>
    obtain ⟨positions, spelled⟩ := ih fun other member =>
      symbols other (List.mem_cons_of_mem symbol member)
    obtain ⟨position, named⟩ :=
      (ofDocument doc sound).exists_label_eq (symbols symbol List.mem_cons_self)
    refine ⟨position :: positions, ?_⟩
    change (ofDocument doc sound).label position :: (ofDocument doc sound).spell positions = _
    rw [named, spelled]

/-- A word that is spelled by names of symbols is one of the description. -/
theorem isWord_spell (word : List (ofDocument doc sound).Symbol) :
    doc.IsWord ((ofDocument doc sound).spell word) := by
  intro symbol member
  obtain ⟨position, -, rfl⟩ := List.mem_map.mp member
  exact (ofDocument doc sound).label_mem position

/-- A description accepts a sequence of symbols when the automaton accepts their positions. -/
theorem accepts_spell_iff (word : List (ofDocument doc sound).Symbol) :
    doc.Accepts ((ofDocument doc sound).spell word) ↔
      (ofDocument doc sound).accepts
        ((ofDocument doc sound).after (ofDocument doc sound).start word) = true := by
  unfold Document.Accepts
  rw [← name_start_ofDocument sound, follow?_name_spell, accepts_ofDocument_iff]
  constructor
  · rintro ⟨last, member, ⟨⟩⟩
    exact member
  · intro member
    exact ⟨_, member, rfl⟩

end Dfa

end AutomataKit
