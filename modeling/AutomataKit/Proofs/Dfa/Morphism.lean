import AutomataKit.Proofs.Dfa.Emptiness

/-!
# Morphisms of automata

A morphism reads one automaton as another over the same symbols: it takes states to states and
symbols to the symbols with the same names, and keeps the start, the transitions and what accepts.
The names of states may be changed on the way. Walks, words and the decision on emptiness are kept;
so is the search, when different states stay different and the symbols stand in the same order
(`Dfa.Morphism.map_reachable`). In another order of the symbols the same states are found
(`Dfa.Morphism.perm_reachable`).
-/

namespace AutomataKit

namespace Dfa

/-- A map from an automaton to another that keeps its structure and renames its states. -/
structure Morphism (rename : String → String) (dfa other : Dfa) where
  onState : dfa.State → other.State
  onSymbol : dfa.Symbol → other.Symbol
  name_onState : ∀ state, other.name (onState state) = rename (dfa.name state)
  label_onSymbol : ∀ symbol, other.label (onSymbol symbol) = dfa.label symbol
  /-- Every symbol of the other automaton is the image of one. -/
  alphabet_subset : ∀ label ∈ other.alphabet, label ∈ dfa.alphabet
  onState_start : onState dfa.start = other.start
  next_onState : ∀ state symbol,
    other.next (onState state) (onSymbol symbol) = onState (dfa.next state symbol)
  accepts_onState : ∀ state, other.accepts (onState state) = dfa.accepts state

/-- States and symbols that correspond by their names make a morphism. -/
def Morphism.ofNames {rename : String → String} {dfa other : Dfa}
    (states : ∀ state : dfa.State, rename (dfa.name state) ∈ other.states)
    (alphabet : ∀ label, label ∈ other.alphabet ↔ label ∈ dfa.alphabet)
    (start : other.name other.start = rename (dfa.name dfa.start))
    (next : ∀ (state : dfa.State) (symbol : dfa.Symbol) (image : other.State)
      (letter : other.Symbol), other.name image = rename (dfa.name state) →
        other.label letter = dfa.label symbol →
        other.name (other.next image letter) = rename (dfa.name (dfa.next state symbol)))
    (accepts : ∀ (state : dfa.State) (image : other.State),
      other.name image = rename (dfa.name state) → other.accepts image = dfa.accepts state) :
    Morphism rename dfa other :=
  let onState (state : dfa.State) : other.State :=
    ⟨other.states.idxOf (rename (dfa.name state)), List.idxOf_lt_length_of_mem (states state)⟩
  let onSymbol (symbol : dfa.Symbol) : other.Symbol :=
    ⟨other.alphabet.idxOf (dfa.label symbol),
      List.idxOf_lt_length_of_mem ((alphabet _).mpr (List.getElem_mem symbol.isLt))⟩
  have named (state : dfa.State) : other.name (onState state) = rename (dfa.name state) :=
    List.getElem_idxOf _
  have labelled (symbol : dfa.Symbol) : other.label (onSymbol symbol) = dfa.label symbol :=
    List.getElem_idxOf _
  { onState
    onSymbol
    name_onState := named
    label_onSymbol := labelled
    alphabet_subset := fun label member => (alphabet label).mp member
    onState_start := other.name_injective ((named _).trans start.symm)
    next_onState := fun state symbol => other.name_injective
      ((next state symbol _ _ (named state) (labelled symbol)).trans (named _).symm)
    accepts_onState := fun state => accepts state _ (named state) }

/-- A walk with other states in place of its own. -/
def Walk.map {dfa other : Dfa} (onState : dfa.State → other.State) (walk : dfa.Walk) :
    other.Walk where
  steps := walk.steps.map fun (source, c, target) => (onState source, c, onState target)
  last := onState walk.last
  stoppedBy := walk.stoppedBy

/-- A report with the states renamed. -/
def Run.rename (rename : String → String) (run : Run) : Run :=
  { run with
    path := run.path.map fun (source, c, target) => (rename source, c, rename target)
    finalState := rename run.finalState }

/-- Giving every state its own name changes no run. -/
theorem Run.rename_id (run : Run) : run.rename id = run := by
  unfold Run.rename
  rw [show run.path.map (fun (source, c, target) => (id source, c, id target)) = run.path
    from List.map_id _]
  rfl

/-! ## What a search finds -/

namespace Frontier

/-- A frontier of another automaton stands to a frontier as its image: the images of the waiting
states wait, and among the images of states those of the unseen ones are unseen. -/
structure Mirrors {dfa other : Dfa} (onState : dfa.State → other.State) (frontier : dfa.Frontier)
    (image : other.Frontier) : Prop where
  waiting_eq : image.waiting = frontier.waiting.map onState
  mem_unseen_iff : ∀ state, onState state ∈ image.unseen ↔ state ∈ frontier.unseen
  nodup : frontier.unseen.Nodup
  nodup_image : image.unseen.Nodup

namespace Mirrors

variable {dfa other : Dfa} {onState : dfa.State → other.State}
  (injective : ∀ first second, onState first = onState second → first = second)
  {frontier : dfa.Frontier} {image : other.Frontier}

include injective

/-- Discovering the images of states mirrors discovering the states. -/
theorem discover (mirrors : Mirrors onState frontier image) (states : List dfa.State) :
    Mirrors onState (frontier.discover states) (image.discover (states.map onState)) := by
  induction states generalizing frontier image with
  | nil => exact mirrors
  | cons state rest ih =>
    rw [List.map_cons]
    by_cases unseen : state ∈ frontier.unseen
    · rw [discover_cons_of_mem unseen,
        discover_cons_of_mem ((mirrors.mem_unseen_iff state).mpr unseen)]
      apply ih
      refine ⟨?_, ?_, mirrors.nodup.erase state, mirrors.nodup_image.erase _⟩
      · rw [mirrors.waiting_eq, List.map_append, List.map_singleton]
      · intro later
        rw [mirrors.nodup.mem_erase_iff, mirrors.nodup_image.mem_erase_iff,
          mirrors.mem_unseen_iff]
        have different : onState later ≠ onState state ↔ later ≠ state :=
          not_congr ⟨injective later state, congrArg onState⟩
        rw [different]
    · rw [discover_cons_of_not_mem unseen,
        discover_cons_of_not_mem fun seen => unseen ((mirrors.mem_unseen_iff state).mp seen)]
      exact ih mirrors

/-- The turn of a state is mirrored by the turn of its image. -/
theorem advance (mirrors : Mirrors onState frontier image)
    (successors : ∀ state, other.successors (onState state) = (dfa.successors state).map onState)
    {state : dfa.State} {onward : dfa.Frontier} (turn : frontier.advance? = some (state, onward)) :
    ∃ onwardImage, image.advance? = some (onState state, onwardImage) ∧
      Mirrors onState onward onwardImage := by
  obtain ⟨rest, waiting, rfl⟩ := advance?_eq_some_iff.mp turn
  refine ⟨_, advance?_eq_some_iff.mpr ⟨rest.map onState, ?_, rfl⟩, ?_⟩
  · rw [mirrors.waiting_eq, waiting, List.map_cons]
  · rw [successors]
    apply discover injective
    exact ⟨rfl, mirrors.mem_unseen_iff, mirrors.nodup, mirrors.nodup_image⟩

/-- **The search is mirrored.** The images of the states get their turns, in the same order. -/
theorem turns_eq (mirrors : Mirrors onState frontier image)
    (successors : ∀ state, other.successors (onState state) = (dfa.successors state).map onState)
    {stop : dfa.State → Bool} {stopImage : other.State → Bool}
    (stops_iff : ∀ state, stopImage (onState state) = stop state) :
    image.turns stopImage = (frontier.turns stop).map onState := by
  -- Both searches take their turns together, and after each one frontier mirrors the other.
  induction frontier using turns.induct stop generalizing image with
  | case1 frontier ended =>
    have none : image.advance? = none := by
      rw [advance?_eq_none_iff, mirrors.waiting_eq, advance?_eq_none_iff.mp ended, List.map_nil]
    rw [turns_of_none stop ended, turns_of_none stopImage none, List.map_nil]
  | case2 frontier state onward turn stops =>
    obtain ⟨onwardImage, turnImage, -⟩ := mirrors.advance injective successors turn
    rw [turns_of_stop turn stops, turns_of_stop turnImage ((stops_iff state).trans stops),
      List.map_singleton]
  | case3 frontier state onward turn goes ih =>
    obtain ⟨onwardImage, turnImage, onwardMirrors⟩ := mirrors.advance injective successors turn
    rw [turns_of_go turn goes, turns_of_go turnImage (by rwa [stops_iff]), ih onwardMirrors,
      List.map_cons]

end Mirrors

end Frontier

namespace Morphism

variable {rename : String → String} {dfa other : Dfa} (morphism : Morphism rename dfa other)

include morphism

/-! ## Walks -/

/-- Both alphabets have the same symbols. -/
theorem mem_alphabet_iff (label : String) : label ∈ other.alphabet ↔ label ∈ dfa.alphabet := by
  refine ⟨morphism.alphabet_subset label, fun member => ?_⟩
  obtain ⟨symbol, rfl⟩ := dfa.exists_label_eq member
  rw [← morphism.label_onSymbol]
  exact other.label_mem _

/-- A character is read as the image of the symbol as which it is read before. -/
theorem symbolOf?_eq (c : Char) :
    other.symbolOf? c = (dfa.symbolOf? c).map morphism.onSymbol := by
  cases found : dfa.symbolOf? c with
  | none =>
    rw [symbolOf?_eq_none_iff] at found
    exact symbolOf?_eq_none_iff.mpr fun member => found ((morphism.mem_alphabet_iff _).mp member)
  | some symbol =>
    rw [symbolOf?_eq_some_iff] at found
    exact symbolOf?_eq_some_iff.mpr ((morphism.label_onSymbol symbol).trans found)

/-- From the image of a state the other automaton walks through the images of the states. -/
theorem walk_onState (state : dfa.State) (chars : List Char) :
    other.walk (morphism.onState state) chars = (dfa.walk state chars).map morphism.onState := by
  induction chars generalizing state with
  | nil => rfl
  | cons c rest ih =>
    have image := morphism.symbolOf?_eq c
    cases found : dfa.symbolOf? c with
    | none =>
      rw [found] at image
      rw [walk_cons_of_none found, walk_cons_of_none image]
      rfl
    | some symbol =>
      rw [found] at image
      rw [walk_cons_of_some found, walk_cons_of_some image, morphism.next_onState, ih]
      rfl

/-- What is reported of the image of a walk is what is reported of the walk, renamed. -/
theorem report_map (walk : dfa.Walk) :
    (walk.map morphism.onState).report = walk.report.rename rename := by
  simp only [Walk.report, Walk.map, Run.rename, List.map_map, Function.comp_def,
    morphism.name_onState, morphism.accepts_onState, List.length_map]

/-- The other automaton has the same runs, with its names for the states. -/
theorem run_eq (text : String) : other.run text = (dfa.run text).rename rename := by
  unfold run
  rw [← morphism.onState_start, morphism.walk_onState, morphism.report_map]

/-! ## Words -/

/-- The image of a word leads to the image of a state. -/
theorem after_onState (state : dfa.State) (word : List dfa.Symbol) :
    other.after (morphism.onState state) (word.map morphism.onSymbol) =
      morphism.onState (dfa.after state word) := by
  induction word generalizing state with
  | nil => rfl
  | cons symbol rest ih => rw [List.map_cons, after_cons, after_cons, morphism.next_onState, ih]

/-- Every symbol is an image. -/
theorem exists_onSymbol (symbol : other.Symbol) :
    ∃ original, morphism.onSymbol original = symbol := by
  obtain ⟨original, named⟩ := dfa.exists_label_eq
    (morphism.alphabet_subset (other.label symbol) (other.label_mem symbol))
  refine ⟨original, other.label_injective ?_⟩
  exact (morphism.label_onSymbol original).trans named

/-- Every word of the other automaton is the image of one. -/
theorem exists_map_onSymbol (word : List other.Symbol) :
    ∃ original : List dfa.Symbol, original.map morphism.onSymbol = word := by
  induction word with
  | nil => exact ⟨[], rfl⟩
  | cons symbol rest ih =>
    obtain ⟨first, rfl⟩ := morphism.exists_onSymbol symbol
    obtain ⟨others, rfl⟩ := ih
    exact ⟨first :: others, rfl⟩

/-- The one language is empty when the other is. -/
theorem isEmpty_eq : other.isEmpty = dfa.isEmpty := by
  rw [Bool.eq_iff_iff, isEmpty_eq_true_iff, isEmpty_eq_true_iff]
  constructor
  · intro rejected word
    rw [← morphism.accepts_onState, ← morphism.after_onState, morphism.onState_start]
    exact rejected _
  · intro rejected word
    obtain ⟨original, rfl⟩ := morphism.exists_map_onSymbol word
    rw [← morphism.onState_start, morphism.after_onState, morphism.accepts_onState]
    exact rejected original

/-! ## The search -/

/-- When the names of different states stay different, so do the states. -/
theorem onState_injective
    (injective : ∀ first ∈ dfa.states, ∀ second ∈ dfa.states,
      rename first = rename second → first = second)
    (first second : dfa.State) (same : morphism.onState first = morphism.onState second) :
    first = second := by
  apply dfa.name_injective
  apply injective (dfa.name first) (List.getElem_mem first.isLt) (dfa.name second)
    (List.getElem_mem second.isLt)
  rw [← morphism.name_onState, ← morphism.name_onState, same]

/-- With the symbols in the same order, the successors of the image of a state are the images of its
successors. -/
theorem successors_onState (order : other.alphabet = dfa.alphabet) (state : dfa.State) :
    other.successors (morphism.onState state) = (dfa.successors state).map morphism.onState := by
  refine List.ext_getElem (by simp [successors, order]) fun place inside _ => ?_
  have bounds : place < dfa.alphabet.length ∧ place < other.alphabet.length := by
    simpa [successors, order] using inside
  have symbol : morphism.onSymbol ⟨place, bounds.1⟩ = ⟨place, bounds.2⟩ := by
    apply other.label_injective
    rw [morphism.label_onSymbol]
    simp [label, order]
  simp only [successors, List.getElem_map, List.getElem_finRange, Fin.cast_mk]
  rw [← morphism.next_onState, symbol]

section

variable (injective : ∀ first second, morphism.onState first = morphism.onState second →
  first = second)

include injective

/-- At the outset both searches have come to the same point. -/
theorem mirrors_initial :
    Frontier.Mirrors morphism.onState (Frontier.initial dfa) (Frontier.initial other) where
  waiting_eq := by
    rw [Frontier.initial, Frontier.initial, List.map_singleton, morphism.onState_start]
  mem_unseen_iff := by
    intro state
    change _ ∈ (List.finRange _).erase _ ↔ _ ∈ (List.finRange _).erase _
    rw [(List.nodup_finRange _).mem_erase_iff, (List.nodup_finRange _).mem_erase_iff,
      ← morphism.onState_start]
    have different : morphism.onState state ≠ morphism.onState dfa.start ↔ state ≠ dfa.start :=
      not_congr ⟨injective state dfa.start, congrArg morphism.onState⟩
    simp [different]
  nodup := (List.nodup_finRange _).erase _
  nodup_image := (List.nodup_finRange _).erase _

/-- With the symbols in the same order, the images of the states are found, in the same order. -/
theorem map_reachable (order : other.alphabet = dfa.alphabet) :
    other.reachable = dfa.reachable.map morphism.onState :=
  (morphism.mirrors_initial injective).turns_eq injective (morphism.successors_onState order)
    fun _ => rfl

/-- In any order of the symbols the images of the states are found. -/
theorem perm_reachable : other.reachable.Perm (dfa.reachable.map morphism.onState) := by
  have distinct : (dfa.reachable.map morphism.onState).Nodup :=
    List.pairwise_map.mpr (dfa.nodup_reachable.imp fun different same =>
      different (injective _ _ same))
  rw [List.perm_ext_iff_of_nodup other.nodup_reachable distinct]
  intro state
  rw [mem_reachable_iff, List.mem_map]
  constructor
  · rintro ⟨word, rfl⟩
    obtain ⟨original, rfl⟩ := morphism.exists_map_onSymbol word
    refine ⟨_, (mem_reachable_iff _).mpr ⟨original, rfl⟩, ?_⟩
    rw [← morphism.after_onState, morphism.onState_start]
  · rintro ⟨source, found, rfl⟩
    obtain ⟨word, rfl⟩ := (mem_reachable_iff _).mp found
    refine ⟨word.map morphism.onSymbol, ?_⟩
    rw [← morphism.onState_start, morphism.after_onState]

end

/-- The names of images are the names of the states, renamed. -/
theorem map_name_map_onState (states : List dfa.State) :
    (states.map morphism.onState).map other.name = (states.map dfa.name).map rename := by
  rw [List.map_map, List.map_map]
  exact List.map_congr_left fun state _ => morphism.name_onState state

/-- Read as names, what the search finds are the renamed states that it finds. -/
theorem reachableNames_eq
    (injective : ∀ first ∈ dfa.states, ∀ second ∈ dfa.states,
      rename first = rename second → first = second)
    (order : other.alphabet = dfa.alphabet) :
    other.reachableNames = dfa.reachableNames.map rename := by
  unfold reachableNames
  rw [morphism.map_reachable (morphism.onState_injective injective) order,
    morphism.map_name_map_onState]

end Morphism

end Dfa

end AutomataKit
