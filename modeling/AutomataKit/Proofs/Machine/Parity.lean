import AutomataKit.Proofs.Machine.Lockstep
import Mathlib.Algebra.Group.Nat.Even

/-!
# Deciding parity

The automaton of the demonstration is in its start state exactly when it has read the letter a an
even number of times, and its machine goes through the same states. On at most 999 letters the
machine decides before it has made as many steps as it may (`Dfa.simulate_evenAs`).
-/

namespace AutomataKit

theorem zipIdx_map_range {α : Type} (f : Nat → α) (count : Nat) :
    ((List.range count).map f).zipIdx = (List.range count).map fun index => (f index, index) :=
  List.ext_getElem (by simp) fun index _ _ => by simp

namespace Dfa

/-- The state for the letters that are read: the start state when the letter a occurs in them an
even number of times. -/
def parityState (read : List Char) : evenAs.State :=
  if Even (read.count 'a') then ⟨0, by decide⟩ else ⟨1, by decide⟩

variable {read : List Char}

/-- After an even number of the letter the automaton is in its first state. -/
theorem parityState_of_even (even : Even (read.count 'a')) : parityState read = ⟨0, by decide⟩ :=
  if_pos even

/-- After an odd number of the letter it is in its second state. -/
theorem parityState_of_not_even (odd : ¬ Even (read.count 'a')) :
    parityState read = ⟨1, by decide⟩ :=
  if_neg odd

/-- The names of the two states tell the parity. -/
theorem name_parityState (read : List Char) :
    evenAs.name (parityState read) = if Even (read.count 'a') then "q0" else "q1" := by
  unfold parityState
  split <;> rfl

/-- It accepts after an even number of the letter. -/
theorem accepts_parityState (read : List Char) :
    evenAs.accepts (parityState read) = decide (Even (read.count 'a')) := by
  unfold parityState
  split
  · next even => exact (decide_eq_true even).symm
  · next odd => exact (decide_eq_false odd).symm

/-- One more letter is read. -/
theorem next_parityState {c : Char} (letter : c = 'a' ∨ c = 'b') (read : List Char) :
    ∃ symbol, evenAs.symbolOf? c = some symbol ∧
      evenAs.next (parityState read) symbol = parityState (read ++ [c]) := by
  rcases letter with rfl | rfl
  · have flips : Even ((read ++ ['a']).count 'a') ↔ ¬ Even (read.count 'a') := by
      rw [List.count_append, List.count_singleton_self, Nat.even_add_one]
    refine ⟨⟨0, by decide⟩, by decide, ?_⟩
    by_cases even : Even (read.count 'a')
    · rw [parityState_of_even even, parityState_of_not_even (flips.not_left.mpr even)]
      rfl
    · rw [parityState_of_not_even even, parityState_of_even (flips.mpr even)]
      rfl
  · have stays : (read ++ ['b']).count 'a' = read.count 'a' := by
      rw [List.count_append, List.count_singleton, if_neg (by decide), Nat.add_zero]
    refine ⟨⟨1, by decide⟩, by decide, ?_⟩
    by_cases even : Even (read.count 'a')
    · rw [parityState_of_even even, parityState_of_even (stays ▸ even)]
      rfl
    · rw [parityState_of_not_even even, parityState_of_not_even (stays ▸ even)]
      rfl

/-- The walk of the automaton through letters. -/
theorem walk_parityState {rest : List Char} (letters : ∀ c ∈ rest, c = 'a' ∨ c = 'b')
    (read : List Char) :
    (evenAs.walk (parityState read) rest).stoppedBy = none ∧
      (evenAs.walk (parityState read) rest).last = parityState (read ++ rest) ∧
      (evenAs.walk (parityState read) rest).visited (parityState read) =
        (List.range (rest.length + 1)).map fun count => parityState (read ++ rest.take count) := by
  -- The induction is on the letters to be read; a letter read is moved to the others.
  induction rest generalizing read with
  | nil =>
    rw [List.append_nil]
    exact ⟨rfl, rfl, congrArg (fun chars => [parityState chars]) (List.append_nil read).symm⟩
  | cons c rest ih =>
    obtain ⟨symbol, known, next⟩ := next_parityState (letters c List.mem_cons_self) read
    obtain ⟨unstopped, last, visited⟩ :=
      ih (fun other member => letters other (List.mem_cons_of_mem c member)) (read ++ [c])
    have behind (chars : List Char) : read ++ c :: chars = read ++ [c] ++ chars := by simp
    rw [walk_cons_of_some known, next]
    refine ⟨unstopped, last.trans (congrArg parityState (behind rest).symm), ?_⟩
    rw [List.length_cons, List.range_succ_eq_map, List.map_cons, List.map_map, List.take_zero,
      List.append_nil]
    refine congrArg (parityState read :: ·) (visited.trans (List.map_congr_left fun count _ => ?_))
    exact congrArg parityState (behind (rest.take count)).symm

theorem blankName_evenAs : evenAs.blankName = "_" := by decide +kernel

/-- The letters of the alphabet are no blanks. -/
theorem beforeBlank_letters {chars : List Char} (letters : ∀ c ∈ chars, c = 'a' ∨ c = 'b') :
    evenAs.beforeBlank chars = chars := by
  rcases evenAs.beforeBlank_eq_or_blank chars with whole | ⟨blank, after, single, split⟩
  · exact whole
  · have member : blank ∈ chars := by
      rw [split]
      exact List.mem_append_right _ List.mem_cons_self
    rw [blankName_evenAs] at single
    rcases letters blank member with rfl | rfl
    · exact absurd single (by decide)
    · exact absurd single (by decide)

/-- The machine decides by the parity. -/
theorem verdictName_parityState (read : List Char) :
    evenAs.verdictName (parityState read) =
      if Even (read.count 'a') then "q_accept" else "q_reject" := by
  have names : evenAs.acceptName = "q_accept" ∧ evenAs.rejectName = "q_reject" := by
    decide +kernel
  unfold verdictName
  rw [accepts_parityState, names.1, names.2]
  simp only [decide_eq_true_eq]

/-- The cells with which a run begins: the letters, or one blank. -/
def letterCells (chars : List Char) : List String :=
  if chars = [] then ["_"] else chars.map String.singleton

/-- The machine begins with a cell for each letter, or with one blank. -/
theorem inputCells_evenAs (chars : List Char) : evenAs.inputCells chars = letterCells chars := by
  cases chars with
  | nil => exact congrArg ([·]) blankName_evenAs
  | cons c rest => rfl

/-- The moment at which some letters are read. -/
def parityMoment (chars : List Char) (count : Nat) : Configuration where
  state := if Even ((chars.take count).count 'a') then "q0" else "q1"
  tape := letterCells chars
  head := count

/-- The moment after the decision, for which the blank behind the letters is read. -/
def parityDecision (chars : List Char) : Configuration where
  state := if Even (chars.count 'a') then "q_accept" else "q_reject"
  tape := chars.map String.singleton ++ ["_"]
  head := (chars.length + 1 : Nat)

/-- The last moment shows the decision behind the input. -/
theorem decision_parityState (chars : List Char) :
    evenAs.decision chars chars.length (parityState chars) = parityDecision chars := by
  unfold decision parityDecision
  rw [verdictName_parityState, inputCells_evenAs, blankName_evenAs]
  cases chars with
  | nil => rfl
  | cons c rest =>
    have behind : 0 < (c :: rest).length ∧ (c :: rest).length = (c :: rest).length :=
      ⟨Nat.succ_pos rest.length, rfl⟩
    rw [if_pos behind]
    rfl

/-- **The run on letters.** There is one moment for each number of letters that are read, and one
after the decision. -/
theorem simulate_evenAs {text : String} (letters : ∀ c ∈ text.toList, c = 'a' ∨ c = 'b')
    (short : text.length ≤ 999) :
    evenAs.toMachine.simulate text TuringMachine.defaultMaxSteps =
      ⟨(List.range (text.length + 1)).map (parityMoment text.toList) ++
          [parityDecision text.toList],
        text.length + 1, if Even (text.toList.count 'a') then .accept else .reject⟩ := by
  obtain ⟨unstopped, last, visited⟩ := walk_parityState letters []
  have start : evenAs.start = parityState [] := rfl
  have long := length_visited (evenAs.walk (parityState []) text.toList) (parityState [])
  rw [visited, List.length_map, List.length_range, Nat.add_right_cancel_iff,
    String.length_toList] at long
  have enough : ¬ TuringMachine.defaultMaxSteps.toNat ≤ text.length := by
    change ¬ 1000 ≤ text.length
    omega
  have moments : evenAs.trace text.toList 0
      ((List.range (text.toList.length + 1)).map fun count =>
        parityState ([] ++ text.toList.take count)) =
      (List.range (text.length + 1)).map (parityMoment text.toList) := by
    rw [trace, zipIdx_map_range, List.map_map, String.length_toList]
    refine List.map_congr_left fun count _ => ?_
    simp only [Function.comp_apply, name_parityState, inputCells_evenAs]
    rfl
  rw [simulate_toMachine, beforeBlank_letters letters, start, replay, ← long, if_neg enough,
    unstopped, visited, moments, last, accepts_parityState, Nat.zero_add, List.nil_append,
    ← String.length_toList, decision_parityState]
  simp only [decide_eq_true_eq]
  rfl

end Dfa

end AutomataKit
