import AutomataKit.Dfa.Description
import AutomataKit.Proofs.Dfa.Interning
import Mathlib.Data.List.Nodup
import Mathlib.Data.Stream.Defs
import Mathlib.Order.Bounds.Basic

/-!
# Runs, by the names of a description

A walk goes from position to position through the transition table (`Dfa.Walk.Visits`). Its report
speaks of names. Seen from the description (`Dfa.Document.IsRun`), a run reads the longest beginning
of its text that consists of symbols, goes through the states to which the transitions lead from the
start state, and is rejected at the character behind this beginning if there is one
(`Dfa.run_ofJson`). There is no other run like this (`Dfa.Document.IsRun.unique`).
-/

namespace AutomataKit

namespace Dfa

variable {dfa : Dfa}

/-! ## The states of a walk -/

/-- A walk goes through the states of a sequence, one further with each character, until the
characters end or one of them is no symbol. -/
structure Walk.Visits (walk : dfa.Walk) (chars : List Char) (visited : Nat → dfa.State) : Prop where
  step : ∀ place < walk.steps.length, ∃ c symbol, chars[place]? = some c ∧
    dfa.symbolOf? c = some symbol ∧ dfa.next (visited place) symbol = visited (place + 1) ∧
    walk.steps[place]? = some (visited place, c, visited (place + 1))
  last_eq : walk.last = visited walk.steps.length
  stoppedBy_eq : walk.stoppedBy = chars[walk.steps.length]?
  unknown : ∀ c, walk.stoppedBy = some c → dfa.symbolOf? c = none

/-- Every walk goes through some states. -/
theorem exists_visits (state : dfa.State) (chars : List Char) :
    ∃ visited : Nat → dfa.State, visited 0 = state ∧
      (dfa.walk state chars).Visits chars visited := by
  induction chars generalizing state with
  | nil =>
    refine ⟨fun _ => state, rfl, ?_, rfl, rfl, fun c stopped => by cases stopped⟩
    intro place inside
    cases inside
  | cons c rest ih =>
    cases found : dfa.symbolOf? c with
    | none =>
      rw [walk_cons_of_none found]
      refine ⟨fun _ => state, rfl, ?_, rfl, rfl, fun other stopped => ?_⟩
      · intro place inside
        cases inside
      · cases stopped
        exact found
    | some symbol =>
      rw [walk_cons_of_some found]
      obtain ⟨onward, first, visits⟩ := ih (dfa.next state symbol)
      refine ⟨Stream'.cons state onward, rfl, ?_, visits.last_eq, visits.stoppedBy_eq,
        visits.unknown⟩
      intro place inside
      cases place with
      | zero =>
        refine ⟨c, symbol, rfl, found, first.symm, ?_⟩
        rw [List.getElem?_cons_zero, ← first]
        rfl
      | succ place => exact visits.step place (Nat.lt_of_succ_lt_succ inside)

namespace Walk.Visits

variable {walk : dfa.Walk} {chars : List Char} {visited : Nat → dfa.State}

/-- A character that a walk has read is a symbol. -/
theorem mem_alphabet (visits : walk.Visits chars visited) {place : Nat}
    (inside : place < walk.steps.length) {c : Char} (read : chars[place]? = some c) :
    String.singleton c ∈ dfa.alphabet := by
  obtain ⟨other, symbol, same, known, -⟩ := visits.step place inside
  cases same.symm.trans read
  rw [← symbolOf?_eq_some_iff.mp known]
  exact dfa.label_mem symbol

/-- A walk reads at most all characters. -/
theorem length_steps_le (visits : walk.Visits chars visited) :
    walk.steps.length ≤ chars.length := by
  refine Nat.le_of_not_lt fun beyond => ?_
  obtain ⟨c, -, read, -⟩ := visits.step chars.length beyond
  rw [List.getElem?_eq_none (Nat.le_refl _)] at read
  cases read

/-- The walk takes one step for each character of the longest beginning that it can read. -/
theorem isGreatest_length (visits : walk.Visits chars visited) :
    IsGreatest {length | ∃ front, front <+: chars ∧
      (∀ c ∈ front, String.singleton c ∈ dfa.alphabet) ∧ front.length = length}
      walk.steps.length := by
  constructor
  · refine ⟨chars.take walk.steps.length, List.take_prefix _ _, fun c member => ?_,
      List.length_take_of_le visits.length_steps_le⟩
    obtain ⟨place, inside, rfl⟩ := List.getElem_of_mem member
    rw [List.length_take] at inside
    rw [List.getElem_take]
    exact visits.mem_alphabet (Nat.lt_of_lt_of_le inside (Nat.min_le_left _ _))
      (List.getElem?_eq_getElem _)
  · rintro _ ⟨front, ⟨others, rfl⟩, known, rfl⟩
    refine Nat.le_of_not_lt fun longer => ?_
    -- The walk would have been stopped by a character of this longer beginning.
    have stopped := visits.stoppedBy_eq
    rw [List.getElem?_append_left longer, List.getElem?_eq_getElem longer] at stopped
    exact symbolOf?_eq_none_iff.mp (visits.unknown _ stopped) (known _ (List.getElem_mem longer))

end Walk.Visits

/-! ## Runs over a description -/

/-- A run over a text as the description has it: how many characters it reads, and the names of the
states in which it is before and after each of them. -/
structure Document.IsRun (doc : Document) (text : String) (run : Run) (count : Nat)
    (visited : Nat → String) : Prop where
  longest : IsGreatest {length | ∃ front, front <+: text.toList ∧
    doc.IsWord (front.map String.singleton) ∧ front.length = length} count
  start_eq : doc.start = .str (visited 0)
  length_path : run.path.length = count
  step : ∀ place < count, ∃ c, text.toList[place]? = some c ∧
    run.path[place]? = some (visited place, c, visited (place + 1)) ∧
    doc.target? (visited place) (String.singleton c) = some (visited (place + 1))
  finalState_eq : run.finalState = visited count
  isSome_rejection : run.rejection.isSome ↔ count < text.length
  rejected : ∀ rejection, run.rejection = some rejection → rejection.position = count ∧
    text.toList[count]? = some rejection.symbol ∧ run.accepted = false
  accepted : count = text.length → (run.accepted = true ↔ visited count ∈ doc.acceptNames)
  not_read : ∀ symbol ∈ doc.symbolNames, symbol.length ≠ 1 →
    ∀ step ∈ run.path, String.singleton step.2.1 ≠ symbol

namespace Document.IsRun

variable {doc : Document} {text : String} {run other : Run} {count length : Nat}
  {visited states : Nat → String}

/-- A run reads at most its text. -/
theorem count_le (isRun : doc.IsRun text run count visited) : count ≤ text.length := by
  obtain ⟨⟨front, begins, -, rfl⟩, -⟩ := isRun.longest
  rw [← String.length_toList]
  exact begins.length_le

/-- Two runs on a text go through the same states as far as both go. -/
theorem visited_eq (isRun : doc.IsRun text run count visited)
    (isOther : doc.IsRun text other count states) {place : Nat} (inside : place ≤ count) :
    visited place = states place := by
  induction place with
  | zero => exact Json.str.inj (isRun.start_eq.symm.trans isOther.start_eq)
  | succ place ih =>
    obtain ⟨c, read, -, target⟩ := isRun.step place inside
    obtain ⟨d, again, -, otherTarget⟩ := isOther.step place inside
    cases read.symm.trans again
    rw [ih (Nat.le_of_succ_le inside)] at target
    exact Option.some.inj (target.symm.trans otherTarget)

/-- Two runs on a text take the same path. -/
theorem path_eq (isRun : doc.IsRun text run count visited)
    (isOther : doc.IsRun text other count states) : run.path = other.path := by
  apply List.ext_getElem?
  intro place
  by_cases inside : place < count
  · obtain ⟨c, read, step, -⟩ := isRun.step place inside
    obtain ⟨d, again, otherStep, -⟩ := isOther.step place inside
    cases read.symm.trans again
    rw [step, otherStep, isRun.visited_eq isOther (Nat.le_of_lt inside),
      isRun.visited_eq isOther inside]
  · rw [List.getElem?_eq_none (isRun.length_path ▸ Nat.le_of_not_lt inside),
      List.getElem?_eq_none (isOther.length_path ▸ Nat.le_of_not_lt inside)]

/-- What stops one run on a text stops any other. -/
theorem rejection_eq_of_some (isRun : doc.IsRun text run count visited)
    (isOther : doc.IsRun text other count states) {rejection : Rejection}
    (stopped : run.rejection = some rejection) : other.rejection = some rejection := by
  have before := isRun.isSome_rejection.mp (Option.isSome_of_eq_some stopped)
  obtain ⟨again, otherStopped⟩ := Option.isSome_iff_exists.mp (isOther.isSome_rejection.mpr before)
  obtain ⟨position, symbol, -⟩ := isRun.rejected rejection stopped
  obtain ⟨otherPosition, otherSymbol, -⟩ := isOther.rejected again otherStopped
  have same : again = rejection := by
    cases again
    cases rejection
    cases position.trans otherPosition.symm
    cases symbol.symm.trans otherSymbol
    rfl
  rw [otherStopped, same]

/-- A text and a description leave no choice of the run. -/
theorem unique (isRun : doc.IsRun text run count visited)
    (isOther : doc.IsRun text other length states) : run = other := by
  obtain rfl : count = length := isRun.longest.unique isOther.longest
  have final : visited count = states count := isRun.visited_eq isOther (Nat.le_refl count)
  have rejection : run.rejection = other.rejection :=
    Option.ext fun _ => ⟨isRun.rejection_eq_of_some isOther, isOther.rejection_eq_of_some isRun⟩
  have accepted : run.accepted = other.accepted := by
    rcases Nat.lt_or_eq_of_le isRun.count_le with before | whole
    · obtain ⟨stop, stopped⟩ := Option.isSome_iff_exists.mp (isRun.isSome_rejection.mpr before)
      rw [(isRun.rejected stop stopped).2.2, (isOther.rejected stop (rejection ▸ stopped)).2.2]
    · rw [Bool.eq_iff_iff, isRun.accepted whole, isOther.accepted whole, final]
  have path := isRun.path_eq isOther
  have finalState : run.finalState = other.finalState := by
    rw [isRun.finalState_eq, isOther.finalState_eq, final]
  cases run
  cases other
  cases path
  cases finalState
  cases accepted
  cases rejection
  rfl

end Document.IsRun

/-- The report of a walk from the start state is a run of the description. -/
theorem Walk.Visits.isRun {doc : Document} (sound : doc.WellFormed) {text : String}
    {walk : (ofDocument doc sound).Walk} {visited : Nat → (ofDocument doc sound).State}
    (visits : walk.Visits text.toList visited)
    (start : visited 0 = (ofDocument doc sound).start) :
    doc.IsRun text walk.report walk.steps.length fun place =>
      (ofDocument doc sound).name (visited place) where
  longest := by
    have longest := visits.isGreatest_length
    simp only [Document.IsWord, List.forall_mem_map]
    exact longest
  start_eq := by rw [start, name_start_ofDocument, sound.start_eq]
  length_path := List.length_map _
  step := by
    intro place inside
    obtain ⟨c, symbol, read, known, next, taken⟩ := visits.step place inside
    refine ⟨c, read, ?_, ?_⟩
    · change (walk.steps.map _)[place]? = _
      rw [List.getElem?_map, taken]
      rfl
    · rw [← symbolOf?_eq_some_iff.mp known, target?_name_label, next]
  finalState_eq := congrArg _ visits.last_eq
  isSome_rejection := by
    change (walk.stoppedBy.map _).isSome ↔ _
    rw [Option.isSome_map, visits.stoppedBy_eq, isSome_getElem?,
      String.length_toList]
  rejected := by
    intro rejection found
    obtain ⟨c, stopped, rfl⟩ := Option.map_eq_some_iff.mp found
    refine ⟨rfl, visits.stoppedBy_eq.symm.trans stopped, ?_⟩
    change (walk.stoppedBy.isNone && _) = false
    rw [stopped]
    rfl
  accepted := by
    intro whole
    have unstopped : walk.stoppedBy = none := by
      rw [visits.stoppedBy_eq, whole, ← String.length_toList]
      exact List.getElem?_eq_none (Nat.le_refl _)
    change (walk.stoppedBy.isNone && (ofDocument doc sound).accepts walk.last) = true ↔ _
    rw [unstopped, visits.last_eq]
    exact accepts_ofDocument_iff sound _
  not_read := by
    rintro symbol - several step - rfl
    exact several String.length_singleton

/-- **Runs follow the description.** The run over a text is the one that the description has for it,
and the only one. -/
theorem run_ofJson {value : Json} {dfa : Dfa} (read : ofJson value = .ok dfa) (text : String) :
    ∃ doc, Document.ofJson value = .ok doc ∧ doc.WellFormed ∧
      (∃ count visited, doc.IsRun text (dfa.run text) count visited) ∧
      ∀ run count visited, doc.IsRun text run count visited → run = dfa.run text := by
  obtain ⟨doc, sound, entries, -, rfl⟩ := ofJson_eq_ok_iff.mp read
  obtain ⟨visited, start, visits⟩ := exists_visits (ofDocument doc sound).start text.toList
  have isRun := visits.isRun sound start
  exact ⟨doc, entries, sound, ⟨_, _, isRun⟩, fun run count states other => other.unique isRun⟩

/-- An alphabet with symbols that begin alike, and one that no character spells. -/
def stammerDescription : Description where
  states := ["out", "in", "shut"]
  alphabet := ["ab", "a", "", "b"]
  transitions := .ofList [
    ("out", .ofList [("a", "in"), ("ab", "shut"), ("b", "out"), ("", "shut")]),
    ("in", .ofList [("b", "in"), ("a", "out"), ("ab", "shut"), ("", "shut")]),
    ("shut", .ofList [("b", "shut"), ("a", "shut"), ("ab", "shut"), ("", "shut")])]
  startState := "out"
  acceptStates := ["in"]

/-- The automaton of this description. -/
def stammer : Dfa where
  states := ["out", "in", "shut"]
  alphabet := ["ab", "a", "", "b"]
  table := #v[#v[2, 1, 2, 0], #v[2, 0, 2, 1], #v[2, 2, 2, 2]]
  start := 0
  accepting := #v[false, true, false]
  states_nodup := by decide
  alphabet_nodup := by decide

/-- The run reads two characters, although they are a symbol together, and is rejected at the third
in an accepting state. -/
theorem run_stammer :
    ofJson stammerDescription.toJson = .ok stammer ∧
      stammer.run "ab?a" =
        ⟨[("out", 'a', "in"), ("in", 'b', "in")], "in", false, some ⟨'?', 2⟩⟩ ∧
      ∃ doc, Document.ofJson stammerDescription.toJson = .ok doc ∧
        ∃ visited, doc.IsRun "ab?a" (stammer.run "ab?a") 2 visited := by
  have read : ofJson stammerDescription.toJson = .ok stammer := rfl
  have report : stammer.run "ab?a" =
    ⟨[("out", 'a', "in"), ("in", 'b', "in")], "in", false, some ⟨'?', 2⟩⟩ := by decide +kernel
  obtain ⟨doc, entries, -, ⟨count, visited, isRun⟩, -⟩ := run_ofJson read "ab?a"
  have two : count = 2 := by rw [← isRun.length_path, report]; rfl
  exact ⟨read, report, doc, entries, visited, two ▸ isRun⟩

end Dfa

end AutomataKit
