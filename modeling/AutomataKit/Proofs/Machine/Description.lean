import Mathlib.Data.List.Basic
import Mathlib.Data.Prod.Basic
import AutomataKit.Machine.Document

/-!
# What the description of a machine tells

A machine is written with its transitions nested by state and by symbol. Looking a transition up in
two steps finds what the machine has for the pair (`TuringMachine.transition?_nested`).

A run asks for nothing but transitions, the start state, the halting states and the blank. All of
these are in the description, so machines with the same description make the same records
(`TuringMachine.simulate_eq_of_toJson_eq`).
-/

namespace AutomataKit

/-! ## Nested transitions -/

namespace NestedTransitions

variable (rows : NestedTransitions)

/-- The transition from a state on a symbol, row by row. -/
def transition? (state symbol : String) : Option Transition :=
  (rows.find? state).bind fun row => row.find? symbol

/-- Adding to the row of a state changes one entry, whether or not there was a row before. -/
theorem transition?_add (entry : (String × String) × Transition) (state symbol : String) :
    transition? (add rows entry) state symbol =
      if (state, symbol) = entry.1 then some entry.2 else transition? rows state symbol := by
  obtain ⟨⟨source, read⟩, transition⟩ := entry
  unfold transition? add
  simp only [OrderedMap.find?_insert, Prod.mk.injEq]
  by_cases here : state = source
  · subst here
    simp only [↓reduceIte, Option.bind_some, OrderedMap.find?_insert, true_and]
    cases rows.find? state <;> rfl
  · simp only [here, ↓reduceIte, false_and]

/-- Nesting a list of entries is entering them one by one. -/
theorem transition?_foldl_add (entries : List ((String × String) × Transition))
    (map : OrderedMap (String × String) Transition)
    (agree : ∀ state symbol, transition? rows state symbol = map.find? (state, symbol))
    (state symbol : String) :
    transition? (entries.foldl add rows) state symbol =
      (entries.foldl (fun map entry => map.insert entry.1 entry.2) map).find? (state, symbol) := by
  induction entries generalizing rows map with
  | nil => exact agree state symbol
  | cons entry rest ih =>
    refine ih (add rows entry) _ fun state symbol => ?_
    rw [transition?_add, OrderedMap.find?_insert, agree]

end NestedTransitions

/-! ## Writing without loss -/

/-- A map is known by the object that it becomes, when its values are by what they become. -/
theorem Json.ofMap_injective {α : Type} {write : α → Json} (injective : Function.Injective write) :
    Function.Injective (Json.ofMap write) := by
  rintro ⟨entries, distinct⟩ ⟨others, _⟩ same
  have entry : Function.Injective fun entry : String × α => (entry.1, write entry.2) :=
    Function.injective_id.prodMap injective
  obtain rfl : entries = others := entry.list_map (Json.obj.inj same)
  rfl

/-- A move is known by its letter. -/
theorem Move.letter_injective : Function.Injective Move.letter := by
  intro move other same
  have read := congrArg Move.ofLetter? same
  rw [ofLetter?_letter, ofLetter?_letter] at read
  exact Option.some.inj read

/-- A transition is known by its description. -/
theorem Transition.toJson_injective : Function.Injective Transition.toJson := by
  rintro ⟨next, write, move⟩ ⟨otherNext, otherWrite, otherMove⟩ same
  simp only [toJson, Json.obj.injEq, List.cons.injEq, Prod.mk.injEq, Json.str.injEq, true_and,
    and_true] at same
  obtain ⟨rfl, rfl, letter⟩ := same
  rw [Move.letter_injective letter]

namespace TuringMachine

/-- Nesting loses no transition. -/
theorem transition?_nested (machine : TuringMachine) (state symbol : String) :
    NestedTransitions.transition? machine.nested state symbol =
      machine.transition? state symbol := by
  have folded := NestedTransitions.transition?_foldl_add .empty machine.transitions.entries .empty
    (fun _ _ => rfl) state symbol
  have entered := OrderedMap.ofList_eq_of_nodup machine.transitions.keys_nodup
  exact folded.trans (congrArg (OrderedMap.find? · (state, symbol)) entered)

/-! ## What a run asks for -/

/-- Two machines answer alike whatever a run asks. -/
structure RunsAlike (machine other : TuringMachine) : Prop where
  transition?_eq : ∀ state symbol,
    machine.transition? state symbol = other.transition? state symbol
  start_eq : machine.start = other.start
  accept_eq : machine.accept = other.accept
  reject_eq : machine.reject = other.reject
  blank_eq : machine.blank = other.blank

variable {machine other : TuringMachine}

/-- Machines with the same description answer alike. -/
theorem runsAlike_of_toJson_eq (same : machine.toJson = other.toJson) :
    machine.RunsAlike other := by
  simp only [toJson, Json.obj.injEq, List.cons.injEq, Prod.mk.injEq, Json.str.injEq, true_and,
    and_true] at same
  obtain ⟨-, -, written, start, accept, reject, blank⟩ := same
  refine ⟨fun state symbol => ?_, start, accept, reject, blank⟩
  have nested : machine.nested = other.nested :=
    Json.ofMap_injective (Json.ofMap_injective Transition.toJson_injective) written
  rw [← transition?_nested, ← transition?_nested, nested]

namespace RunsAlike

variable (alike : machine.RunsAlike other)

include alike

theorem initial_eq (input : String) : machine.initial input = other.initial input := by
  simp only [initial, alike.start_eq, alike.blank_eq]

theorem halting_iff (state : String) : machine.Halting state ↔ other.Halting state := by
  unfold Halting
  rw [alike.accept_eq, alike.reject_eq]

theorem verdict_eq (state : String) : machine.verdict state = other.verdict state := by
  unfold verdict
  rw [alike.accept_eq]

/-- They take the same step at every instant. -/
theorem step?_eq (instant : Instant) : machine.step? instant = other.step? instant := by
  unfold step?
  simp only [alike.transition?_eq]

/-- They record the same from every instant on. -/
theorem simulateFrom_eq (bound : Nat) (instant : Instant) :
    machine.simulateFrom bound instant = other.simulateFrom bound instant := by
  induction bound generalizing instant with
  | zero =>
    unfold simulateFrom
    simp only [alike.halting_iff, alike.verdict_eq]
  | succ bound ih =>
    unfold simulateFrom
    simp only [alike.halting_iff, alike.verdict_eq, alike.reject_eq, alike.step?_eq, ih]

/-- **Machines that answer alike make the same record.** -/
theorem simulate_eq (input : String) (maxSteps : Int) :
    machine.simulate input maxSteps = other.simulate input maxSteps := by
  unfold simulate
  rw [alike.initial_eq, alike.simulateFrom_eq]

end RunsAlike

/-- **The description of a machine determines its records.** -/
theorem simulate_eq_of_toJson_eq (same : machine.toJson = other.toJson) (input : String)
    (maxSteps : Int) : machine.simulate input maxSteps = other.simulate input maxSteps :=
  (runsAlike_of_toJson_eq same).simulate_eq input maxSteps

end TuringMachine

end AutomataKit
