import AutomataKit.Proofs.Machine.TapeLookups
import Mathlib.Data.List.Induction

/-!
# What a tape holds after any operations

Seen from outside a tape is a window of positions, from `Tape.start` to before `Tape.stop`, with a
symbol at each. `Tape.Performs` says what an operation does to the window and its symbols, and which
operations fail. The symbols themselves are fixed by the past: a position holds the symbol last
written there, or else the one with which the tape began, or else the blank
(`Tape.cell_after`). Together this says all about a tape after any sequence of operations
(`Tape.perform_after`).
-/

namespace AutomataKit

namespace Tape

/-- The tape after operations in turn. -/
def after (tape : Tape) (past : List Operation) : Tape :=
  past.foldl (fun tape operation => (tape.perform operation).1) tape

/-- Operations with the result that each of them had. -/
def history (tape : Tape) (past : List Operation) : List (Operation × Result) :=
  past.zip ((tape.performAll past).map Prod.fst)

/-- The symbol that an operation wrote at a position, if it did. A write that failed did not. -/
def writtenBy? (position : Int) : Operation × Result → Option String
  | (.write place symbol, .done) => if place = position then some symbol else none
  | _ => none

/-- The symbol that was last written at a position, if any was. -/
def lastWritten? (position : Int) (history : List (Operation × Result)) : Option String :=
  history.reverse.findSome? (writtenBy? position)

/-- What an operation does to a window and its symbols, and its result. -/
def Performs (before : Tape) : Operation → Result → Tape → Prop
  | .extend position, result, after =>
    result = .done ∧ after.start = min before.start position ∧
      after.stop = max before.stop (position + 1) ∧
      (∀ place, before.Stored place → after.cell place = before.cell place) ∧
      (∀ place, after.Stored place → ¬ before.Stored place → after.cell place = before.blank)
  | .read position, result, after =>
    after = before ∧
      (∀ stored : before.Stored position, result = .symbol (before.read position stored)) ∧
      (result = .fault .unstoredRead ↔ ¬ before.Stored position)
  | .write position symbol, result, after =>
    after.start = before.start ∧ after.stop = before.stop ∧
      (before.Stored position → result = .done ∧ after.cell position = symbol ∧
        ∀ place, place ≠ position → after.cell place = before.cell place) ∧
      (result = .fault .unstoredWrite ↔ ¬ before.Stored position) ∧
      (¬ before.Stored position → after = before)
  | .snapshot position, result, after =>
    after = before ∧ ∃ cells, result = .snapshot cells (position - before.start) ∧
      (cells.length : Int) = before.stop - before.start ∧
      ∀ (place : Nat) (inside : place < cells.length),
        cells[place] = before.cell (before.start + place)

/-! ## One operation -/

variable (tape : Tape)

/-- Every operation does to the window what it is said to do. -/
theorem performs_perform (operation : Operation) :
    tape.Performs operation (tape.perform operation).2 (tape.perform operation).1 := by
  cases operation with
  | extend position =>
    refine ⟨rfl, tape.start_extendTo position, tape.stop_extendTo position, ?_, ?_⟩
    · intro place _
      exact tape.cell_extendTo place position
    · intro place _ unstored
      exact (tape.cell_extendTo place position).trans (dif_neg unstored)
  | read position =>
    unfold perform
    by_cases stored : tape.Stored position
    · simp only [stored, ↓reduceDIte]
      exact ⟨rfl, fun _ => rfl, by simp [stored]⟩
    · simp only [stored, ↓reduceDIte]
      exact ⟨rfl, fun found => absurd found stored, by simp [stored]⟩
  | write position symbol =>
    unfold perform
    by_cases stored : tape.Stored position
    · simp only [stored, ↓reduceDIte]
      refine ⟨start_write symbol stored, stop_write symbol stored, ?_, by simp [stored],
        absurd stored⟩
      refine fun _ => ⟨rfl, ?_, ?_⟩
      · rw [cell_write, if_pos rfl]
      · intro place other
        rw [cell_write, if_neg other]
    · simp only [stored, ↓reduceDIte]
      exact ⟨rfl, rfl, fun found => absurd found stored, by simp [stored], fun _ => rfl⟩
  | snapshot position =>
    exact ⟨rfl, tape.cells, rfl, tape.length_cells, fun _ inside => getElem_cells inside⟩

/-- The window never shrinks. -/
theorem window_perform_le (operation : Operation) :
    (tape.perform operation).1.start ≤ tape.start ∧
      tape.stop ≤ (tape.perform operation).1.stop := by
  have performs := tape.performs_perform operation
  cases operation with
  | extend position =>
    obtain ⟨-, start, stop, -⟩ := performs
    omega
  | read position =>
    rw [performs.1]
    exact ⟨Int.le_refl _, Int.le_refl _⟩
  | write position symbol => exact ⟨Int.le_of_eq performs.1, Int.le_of_eq performs.2.1.symm⟩
  | snapshot position =>
    rw [performs.1]
    exact ⟨Int.le_refl _, Int.le_refl _⟩

/-- An operation changes the symbol at a position only by writing there. -/
theorem cell_perform (operation : Operation) (position : Int) :
    (tape.perform operation).1.cell position =
      (writtenBy? position (operation, (tape.perform operation).2)).getD (tape.cell position) := by
  cases operation with
  | extend target => exact tape.cell_extendTo position target
  | read target =>
    unfold perform
    by_cases stored : tape.Stored target
    · simp only [stored, ↓reduceDIte]
      rfl
    · simp only [stored, ↓reduceDIte]
      rfl
  | write target symbol =>
    unfold perform
    by_cases stored : tape.Stored target
    · simp only [stored, ↓reduceDIte, writtenBy?, cell_write, eq_comm (a := position)]
      split <;> rfl
    · simp only [stored, ↓reduceDIte]
      rfl
  | snapshot target => rfl

/-- No operation changes the blank. -/
theorem blank_perform (operation : Operation) :
    (tape.perform operation).1.blank = tape.blank := by
  cases operation with
  | extend position => rfl
  | read position => rw [(tape.performs_perform (.read position)).1]
  | write position symbol =>
    unfold perform
    by_cases stored : tape.Stored position
    · simp only [stored, ↓reduceDIte, blank_write]
    · simp only [stored, ↓reduceDIte]
  | snapshot position => rfl

/-! ## Sequences of operations -/

/-- The last operation is done on the tape that the earlier ones leave. -/
theorem after_concat (past : List Operation) (operation : Operation) :
    tape.after (past ++ [operation]) = ((tape.after past).perform operation).1 := by
  rw [after, List.foldl_append]
  rfl

/-- After any operations the blank is the same. -/
theorem blank_after (past : List Operation) : (tape.after past).blank = tape.blank := by
  induction past using List.reverseRecOn with
  | nil => rfl
  | append_singleton past operation ih => rw [after_concat, blank_perform, ih]

/-- Later operations have the results that they have on the tape which the earlier ones leave. -/
theorem performAll_append (past rest : List Operation) :
    tape.performAll (past ++ rest) =
      tape.performAll past ++ (tape.after past).performAll rest := by
  induction past generalizing tape with
  | nil => rfl
  | cons operation past ih => exact congrArg (_ :: ·) (ih (tape.perform operation).1)

theorem length_performAll (past : List Operation) :
    (tape.performAll past).length = past.length := by
  induction past generalizing tape with
  | nil => rfl
  | cons operation past ih => exact congrArg (· + 1) (ih (tape.perform operation).1)

/-- A history grows at its end. -/
theorem history_concat (past : List Operation) (operation : Operation) :
    tape.history (past ++ [operation]) =
      tape.history past ++ [(operation, ((tape.after past).perform operation).2)] := by
  unfold history
  rw [performAll_append, List.map_append,
    List.zip_append (by rw [List.length_map, length_performAll])]
  rfl

/-- What the last operation wrote at a position counts before all that was written earlier. -/
theorem lastWritten?_concat (position : Int) (history : List (Operation × Result))
    (entry : Operation × Result) :
    lastWritten? position (history ++ [entry]) =
      (writtenBy? position entry).or (lastWritten? position history) := by
  unfold lastWritten?
  rw [List.reverse_append, List.reverse_singleton, List.singleton_append, List.findSome?_cons]
  cases writtenBy? position entry <;> rfl

/-- **The past decides what a position holds.** It is the symbol last written there, or else the
symbol with which the tape began. -/
theorem cell_after (past : List Operation) (position : Int) :
    (tape.after past).cell position =
      (lastWritten? position (tape.history past)).getD (tape.cell position) := by
  induction past using List.reverseRecOn with
  | nil => rfl
  | append_singleton past operation ih =>
    rw [after_concat, history_concat, lastWritten?_concat, cell_perform, ih]
    cases writtenBy? position (operation, ((tape.after past).perform operation).2) <;> rfl

/-- **A tape is a window on a function.** After any operations on a tape that began with the given
symbols, one more operation does what it should, also when it is performed by indices into the
halves; and what is stored at a position is what the past put there. -/
theorem perform_after (symbols : List String) (blank : String) (past : List Operation)
    (operation : Operation) :
    let first := ofSymbols symbols blank
    let tape := first.after past
    let next := (tape.perform operation).1
    let result := (tape.perform operation).2
    first.performAll (past ++ [operation]) = first.performAll past ++ [(result, next)] ∧
      tape.performByIndex operation = (next, result) ∧
      first.start = 0 ∧ first.stop = max symbols.length 1 ∧
      (∀ (position : Int) (stored : tape.Stored position), tape.read position stored =
        (lastWritten? position (first.history past)).getD
          (initialSymbol symbols blank position)) ∧
      tape.blank = blank ∧ tape.Performs operation result next ∧
      next.start ≤ tape.start ∧ tape.stop ≤ next.stop := by
  intro first tape next result
  have length : first.stop = max symbols.length 1 := by
    change ((if symbols.isEmpty then #[blank] else symbols.toArray).size : Int) = _
    cases symbols with
    | nil => rfl
    | cons symbol rest =>
      simp only [List.isEmpty_cons, Bool.false_eq_true, ↓reduceIte, List.size_toArray,
        List.length_cons]
      omega
  refine ⟨first.performAll_append past [operation], tape.performByIndex_eq operation, rfl, length,
    ?_, first.blank_after past, tape.performs_perform operation, tape.window_perform_le operation⟩
  intro position stored
  rw [← cell_ofSymbols, ← cell_after, cell, dif_pos stored]

/-- A write before the window fails and leaves no trace. Once the window was extended writing
succeeds there, and of two symbols the one written last is read. -/
theorem perform_after_leftward :
    let past := [.write (-2) "x", .extend (-2), .write (-1) "y", .write (-1) "z"]
    let tape := (ofSymbols ["a", "b"] "_").after past
    (tape.perform (.read (-2))).2 = .symbol "_" ∧ (tape.perform (.read (-1))).2 = .symbol "z" ∧
      (tape.perform (.read 2)).2 = .fault .unstoredRead := by
  intro past tape
  have history : (ofSymbols ["a", "b"] "_").history past =
      [(.write (-2) "x", .fault .unstoredWrite), (.extend (-2), .done),
        (.write (-1) "y", .done), (.write (-1) "z", .done)] := by decide +kernel
  obtain ⟨-, -, -, -, holds, -, reads, -⟩ := perform_after ["a", "b"] "_" past (.read (-2))
  obtain ⟨-, -, -, -, -, -, again, -⟩ := perform_after ["a", "b"] "_" past (.read (-1))
  obtain ⟨-, -, -, -, -, -, beyond, -⟩ := perform_after ["a", "b"] "_" past (.read 2)
  rw [history] at holds
  have first : tape.Stored (-2) := by decide +kernel
  have second : tape.Stored (-1) := by decide +kernel
  refine ⟨(reads.2.1 first).trans ?_, (again.2.1 second).trans ?_,
    beyond.2.2.mpr (by decide +kernel)⟩
  · exact congrArg Result.symbol (holds (-2) first)
  · exact congrArg Result.symbol (holds (-1) second)

end Tape

end AutomataKit
