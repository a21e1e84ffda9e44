import AutomataKit.Dfa.Basic
import AutomataKit.Proofs.Machine.Strip

/-!
# Tapes by look-ups that can fail

A tape is read and written with a proof that the cell is stored, and grows at once as far as it has
to. Here the same operations are written on the two halves as plain arrays: a half grows by one
blank at a time, and a position becomes an index into one of the halves. An index may be missing,
and a negative one would count from the end of a half. But no position becomes a negative index, and
an index is missing exactly when the cell is not stored. So both ways to perform an operation are
one (`Tape.performByIndex_eq`).

A simulation on such tapes extends the window to the head before it reads, and so never fails
(`TuringMachine.simulateByIndex_eq_ok`).
-/

namespace AutomataKit

namespace Tape

/-! ## Operations on the halves -/

/-- Append blanks to the left half while a position is before the window. -/
def growLeft (tape : Tape) (position : Int) : Tape :=
  if position < tape.start then
    growLeft { tape with left := tape.left.push tape.blank } position
  else tape
termination_by (tape.start - position).toNat
decreasing_by
  simp only [start, Array.size_push] at *
  omega

/-- Append blanks to the right half while a position is behind the window. -/
def growRight (tape : Tape) (position : Int) : Tape :=
  if tape.stop ≤ position then
    growRight { tape with right := tape.right.push tape.blank } position
  else tape
termination_by (position + 1 - tape.stop).toNat
decreasing_by
  simp only [stop, Array.size_push] at *
  omega

/-- The tape with a window that reaches a position. -/
def growTo (tape : Tape) (position : Int) : Tape := (tape.growLeft position).growRight position

/-- The symbol at an index of a half. A negative index counts from the end. -/
def lookUp (half : Array String) (index : Int) : Except Fault String :=
  match Dfa.position? half.size index with
  | some place => .ok half[place]
  | none => .error .unstoredRead

/-- A half with another symbol at an index. -/
def replace (half : Array String) (index : Int) (symbol : String) : Except Fault (Array String) :=
  match Dfa.position? half.size index with
  | some place => .ok (half.set place symbol)
  | none => .error .unstoredWrite

/-- The symbol at a position. From the origin on it stands in the right half, before it in the left
one. -/
def readByIndex (tape : Tape) (position : Int) : Except Fault String :=
  if 0 ≤ position then lookUp tape.right position else lookUp tape.left (-position - 1)

/-- The tape with another symbol at a position, in the half to which it belongs. -/
def writeByIndex (tape : Tape) (position : Int) (symbol : String) : Except Fault Tape := do
  if 0 ≤ position then return { tape with right := ← replace tape.right position symbol }
  else return { tape with left := ← replace tape.left (-position - 1) symbol }

/-- Run an operation. A fault leaves the tape as it is. -/
def performByIndex (tape : Tape) : Operation → Tape × Result
  | .extend position => (tape.growTo position, .done)
  | .read position =>
    match tape.readByIndex position with
    | .ok symbol => (tape, .symbol symbol)
    | .error fault => (tape, .fault fault)
  | .write position symbol =>
    match tape.writeByIndex position symbol with
    | .ok written => (written, .done)
    | .error fault => (tape, .fault fault)
  | .snapshot position => (tape, .snapshot tape.cells (position - tape.start))

/-! ## Growing -/

variable (tape : Tape) (position : Int)

theorem push_append_replicate (half : Array String) (blank : String) (count : Nat) :
    half.push blank ++ Array.replicate count blank =
      half ++ Array.replicate (count + 1) blank := by
  apply Array.toList_inj.mp
  simp [List.replicate_succ]

/-- On the left as many blanks are appended as the position is away from the window. -/
theorem growLeft_eq :
    tape.growLeft position =
      { tape with
        left := tape.left ++ Array.replicate (tape.start - position).toNat tape.blank } := by
  fun_induction growLeft tape position with
  | case1 tape before ih =>
    have fewer : (tape.start - position).toNat =
        ((Tape.mk tape.blank (tape.left.push tape.blank) tape.right).start - position).toNat +
          1 := by
      simp only [start, Array.size_push] at *
      omega
    rw [ih, push_append_replicate, fewer]
  | case2 tape inside =>
    have none : (tape.start - position).toNat = 0 := by omega
    simp [none]

/-- On the right as many blanks are appended as the window is short of. -/
theorem growRight_eq :
    tape.growRight position =
      { tape with
        right := tape.right ++ Array.replicate (position + 1 - tape.stop).toNat tape.blank } := by
  fun_induction growRight tape position with
  | case1 tape behind ih =>
    have fewer : (position + 1 - tape.stop).toNat =
        (position + 1 -
          (Tape.mk tape.blank tape.left (tape.right.push tape.blank)).stop).toNat + 1 := by
      simp only [stop, Array.size_push] at *
      omega
    rw [ih, push_append_replicate, fewer]
  | case2 tape inside =>
    have none : (position + 1 - tape.stop).toNat = 0 := by omega
    simp [none]

/-- Growing blank by blank gives what extending gives at once. -/
theorem growTo_eq_extendTo : tape.growTo position = tape.extendTo position := by
  rw [growTo, growRight_eq, growLeft_eq]
  rfl

/-! ## Reading and writing -/

section

variable {half : Array String} {index : Int}

/-- An index from `0` on is a place of a half unless it is beyond the end. -/
theorem position?_of_nonneg (nonneg : 0 ≤ index) (length : Nat) :
    Dfa.position? length index =
      if inside : index.toNat < length then some ⟨index.toNat, inside⟩ else none := by
  unfold Dfa.position?
  simp only [Int.not_lt.mpr nonneg, ↓reduceIte]
  by_cases inside : index.toNat < length
  · rw [dif_pos inside, dif_pos ⟨nonneg, by omega⟩]
  · rw [dif_neg inside, dif_neg (by omega)]

/-- An index inside a half gives the symbol there. -/
theorem lookUp_of_lt (nonneg : 0 ≤ index) (inside : index.toNat < half.size) :
    lookUp half index = .ok half[index.toNat] := by
  unfold lookUp
  rw [position?_of_nonneg nonneg, dif_pos inside]
  rfl

/-- An index beyond a half gives nothing. -/
theorem lookUp_of_not_lt (nonneg : 0 ≤ index) (beyond : ¬ index.toNat < half.size) :
    lookUp half index = .error .unstoredRead := by
  unfold lookUp
  rw [position?_of_nonneg nonneg, dif_neg beyond]

theorem replace_of_lt (nonneg : 0 ≤ index) (inside : index.toNat < half.size) (symbol : String) :
    replace half index symbol = .ok (half.set index.toNat symbol) := by
  unfold replace
  rw [position?_of_nonneg nonneg, dif_pos inside]

theorem replace_of_not_lt (nonneg : 0 ≤ index) (beyond : ¬ index.toNat < half.size)
    (symbol : String) : replace half index symbol = .error .unstoredWrite := by
  unfold replace
  rw [position?_of_nonneg nonneg, dif_neg beyond]

end

variable {position}

/-- From position `0` on, the cells of the right half are the stored ones. -/
theorem stored_iff_right (right : 0 ≤ position) :
    tape.Stored position ↔ position.toNat < tape.right.size := by
  unfold Stored start stop
  omega

/-- Before position `0`, the cells of the left half are the stored ones. -/
theorem stored_iff_left (left : ¬ 0 ≤ position) :
    tape.Stored position ↔ (-position - 1).toNat < tape.left.size := by
  unfold Stored start stop
  omega

variable {tape}

/-- A stored cell is read by index as it is read by position. -/
theorem readByIndex_of_stored (stored : tape.Stored position) :
    tape.readByIndex position = .ok (tape.read position stored) := by
  unfold readByIndex read
  by_cases right : 0 ≤ position
  · rw [if_pos right, dif_pos right]
    exact lookUp_of_lt right ((tape.stored_iff_right right).mp stored)
  · rw [if_neg right, dif_neg right]
    exact lookUp_of_lt (by omega) ((tape.stored_iff_left right).mp stored)

/-- A cell that is not stored has no index. -/
theorem readByIndex_of_not_stored (unstored : ¬ tape.Stored position) :
    tape.readByIndex position = .error .unstoredRead := by
  unfold readByIndex
  by_cases right : 0 ≤ position
  · rw [if_pos right]
    exact lookUp_of_not_lt right fun inside => unstored ((tape.stored_iff_right right).mpr inside)
  · rw [if_neg right]
    exact lookUp_of_not_lt (by omega) fun inside =>
      unstored ((tape.stored_iff_left right).mpr inside)

variable (symbol : String)

/-- A stored cell is written by index as it is written by position. -/
theorem writeByIndex_of_stored (stored : tape.Stored position) :
    tape.writeByIndex position symbol = .ok (tape.write position symbol stored) := by
  unfold writeByIndex write
  by_cases right : 0 ≤ position
  · rw [if_pos right, dif_pos right,
      replace_of_lt right ((tape.stored_iff_right right).mp stored)]
    rfl
  · rw [if_neg right, dif_neg right,
      replace_of_lt (by omega) ((tape.stored_iff_left right).mp stored)]
    rfl

theorem writeByIndex_of_not_stored (unstored : ¬ tape.Stored position) :
    tape.writeByIndex position symbol = .error .unstoredWrite := by
  unfold writeByIndex
  by_cases right : 0 ≤ position
  · rw [if_pos right, replace_of_not_lt right fun inside =>
      unstored ((tape.stored_iff_right right).mpr inside)]
    rfl
  · rw [if_neg right, replace_of_not_lt (by omega) fun inside =>
      unstored ((tape.stored_iff_left right).mpr inside)]
    rfl

variable (tape) in
/-- **Indices into the halves are positions of the window.** -/
theorem performByIndex_eq (operation : Operation) :
    tape.performByIndex operation = tape.perform operation := by
  cases operation with
  | extend position => rw [performByIndex, growTo_eq_extendTo, perform]
  | read position =>
    unfold performByIndex perform
    by_cases stored : tape.Stored position
    · simp only [readByIndex_of_stored stored, stored, ↓reduceDIte]
    · simp only [readByIndex_of_not_stored stored, stored, ↓reduceDIte]
  | write position symbol =>
    unfold performByIndex perform
    by_cases stored : tape.Stored position
    · simp only [writeByIndex_of_stored symbol stored, stored, ↓reduceDIte]
    · simp only [writeByIndex_of_not_stored symbol stored, stored, ↓reduceDIte]
  | snapshot position => rfl

end Tape

namespace TuringMachine

variable (machine : TuringMachine)

/-- Go on with a run while it has not halted and steps are left. -/
def loopByIndex (maxSteps : Int) (instant : Instant) (steps : Nat) (recorded : List Configuration) :
    Except Tape.Fault Simulation :=
  if _going : ¬ machine.Halting instant.state ∧ (steps : Int) < maxSteps then do
    let tape := instant.tape.growTo instant.head
    let symbol ← tape.readByIndex instant.head
    match machine.transition? instant.state symbol with
    | none => return ⟨recorded, steps, machine.outcomeIn machine.reject⟩
    | some transition =>
      let tape ← tape.writeByIndex instant.head transition.write
      let next : Instant := ⟨transition.next, tape, instant.head + transition.move.offset⟩
      loopByIndex maxSteps next (steps + 1) (recorded ++ [next.configuration])
  else return ⟨recorded, steps, machine.outcomeIn instant.state⟩
termination_by (maxSteps - steps).toNat

/-- Simulate a machine on an input, with a tape whose look-ups can fail. -/
def simulateByIndex (input : String) (maxSteps : Int) : Except Tape.Fault Simulation :=
  let instant := machine.initial input
  machine.loopByIndex maxSteps instant 0 [instant.configuration]

variable {machine}

/-- The step of the loop is the step of the simulation: what it looks up is stored. -/
theorem loopByIndex_of_going {maxSteps : Int} {instant : Instant} {steps : Nat}
    (going : ¬ machine.Halting instant.state ∧ (steps : Int) < maxSteps)
    (recorded : List Configuration) :
    machine.loopByIndex maxSteps instant steps recorded =
      match machine.step? instant with
      | none => .ok ⟨recorded, steps, machine.outcomeIn machine.reject⟩
      | some next =>
        machine.loopByIndex maxSteps next (steps + 1) (recorded ++ [next.configuration]) := by
  have stored := Tape.stored_extendTo instant.tape instant.head
  rw [loopByIndex, dif_pos going]
  simp only [Tape.growTo_eq_extendTo, Tape.readByIndex_of_stored stored,
    Tape.writeByIndex_of_stored _ stored]
  unfold step?
  simp only
  change (match machine.transition? instant.state _ with | none => _ | some transition => _) = _
  cases machine.transition? instant.state
    ((instant.tape.extendTo instant.head).read instant.head stored) with
  | none => rfl
  | some transition => rfl

/-- The loop ends in a halting state or at the bound. -/
theorem loopByIndex_of_not_going {maxSteps : Int} {instant : Instant} {steps : Nat}
    (ended : ¬ (¬ machine.Halting instant.state ∧ (steps : Int) < maxSteps))
    (recorded : List Configuration) :
    machine.loopByIndex maxSteps instant steps recorded =
      .ok ⟨recorded, steps, machine.outcomeIn instant.state⟩ := by
  rw [loopByIndex, dif_neg ended]
  rfl

/-- The loop keeps step with the loop on a plain list of cells. -/
theorem loopByIndex_eq_ok {instant : Instant} {strip : Strip} (shows : machine.Shows instant strip)
    (maxSteps : Int) (steps : Nat) (recorded : List Configuration) :
    machine.loopByIndex maxSteps instant steps recorded =
      .ok (machine.stripLoop maxSteps strip steps recorded) := by
  -- The induction is on the number of steps that are left, for all moments and records.
  generalize left : (maxSteps - steps).toNat = bound
  induction bound generalizing instant strip steps recorded with
  | zero =>
    have ended : ¬ (steps : Int) < maxSteps := by omega
    rw [loopByIndex_of_not_going fun going => ended going.2, stripLoop,
      dif_neg fun going => ended going.2, shows.state_eq]
  | succ bound ih =>
    have state := shows.state_eq
    by_cases going : ¬ machine.Halting strip.state ∧ (steps : Int) < maxSteps
    · have step := shows.step?
      rw [loopByIndex_of_going (state ▸ going), stripLoop, dif_pos going]
      cases stepped : machine.stripStep? strip with
      | none =>
        rw [stepped] at step
        rw [step]
      | some next =>
        rw [stepped] at step
        obtain ⟨onward, moved, shown⟩ := step
        simp only [moved, shown.configuration_eq]
        exact ih shown (steps + 1) _ (by omega)
    · rw [loopByIndex_of_not_going (state ▸ going), stripLoop, dif_neg going, state]

variable (machine)

/-- **A simulation touches stored cells only.** With every look-up at risk it gives the same record.
-/
theorem simulateByIndex_eq_ok (input : String) (maxSteps : Int) :
    machine.simulateByIndex input maxSteps = .ok (machine.simulate input maxSteps) := by
  have shows := machine.shows_initial input
  unfold simulateByIndex simulate
  rw [loopByIndex_eq_ok shows, stripLoop_of_shows shows]
  simp only [Int.natCast_zero, Int.sub_zero, Nat.zero_add, List.singleton_append]
  rw [← configurations_simulateFrom]

end TuringMachine

end AutomataKit
