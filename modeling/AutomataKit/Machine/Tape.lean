/-!
# Tapes

A tape is unbounded on both sides and stores the window of cells that were visited. Position `0`
is the first cell of the input. The cells from there on stand in one array, those to the left of
it in another, so that either end grows at the end of an array.

Cells are read and written only inside the window: `Tape.read` and `Tape.write` ask for a proof,
which `Tape.stored_extendTo` gives after the window was extended. `Tape.perform` runs any
operation and reports a fault when it touches a cell that is not stored.
-/

namespace AutomataKit

/-- The stored part of a tape, and the symbol of all other cells. -/
structure Tape where
  blank : String
  /-- The cells `-1`, `-2`, and so on. -/
  left : Array String
  /-- The cells `0`, `1`, and so on. -/
  right : Array String

namespace Tape

/-- A tape that holds the given symbols from position `0` on, or one blank if there are none. -/
def ofSymbols (symbols : List String) (blank : String) : Tape where
  blank := blank
  left := #[]
  right := if symbols.isEmpty then #[blank] else symbols.toArray

/-- The position of the first stored cell. -/
def start (tape : Tape) : Int := -(tape.left.size : Int)

/-- The position after the last stored cell. -/
def stop (tape : Tape) : Int := tape.right.size

/-- The cell at a position is stored. -/
def Stored (tape : Tape) (position : Int) : Prop := tape.start ≤ position ∧ position < tape.stop

instance (tape : Tape) (position : Int) : Decidable (tape.Stored position) :=
  inferInstanceAs (Decidable (_ ∧ _))

/-- Extend the window with blanks just as far as a position. -/
def extendTo (tape : Tape) (position : Int) : Tape where
  blank := tape.blank
  left := tape.left ++ Array.replicate (tape.start - position).toNat tape.blank
  right := tape.right ++ Array.replicate (position + 1 - tape.stop).toNat tape.blank

/-- Extending a window moves its start no further than to the position. -/
theorem start_extendTo (tape : Tape) (position : Int) :
    (tape.extendTo position).start = min tape.start position := by
  simp only [extendTo, start, Array.size_append, Array.size_replicate]
  omega

/-- Extending a window moves its end no further than behind the position. -/
theorem stop_extendTo (tape : Tape) (position : Int) :
    (tape.extendTo position).stop = max tape.stop (position + 1) := by
  simp only [extendTo, stop, Array.size_append, Array.size_replicate]
  omega

/-- An extended window reaches the position. -/
theorem stored_extendTo (tape : Tape) (position : Int) :
    (tape.extendTo position).Stored position := by
  rw [Stored, start_extendTo, stop_extendTo]
  omega

/-- A stored cell from position `0` on stands in the right half. -/
theorem Stored.right_lt {tape : Tape} {position : Int} (stored : tape.Stored position)
    (right : 0 ≤ position) : position.toNat < tape.right.size := by
  simp only [Stored, stop] at stored
  omega

/-- A stored cell before position `0` stands in the left half. -/
theorem Stored.left_lt {tape : Tape} {position : Int} (stored : tape.Stored position)
    (left : ¬ 0 ≤ position) : (-position - 1).toNat < tape.left.size := by
  simp only [Stored, start] at stored
  omega

/-- The symbol at a stored position. -/
def read (tape : Tape) (position : Int) (stored : tape.Stored position) : String :=
  if right : 0 ≤ position then
    have inside := stored.right_lt right
    tape.right[position.toNat]
  else
    have inside := stored.left_lt right
    tape.left[(-position - 1).toNat]

/-- The tape with another symbol in a stored cell. -/
def write (tape : Tape) (position : Int) (symbol : String) (stored : tape.Stored position) : Tape :=
  if right : 0 ≤ position then
    { tape with right := tape.right.set position.toNat symbol (stored.right_lt right) }
  else
    { tape with left := tape.left.set (-position - 1).toNat symbol (stored.left_lt right) }

/-- The stored cells from left to right. -/
def cells (tape : Tape) : List String := tape.left.toList.reverse ++ tape.right.toList

/-! ## Operations one by one -/

/-- What can be asked of a tape. -/
inductive Operation where
  | extend (position : Int)
  | read (position : Int)
  | write (position : Int) (symbol : String)
  | snapshot (position : Int)
  deriving DecidableEq, Repr

/-- An operation that touched a cell that is not stored. -/
inductive Fault where
  | unstoredRead
  | unstoredWrite
  deriving DecidableEq, Repr

/-- The wording of a fault. -/
def Fault.message : Fault → String
  | unstoredRead => "list index out of range"
  | unstoredWrite => "list assignment index out of range"

/-- What comes of an operation. -/
inductive Result where
  | done
  | symbol (symbol : String)
  /-- The stored cells, and a position relative to the first of them. -/
  | snapshot (cells : List String) (head : Int)
  | fault (fault : Fault)
  deriving DecidableEq, Repr

/-- Run an operation. A fault leaves the tape as it is. -/
def perform (tape : Tape) : Operation → Tape × Result
  | .extend position => (tape.extendTo position, .done)
  | .read position =>
    if stored : tape.Stored position then (tape, .symbol (tape.read position stored))
    else (tape, .fault .unstoredRead)
  | .write position symbol =>
    if stored : tape.Stored position then (tape.write position symbol stored, .done)
    else (tape, .fault .unstoredWrite)
  | .snapshot position => (tape, .snapshot tape.cells (position - tape.start))

/-- Run operations in turn, and report for each its result and the tape after it. -/
def performAll (tape : Tape) : List Operation → List (Result × Tape)
  | [] => []
  | operation :: rest =>
    let (after, result) := tape.perform operation
    (result, after) :: after.performAll rest

end Tape

end AutomataKit
