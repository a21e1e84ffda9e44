import AutomataKit.Machine.Tape

/-!
# The window of a tape as one list

A tape keeps its window in two halves, the left one in reverse. Seen from outside the window is
one list, `Tape.cells`, and a position stands in it at its distance from the start of the window.
Extending, reading and writing are stated here in terms of that list alone, so no other module
has to look at the halves.

The tape without an end is seen as a function of the position, `Tape.cell`, of which the list shows
a part.
-/

namespace AutomataKit

namespace Tape

/-- Replacing an element from the front replaces it from the back of the reversed list. -/
theorem reverse_set {α : Type} (list : List α) (value : α) {place : Nat}
    (inside : place < list.length) :
    (list.set place value).reverse = list.reverse.set (list.length - 1 - place) value := by
  refine List.ext_getElem (by simp) fun index below _ => ?_
  rw [List.length_reverse, List.length_set] at below
  rw [List.getElem_reverse, List.getElem_set, List.getElem_set, List.getElem_reverse]
  simp only [List.length_set]
  by_cases same : list.length - 1 - index = place
  · rw [if_pos same.symm, if_pos (by omega)]
  · rw [if_neg fun equal => same equal.symm, if_neg (by omega)]

variable (tape : Tape) (position : Int)

/-- There are as many cells as the window is wide. -/
theorem length_cells : (tape.cells.length : Int) = tape.stop - tape.start := by
  simp only [cells, start, stop, List.length_append, List.length_reverse, Array.length_toList]
  omega

/-- An extension puts blanks before and after the cells there are. -/
theorem cells_extendTo :
    (tape.extendTo position).cells =
      List.replicate (tape.start - position).toNat tape.blank ++ tape.cells ++
        List.replicate (position + 1 - tape.stop).toNat tape.blank := by
  simp only [cells, extendTo, Array.toList_append, Array.toList_replicate, List.reverse_append,
    List.reverse_replicate, List.append_assoc]

@[simp] theorem blank_extendTo : (tape.extendTo position).blank = tape.blank := rfl

variable {tape position}

/-- Reading takes the cell at the distance of its position from the start. -/
theorem getElem?_cells (stored : tape.Stored position) :
    tape.cells[(position - tape.start).toNat]? = some (tape.read position stored) := by
  unfold cells read
  have size : tape.start = -(tape.left.size : Int) := rfl
  by_cases right : 0 ≤ position
  · have inside := stored.right_lt right
    have place : (position - tape.start).toNat = tape.left.size + position.toNat := by omega
    rw [place, List.getElem?_append_right (by simp)]
    simp [right]
  · have inside := stored.left_lt right
    have place : (position - tape.start).toNat = tape.left.size - 1 - (-position - 1).toNat := by
      omega
    rw [place, List.getElem?_append_left (by simp; omega), List.getElem?_reverse (by simp; omega)]
    have mirrored : tape.left.toList.length - 1 - (tape.left.size - 1 - (-position - 1).toNat) =
        (-position - 1).toNat := by
      rw [Array.length_toList]
      omega
    rw [mirrored]
    simp [right]

variable (symbol : String)

@[simp] theorem blank_write (stored : tape.Stored position) :
    (tape.write position symbol stored).blank = tape.blank := by
  unfold write
  split <;> rfl

@[simp] theorem start_write (stored : tape.Stored position) :
    (tape.write position symbol stored).start = tape.start := by
  unfold write start
  split
  · rfl
  · rw [Array.size_set]

@[simp] theorem stop_write (stored : tape.Stored position) :
    (tape.write position symbol stored).stop = tape.stop := by
  unfold write stop
  split
  · rw [Array.size_set]
  · rfl

/-- Writing replaces the cell at the distance of its position from the start. -/
theorem cells_write (stored : tape.Stored position) :
    (tape.write position symbol stored).cells =
      tape.cells.set (position - tape.start).toNat symbol := by
  have size : tape.start = -(tape.left.size : Int) := rfl
  unfold write
  by_cases right : 0 ≤ position
  · have place : (position - tape.start).toNat = tape.left.size + position.toNat := by omega
    simp only [right, ↓reduceDIte, cells, Array.toList_set]
    rw [place, List.set_append_right _ _ (by simp)]
    simp
  · have inside := stored.left_lt right
    have place : (position - tape.start).toNat = tape.left.size - 1 - (-position - 1).toNat := by
      omega
    simp only [right, ↓reduceDIte, cells, Array.toList_set]
    rw [place, List.set_append_left _ _ (by simp; omega)]
    rw [reverse_set _ _ inside, Array.length_toList]

/-! ## The tape without an end -/

/-- Appending copies of the default value changes no look-up with that default. -/
theorem getD_append_replicate {α : Type} (array : Array α) (count index : Nat) (value : α) :
    (array ++ Array.replicate count value).getD index value = array.getD index value := by
  simp only [Array.getD_eq_getD_getElem?, Array.getElem?_append, Array.getElem?_replicate]
  by_cases inside : index < array.size
  · rw [if_pos inside]
  · rw [if_neg inside, Array.getElem?_eq_none (by omega)]
    split
    · rfl
    · rfl

/-- Setting one place of an array leaves the others, also those that are not there. -/
theorem getD_set {α : Type} (array : Array α) (place index : Nat) (value other : α)
    (inside : place < array.size) :
    (array.set place value inside).getD index other =
      if index = place then value else array.getD index other := by
  simp only [Array.getD_eq_getD_getElem?, Array.getElem?_set]
  by_cases same : place = index
  · rw [if_pos same, if_pos same.symm]
    rfl
  · rw [if_neg same, if_neg fun equal => same equal.symm]

/-- The symbol at a position of the unbounded tape: what is stored there, or the blank. -/
def cell (tape : Tape) (position : Int) : String :=
  if stored : tape.Stored position then tape.read position stored else tape.blank

variable (tape position)

/-- Beyond its end either half goes on with blanks. -/
theorem cell_eq_getD :
    tape.cell position =
      if 0 ≤ position then tape.right.getD position.toNat tape.blank
      else tape.left.getD (-position - 1).toNat tape.blank := by
  have start : tape.start = -(tape.left.size : Int) := rfl
  have stop : tape.stop = tape.right.size := rfl
  unfold cell read Array.getD
  by_cases right : 0 ≤ position
  · simp only [right, ↓reduceIte, ↓reduceDIte]
    have inside : tape.Stored position ↔ position.toNat < tape.right.size := by
      unfold Stored
      omega
    by_cases stored : tape.Stored position
    · rw [dif_pos stored, dif_pos (inside.mp stored)]
      rfl
    · rw [dif_neg stored, dif_neg fun below => stored (inside.mpr below)]
  · simp only [right, ↓reduceIte, ↓reduceDIte]
    have inside : tape.Stored position ↔ (-position - 1).toNat < tape.left.size := by
      unfold Stored
      omega
    by_cases stored : tape.Stored position
    · rw [dif_pos stored, dif_pos (inside.mp stored)]
      rfl
    · rw [dif_neg stored, dif_neg fun below => stored (inside.mpr below)]

/-- An extension stores blanks where there were blanks. -/
@[simp] theorem cell_extendTo (target : Int) :
    (tape.extendTo target).cell position = tape.cell position := by
  rw [cell_eq_getD, cell_eq_getD]
  simp only [extendTo, getD_append_replicate]

/-- The symbol at a position of a tape that holds symbols from position `0` on. -/
def initialSymbol (symbols : List String) (blank : String) (position : Int) : String :=
  if 0 ≤ position then symbols.getD position.toNat blank else blank

/-- A new tape holds its symbols from the origin on, and blanks elsewhere. -/
theorem cell_ofSymbols (symbols : List String) (blank : String) :
    (ofSymbols symbols blank).cell position = initialSymbol symbols blank position := by
  rw [cell_eq_getD]
  unfold ofSymbols initialSymbol
  by_cases right : 0 ≤ position
  · simp only [right, ↓reduceIte]
    cases symbols with
    | nil => cases position.toNat <;> rfl
    | cons first rest => simp
  · simp only [right, ↓reduceIte]
    rfl

variable {tape}

/-- Writing changes the symbol at one position. -/
theorem cell_write {target : Int} (stored : tape.Stored target) :
    (tape.write target symbol stored).cell position =
      if position = target then symbol else tape.cell position := by
  rw [cell_eq_getD, cell_eq_getD, blank_write]
  unfold write
  by_cases right : 0 ≤ target
  · simp only [right, ↓reduceDIte, getD_set]
    by_cases same : position = target
    · rw [if_pos same, if_pos (same ▸ right), if_pos (by omega)]
    · rw [if_neg same]
      by_cases here : 0 ≤ position
      · rw [if_pos here, if_pos here, if_neg (by omega)]
      · rw [if_neg here, if_neg here]
  · simp only [right, ↓reduceDIte, getD_set]
    by_cases same : position = target
    · rw [if_pos same, if_neg (same ▸ right), if_pos (by omega)]
    · rw [if_neg same]
      by_cases here : 0 ≤ position
      · rw [if_pos here, if_pos here]
      · rw [if_neg here, if_neg here, if_neg (by omega)]

/-- The list of cells shows the symbols from the start of the window on. -/
theorem getElem_cells {place : Nat} (inside : place < tape.cells.length) :
    tape.cells[place] = tape.cell (tape.start + place) := by
  have length := tape.length_cells
  have stored : tape.Stored (tape.start + place) := ⟨by omega, by omega⟩
  have found := getElem?_cells stored
  have distance : (tape.start + place - tape.start).toNat = place := by omega
  rw [distance, List.getElem?_eq_getElem inside] at found
  rw [cell, dif_pos stored]
  exact Option.some.inj found

end Tape

end AutomataKit
