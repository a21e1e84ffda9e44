import AutomataKit.Machine.Trace
import Mathlib.Data.List.Chain

/-!
# What a line of a trace says

A line shows the state of a configuration before its cells, and a state may have any name, also one
that looks like the rest of a line. On a plain tape every symbol is a single character that is no
blank and no bracket, so two such characters never stand side by side among the cells
(`Configuration.isChain_shown`). The mark between the state and the cells has two letters side by
side, and is found from the end of the line. What follows it is parted by blanks into the cells, and
a cell in brackets looks like no other one. So a line says which state and which tape it shows, and
where on the tape the head is, if it is on the tape (`Configuration.render_eq_render_iff`).
-/

namespace AutomataKit

/-- When a mark of two different items comes again further behind, it occurs in what follows the
first one. -/
theorem eq_nil_of_append_mark {α : Type} {left right : α} (differ : left ≠ right)
    {after between rest : List α} (once : ¬ [left, right] <:+: after)
    (same : left :: right :: after = between ++ left :: right :: rest) : between = [] := by
  rcases between with _ | ⟨first, _ | ⟨second, between⟩⟩
  · rfl
  · obtain ⟨-, overlap⟩ := List.cons.inj same
    exact absurd (List.cons.inj overlap).1.symm differ
  · obtain ⟨-, behind⟩ := List.cons.inj same
    obtain ⟨-, behind⟩ := List.cons.inj behind
    exact absurd ⟨between, rest, by simp [behind]⟩ once

/-- Where a mark of two different items does not occur behind it, it splits a list in one way. -/
theorem append_mark_inj {α : Type} {left right : α} (differ : left ≠ right)
    {before after other rest : List α} (once : ¬ [left, right] <:+: after)
    (otherOnce : ¬ [left, right] <:+: rest)
    (same : before ++ left :: right :: after = other ++ left :: right :: rest) :
    before = other ∧ after = rest := by
  have places : before = other := by
    rcases List.append_eq_append_iff.mp same with ⟨between, rfl, split⟩ | ⟨between, rfl, split⟩
    · rw [eq_nil_of_append_mark differ once split, List.append_nil]
    · rw [eq_nil_of_append_mark differ otherOnce split, List.append_nil]
  subst places
  have behind := List.append_cancel_left same
  exact ⟨rfl, (List.cons.inj (List.cons.inj behind).2).2⟩

namespace Configuration

/-! ## Plain tapes -/

/-- A character that is neither a blank nor a bracket. -/
def PlainChar (c : Char) : Prop := c ≠ ' ' ∧ c ≠ '[' ∧ c ≠ ']'

instance (c : Char) : Decidable (PlainChar c) := inferInstanceAs (Decidable (_ ∧ _))

/-- Every symbol on the tape is a single plain character. -/
def Plain (configuration : Configuration) : Prop :=
  ∀ symbol ∈ configuration.tape, ∃ c, symbol = String.singleton c ∧ PlainChar c

/-- The head is on one of the cells. -/
def OnTape (configuration : Configuration) : Prop :=
  0 ≤ configuration.head ∧ configuration.head < configuration.tape.length

/-- A plain character as it is shown under the head or elsewhere. -/
inductive ShowsPlain : List Char → Prop
  | bare {c : Char} (plain : PlainChar c) : ShowsPlain [c]
  | bracketed {c : Char} (plain : PlainChar c) : ShowsPlain ['[', c, ']']

/-- The cells as they are shown. -/
def shownCells (configuration : Configuration) : List (List Char) :=
  configuration.tape.zipIdx.map fun (symbol, place) =>
    (cellText configuration.head symbol place).toList

/-- The cells as they are shown, parted by blanks. -/
def shown (configuration : Configuration) : List Char :=
  [' '].intercalate configuration.shownCells

/-- A line says the state, up to a mark of two letters, and then the cells. -/
theorem toList_render (configuration : Configuration) :
    configuration.render.toList =
      ("State=".toList ++ configuration.state.toList ++ ", Tap".toList) ++
        'e' :: ':' :: (' ' :: configuration.shown) := by
  have cells : (configuration.tape.zipIdx.map fun (symbol, place) =>
      cellText configuration.head symbol place).map String.toList = configuration.shownCells := by
    rw [List.map_map]
    rfl
  unfold render shown
  simp only [String.toList_append, String.toList_intercalate, cells, List.append_assoc]
  rfl

/-! ## The text of the cells -/

/-- A symbol stands in brackets under the head, and bare elsewhere. -/
theorem toList_cellText (head : Int) (c : Char) (place : Nat) :
    (cellText head (String.singleton c) place).toList =
      if (place : Int) = head then ['[', c, ']'] else [c] := by
  unfold cellText
  split
  · rw [String.toList_append, String.toList_append, String.toList_singleton]
    rfl
  · rw [String.toList_singleton]

/-- A plain character is shown as such, wherever the head is. -/
theorem showsPlain_cellText {c : Char} (plain : PlainChar c) (head : Int) (place : Nat) :
    ShowsPlain (cellText head (String.singleton c) place).toList := by
  rw [toList_cellText]
  split
  · exact .bracketed plain
  · exact .bare plain

theorem ShowsPlain.ne_nil {cell : List Char} (shows : ShowsPlain cell) : cell ≠ [] := by
  cases shows <;> exact List.cons_ne_nil _ _

theorem ShowsPlain.blank_not_mem {cell : List Char} (shows : ShowsPlain cell) : ' ' ∉ cell := by
  cases shows with
  | bare plain => simpa using plain.1.symm
  | bracketed plain => simpa using plain.1.symm

variable {configuration first second : Configuration}

/-- On a plain tape every cell shows a plain character. -/
theorem showsPlain_of_mem (plain : configuration.Plain) {cell : List Char}
    (member : cell ∈ configuration.shownCells) : ShowsPlain cell := by
  obtain ⟨⟨symbol, place⟩, listed, rfl⟩ := List.mem_map.mp member
  obtain ⟨c, rfl, plainChar⟩ := plain symbol (List.fst_mem_of_mem_zipIdx listed)
  exact showsPlain_cellText plainChar _ _

/-- The cells are read back at the blanks between them. Of no cells an empty piece is left. -/
theorem filter_splitOn_shown (plain : configuration.Plain) :
    (configuration.shown.splitOn ' ').filter (· ≠ []) = configuration.shownCells := by
  by_cases none : configuration.shownCells = []
  · rw [shown, none]
    rfl
  · rw [shown, List.splitOn_intercalate ' '
      (fun _ member => (showsPlain_of_mem plain member).blank_not_mem) none, List.filter_eq_self]
    intro cell member
    exact decide_eq_true (showsPlain_of_mem plain member).ne_nil

/-- Two characters, not both of them plain. -/
def Parted (c next : Char) : Prop := ¬ (PlainChar c ∧ PlainChar next)

theorem not_plainChar_blank : ¬ PlainChar ' ' := fun plain => plain.1 rfl

/-- What shows one plain character has no two side by side. -/
theorem ShowsPlain.isChain {cell : List Char} (shows : ShowsPlain cell) : cell.IsChain Parted := by
  cases shows with
  | bare plain => exact List.isChain_singleton _
  | bracketed plain =>
    refine List.isChain_cons_cons.mpr ⟨fun both => both.1.2.1 rfl, ?_⟩
    exact List.isChain_pair.mpr fun both => both.2.2.2 rfl

/-- A blank keeps plain characters apart. -/
theorem isChain_append_blank {before after : List Char} (first : before.IsChain Parted)
    (second : after.IsChain Parted) : (before ++ [' '] ++ after).IsChain Parted := by
  refine List.isChain_append.mpr ⟨List.isChain_append.mpr ⟨first, List.isChain_singleton _, ?_⟩,
    second, ?_⟩
  · intro c _ blank stands both
    cases stands
    exact not_plainChar_blank both.2
  · intro blank stands c _ both
    rw [List.getLast?_concat, Option.mem_some_iff] at stands
    exact not_plainChar_blank (stands ▸ both.1)

/-- Among the cells two plain characters never stand side by side. -/
theorem isChain_shown (plain : configuration.Plain) : configuration.shown.IsChain Parted := by
  have cells : ∀ cell ∈ configuration.shownCells, ShowsPlain cell := fun _ =>
    showsPlain_of_mem plain
  unfold shown
  generalize configuration.shownCells = pieces at cells
  induction pieces with
  | nil => exact List.isChain_nil
  | cons cell rest ih =>
    have here := (cells cell List.mem_cons_self).isChain
    have later := ih fun other member => cells other (List.mem_cons_of_mem cell member)
    by_cases none : rest = []
    · rw [none, List.intercalate_singleton]
      exact here
    · rw [List.intercalate_cons_of_ne_nil none]
      exact isChain_append_blank here later

/-- The mark between the state and the cells does not occur among the cells. -/
theorem not_isInfix_shown (plain : configuration.Plain) :
    ¬ ['e', ':'] <:+: ' ' :: configuration.shown := by
  intro inside
  have chain : (' ' :: configuration.shown).IsChain Parted := by
    simpa using isChain_append_blank List.isChain_nil (isChain_shown plain)
  have marked : ['e', ':'].IsChain Parted := chain.infix inside
  exact List.isChain_pair.mp marked ⟨by decide, by decide⟩

/-! ## The head -/

/-- A cell says which symbol it has and whether the head is on it. -/
theorem toList_cellText_eq_iff {head otherHead : Int} {c other : Char} {place : Nat} :
    (cellText head (String.singleton c) place).toList =
        (cellText otherHead (String.singleton other) place).toList ↔
      c = other ∧ ((place : Int) = head ↔ (place : Int) = otherHead) := by
  rw [toList_cellText, toList_cellText]
  by_cases under : (place : Int) = head
  · rw [if_pos under]
    by_cases otherUnder : (place : Int) = otherHead
    · rw [if_pos otherUnder]
      simp [iff_of_true under otherUnder]
    · rw [if_neg otherUnder]
      exact iff_of_false (by simp) fun both => otherUnder (both.2.mp under)
  · rw [if_neg under]
    by_cases otherUnder : (place : Int) = otherHead
    · rw [if_pos otherUnder]
      exact iff_of_false (by simp) fun both => under (both.2.mpr otherUnder)
    · rw [if_neg otherUnder]
      simp [iff_of_false under otherUnder]

/-- The cell at a place is shown by its symbol and by whether the head is there. -/
theorem getElem?_shownCells (configuration : Configuration) (place : Nat) :
    configuration.shownCells[place]? = configuration.tape[place]?.map fun symbol =>
      (cellText configuration.head symbol place).toList := by
  simp only [shownCells, List.getElem?_map, List.getElem?_zipIdx, Option.map_map, Nat.zero_add]
  rfl

/-- A shown cell of two plain tapes has the same symbol on both, and both heads or none on it. -/
theorem getElem?_tape_of_shownCells_eq (plain : first.Plain) (others : second.Plain)
    (same : first.shownCells = second.shownCells) (place : Nat) :
    first.tape[place]? = second.tape[place]? ∧
      (place < first.tape.length → ((place : Int) = first.head ↔ (place : Int) = second.head)) := by
  have shown := first.getElem?_shownCells place
  rw [same, getElem?_shownCells] at shown
  cases here : first.tape[place]? with
  | none =>
    rw [here, Option.map_none, Option.map_eq_none_iff] at shown
    rw [List.getElem?_eq_none_iff] at here
    exact ⟨shown.symm, fun inside => absurd inside (Nat.not_lt.mpr here)⟩
  | some symbol =>
    rw [here, Option.map_some, Option.map_eq_some_iff] at shown
    obtain ⟨other, there, text⟩ := shown
    obtain ⟨c, rfl, -⟩ := plain symbol (List.mem_of_getElem? here)
    obtain ⟨d, rfl, -⟩ := others other (List.mem_of_getElem? there)
    obtain ⟨rfl, heads⟩ := toList_cellText_eq_iff.mp text
    exact ⟨there.symm, fun _ => heads.symm⟩

/-- The shown cells are the cells and, for each of them, whether the head is on it. -/
theorem shownCells_eq_iff (plain : first.Plain) (others : second.Plain) :
    first.shownCells = second.shownCells ↔
      first.tape = second.tape ∧
        ∀ place < first.tape.length, (place : Int) = first.head ↔ (place : Int) = second.head := by
  constructor
  · intro same
    have cells := getElem?_tape_of_shownCells_eq plain others same
    exact ⟨List.ext_getElem? fun place => (cells place).1, fun place => (cells place).2⟩
  · rintro ⟨tapes, heads⟩
    unfold shownCells
    rw [← tapes]
    refine List.map_congr_left fun (symbol, place) member => ?_
    have inside := (List.mem_zipIdx' member).1
    unfold cellText
    simp only [heads place inside]

/-- Two heads are on the same cells when they are at one place, or both off the tape. -/
theorem forall_place_iff {length : Nat} {head other : Int} :
    (∀ place < length, (place : Int) = head ↔ (place : Int) = other) ↔
      head = other ∨
        ¬ (0 ≤ head ∧ head < length) ∧ ¬ (0 ≤ other ∧ other < length) := by
  constructor
  · intro same
    by_cases inside : 0 ≤ head ∧ head < length
    · have here := same head.toNat (by omega)
      omega
    · by_cases otherInside : 0 ≤ other ∧ other < length
      · have here := same other.toNat (by omega)
        omega
      · exact .inr ⟨inside, otherInside⟩
  · intro heads place inside
    omega

/-! ## Lines -/

/-- The mark is found from the end of the line. -/
theorem render_eq_iff_shown_eq (plain : first.Plain) (others : second.Plain) :
    first.render = second.render ↔
      first.state = second.state ∧ first.shown = second.shown := by
  rw [← String.toList_inj, toList_render, toList_render]
  constructor
  · intro same
    obtain ⟨before, after⟩ :=
      append_mark_inj (by decide) (not_isInfix_shown plain) (not_isInfix_shown others) same
    have states := List.append_cancel_left (List.append_cancel_right before)
    exact ⟨String.toList_injective states, (List.cons.inj after).2⟩
  · rintro ⟨states, cells⟩
    rw [states, cells]

/-- **What two equal lines agree in.** -/
theorem render_eq_render_iff (plain : first.Plain) (others : second.Plain) :
    first.render = second.render ↔
      first.state = second.state ∧ first.tape = second.tape ∧
        (first.head = second.head ∨ ¬ first.OnTape ∧ ¬ second.OnTape) := by
  have cells : first.shown = second.shown ↔ first.shownCells = second.shownCells := by
    constructor
    · intro same
      rw [← filter_splitOn_shown plain, same, filter_splitOn_shown others]
    · intro same
      rw [shown, same, shown]
  rw [render_eq_iff_shown_eq plain others, cells, shownCells_eq_iff plain others,
    forall_place_iff]
  refine and_congr_right fun _ => and_congr_right fun tapes => ?_
  rw [OnTape, OnTape, tapes]

/-- The name of this state ends like a line. Off the tape it makes no difference where the head is,
on it it does. -/
theorem render_eq_render_iff_deceptive :
    (⟨"q, Tape: [a]", ["b"], -1⟩ : Configuration).Plain ∧
      (⟨"q, Tape: [a]", ["b"], -1⟩ : Configuration).render =
        (⟨"q, Tape: [a]", ["b"], 1⟩ : Configuration).render ∧
      (⟨"q, Tape: [a]", ["b"], -1⟩ : Configuration).render ≠
        (⟨"q, Tape: [a]", ["b"], 0⟩ : Configuration).render := by
  have plain (state : String) (head : Int) : Plain ⟨state, ["b"], head⟩ := fun _ member =>
    ⟨'b', List.mem_singleton.mp member, by decide⟩
  refine ⟨plain _ _, ?_, ?_⟩
  · exact (render_eq_render_iff (plain _ _) (plain _ _)).mpr ⟨rfl, rfl, .inr ⟨nofun, nofun⟩⟩
  · intro same
    obtain ⟨-, -, heads | ⟨-, off⟩⟩ := (render_eq_render_iff (plain _ _) (plain _ _)).mp same
    · cases heads
    · exact off ⟨by decide, by decide⟩

end Configuration

end AutomataKit
