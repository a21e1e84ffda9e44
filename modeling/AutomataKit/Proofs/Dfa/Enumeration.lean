import AutomataKit.Dfa.Enumeration
import Mathlib.Algebra.Group.Nat.Defs

/-!
# The listed automata in closed form

The loops that list the automata with two states work through a table digit by digit and stop in the
midst of a table once there are enough automata. What they list is the beginning of one sequence,
whose entry at an index is read off from the bits of the index
(`Dfa.Enumeration.toList_enumerate`, `Dfa.Enumeration.enumerate_closedForm`).
-/

namespace AutomataKit

namespace Dfa

namespace Enumeration

/-! ## Loops that stop once there are enough items -/

section

variable {α β : Type} (wanted : Int)

/-- Add items to an array one after the other, and stop once it has as many as wanted. The array is
given twice: if it has as many as wanted, and in any case. -/
def stock (listed : Array α) : List α → Option (Array α) × Array α
  | [] => (none, listed)
  | item :: rest =>
    if wanted ≤ (listed.push item).size then (some (listed.push item), listed.push item)
    else stock (listed.push item) rest

/-- What a loop does after a round: it ends with a full array or goes on. -/
def round (state : Option (Array α) × Array α) : ForInStep (Option (Array α) × Array α) :=
  match state.1 with
  | some full => .done (some full, state.2)
  | none => .yield (none, state.2)

/-- Items are added in two parts one after the other, unless the first part fills the array. -/
theorem stock_append (listed : Array α) (first second : List α) :
    stock wanted listed (first ++ second) =
      match stock wanted listed first with
      | (some full, listed) => (some full, listed)
      | (none, listed) => stock wanted listed second := by
  induction first generalizing listed with
  | nil => rfl
  | cons item rest ih =>
    rw [List.cons_append, stock, stock]
    split
    · rfl
    · exact ih _

/-- A loop that adds some items in each round adds the items of all rounds. -/
theorem forIn_eq_stock (items : β → List α)
    {body : β → Option (Array α) × Array α → Id (ForInStep (Option (Array α) × Array α))}
    (adds : ∀ value listed, body value (none, listed) = round (stock wanted listed (items value)))
    (values : List β) (listed : Array α) :
    forIn (m := Id) values (none, listed) body = stock wanted listed (values.flatMap items) := by
  induction values generalizing listed with
  | nil => rfl
  | cons value rest ih =>
    rw [List.forIn_cons, List.flatMap_cons, stock_append, adds]
    obtain ⟨full, onward⟩ := stock wanted listed (items value)
    cases full with
    | some full => rfl
    | none => exact ih onward

/-- A round that adds one item. -/
theorem round_stock_singleton (listed : Array α) (item : α) :
    round (stock wanted listed [item]) =
      if wanted ≤ (listed.push item).size then .done (some (listed.push item), listed.push item)
      else .yield (none, listed.push item) := by
  rw [stock, stock]
  split <;> rfl

/-- Full or not, the array has got the first items, as many as there was room for. -/
theorem toList_stock (listed : Array α) (items : List α) (room : listed.size < wanted) :
    ((stock wanted listed items).1.getD (stock wanted listed items).2).toList =
      listed.toList ++ items.take (wanted - listed.size).toNat := by
  induction items generalizing listed with
  | nil =>
    rw [List.take_nil, List.append_nil]
    rfl
  | cons item rest ih =>
    have added : (listed.push item).size = listed.size + 1 := Array.size_push ..
    have counted : (wanted - listed.size).toNat =
        (wanted - (listed.push item).size).toNat + 1 := by omega
    rw [counted, List.take_succ_cons, stock]
    split
    · have full : (wanted - (listed.push item).size).toNat = 0 := by omega
      rw [full, List.take_zero]
      exact Array.toList_push
    · rw [ih _ (by omega), Array.toList_push, List.append_assoc, List.singleton_append]

end

/-- The automata with one table, one for each set of accepting states. -/
def ofTable (alphabet : List String) (number : Nat) : List Description :=
  acceptSets.map (describe alphabet (transitionTable alphabet number))

/-- The loops list the automata table by table, up to the number requested. -/
theorem toList_enumerate_eq_take (alphabet : List String) (maxStates count : Int) :
    (enumerate alphabet maxStates count).toList =
      ((List.range (tableCount alphabet)).flatMap (ofTable alphabet)).take count.toNat := by
  unfold enumerate
  by_cases none : count ≤ 0
  · rw [if_pos none, Int.toNat_of_nonpos none, List.take_zero]
    rfl
  · rw [if_neg none]
    simp only [Std.Legacy.Range.forIn_eq_forIn_range', Std.Legacy.Range.size, Nat.sub_zero,
      Nat.add_sub_cancel, Nat.div_one, ← List.range_eq_range']
    rw [forIn_eq_stock count (ofTable alphabet)]
    · have filled := toList_stock count #[]
        ((List.range (tableCount alphabet)).flatMap (ofTable alphabet)) (by simpa using none)
      rw [Array.size_empty, Int.natCast_zero, Int.sub_zero, List.nil_append] at filled
      rw [← filled]
      rcases stock count #[] ((List.range (tableCount alphabet)).flatMap (ofTable alphabet)) with
        ⟨_ | full, listed⟩ <;> rfl
    · intro number listed
      rw [forIn_eq_stock count fun sets =>
        [describe alphabet (transitionTable alphabet number) sets], ← List.map_eq_flatMap]
      · unfold ofTable
        dsimp only
        rcases stock count listed _ with ⟨_ | full, onward⟩ <;> rfl
      · intro acceptStates listed
        rw [round_stock_singleton]
        split <;> rfl

/-! ## The digits of a table -/

/-- The loop over the symbols fills a row with the digits from a place on and leaves the later ones.
-/
theorem forIn_alphabet (alphabet : List String) (table first : Nat)
    (row : OrderedMap String String) :
    (forIn (m := Id) alphabet (table / 2 ^ first, row) fun symbol state =>
        pure (.yield (state.1 / 2, state.2.insert symbol (target (state.1 % 2 == 1))))) =
      pure (table / 2 ^ (first + alphabet.length),
        ((alphabet.zipIdx first).map fun (symbol, place) =>
          (symbol, target (table.testBit place))).foldl
            (fun row entry => row.insert entry.1 entry.2) row) := by
  induction alphabet generalizing first row with
  | nil => rfl
  | cons symbol rest ih =>
    have digit : (table / 2 ^ first % 2 == 1) = table.testBit first := by
      rw [Nat.testBit_eq_decide_div_mod_eq]
      rfl
    have later : table / 2 ^ first / 2 = table / 2 ^ (first + 1) := by
      rw [Nat.div_div_eq_div_mul, Nat.pow_succ]
    rw [List.forIn_cons, pure_bind]
    dsimp only
    rw [digit, later, ih, List.length_cons, Nat.add_right_comm, Nat.add_assoc]
    rfl

/-- The two rows of a table, of which the second begins where the first ends. -/
theorem map_row_states (alphabet : List String) (table : Nat) :
    (states.zipIdx.map fun (state, place) =>
        (state, row alphabet table (place * alphabet.length))) =
      [("q0", row alphabet table 0), ("q1", row alphabet table alphabet.length)] := by
  simp [states]

/-- A table has for each state the row of its digits. -/
theorem transitionTable_eq (alphabet : List String) (number : Nat) :
    transitionTable alphabet number = .ofList (states.zipIdx.map fun (state, place) =>
      (state, row alphabet number (place * alphabet.length))) := by
  have first := forIn_alphabet alphabet number 0 .empty
  have second := forIn_alphabet alphabet number alphabet.length .empty
  rw [Nat.pow_zero, Nat.div_one, Nat.zero_add] at first
  unfold transitionTable
  rw [map_row_states, states]
  simp only [List.forIn_cons, List.forIn_nil, first, second, pure_bind]
  rfl

/-- The automata of all tables stand at the indices made of the number of the table and that of the
accept set. -/
theorem flatMap_ofTable (alphabet : List String) (count : Nat) :
    (List.range count).flatMap (ofTable alphabet) =
      (List.range (count * 4)).map (entry alphabet) := by
  induction count with
  | zero => rfl
  | succ count ih =>
    have entries : ofTable alphabet count =
        (List.range 4).map fun mask => entry alphabet (count * 4 + mask) := by
      unfold ofTable acceptSets
      rw [List.map_map]
      refine List.map_congr_left fun mask member => ?_
      have small := List.mem_range.mp member
      have number : (count * 4 + mask) / 4 = count := by omega
      have rest : (count * 4 + mask) % 4 = mask := by omega
      change describe alphabet (transitionTable alphabet count) (accepting mask) = _
      rw [transitionTable_eq, entry, number, rest]
      rfl
    rw [List.range_succ, List.flatMap_append, ih, List.flatMap_singleton, entries, Nat.succ_mul,
      List.range_add, List.map_append, List.map_map]
    rfl

/-- **What is listed.** The loops list the beginning of the sequence of entries. -/
theorem toList_enumerate (alphabet : List String) (maxStates count : Int) :
    (enumerate alphabet maxStates count).toList = take alphabet count := by
  rw [toList_enumerate_eq_take, flatMap_ofTable, ← List.map_take, List.take_range]
  rfl

/-- As many automata are listed as were requested, up to the number of all of them. -/
theorem size_enumerate (alphabet : List String) (maxStates count : Int) :
    (enumerate alphabet maxStates count).size = supply alphabet count := by
  rw [← Array.length_toList, toList_enumerate, take, List.length_map, List.length_range]

/-- The automaton that is listed at an index is the entry with this index. -/
theorem getElem_enumerate {alphabet : List String} {maxStates count : Int} {index : Nat}
    (inside : index < (enumerate alphabet maxStates count).size) :
    (enumerate alphabet maxStates count)[index] = entry alphabet index := by
  rw [← Array.getElem_toList]
  simp only [toList_enumerate, take, List.getElem_map, List.getElem_range]

/-! ## What stands at an index -/

/-- The description is the one at an index: the bits of the index are its accepting states, and
after them its transitions, in the order of the states and of the symbols. -/
structure IsEntry (alphabet : List String) (index : Nat) (description : Description) : Prop where
  states_eq : description.states = ["q0", "q1"]
  alphabet_eq : description.alphabet = alphabet
  start_eq : description.startState = "q0"
  acceptStates_eq : description.acceptStates =
    (description.states.zipIdx.filter fun (_, place) => (index % 4).testBit place).map Prod.fst
  keys_eq : description.transitions.keys = description.states
  /-- The row of a state has the symbols of the alphabet. A symbol leads to the state that is
  given by the bit at its last place. -/
  row_find? : ∀ (number : Nat) (state : String), description.states[number]? = some state →
    ∃ row, description.transitions.find? state = some row ∧
      (∀ symbol, symbol ∈ row.keys ↔ symbol ∈ alphabet) ∧
      ∀ (place : Nat) (symbol : String), alphabet[place]? = some symbol →
        symbol ∉ alphabet.drop (place + 1) →
          row.find? symbol = description.states[
            ((index / 4).testBit (number * alphabet.length + place)).toNat]?

/-- The digits of a row belong to the symbols in the order of the alphabet. -/
theorem map_fst_digits (alphabet : List String) (table first : Nat) :
    ((alphabet.zipIdx first).map fun (symbol, place) =>
      (symbol, target (table.testBit place))).map Prod.fst = alphabet := by
  rw [List.map_map]
  exact List.zipIdx_map_fst first alphabet

/-- A row has the symbols of the alphabet and no others. -/
theorem mem_keys_row {alphabet : List String} {table first : Nat} {symbol : String} :
    symbol ∈ (row alphabet table first).keys ↔ symbol ∈ alphabet := by
  unfold row
  rw [OrderedMap.mem_keys_ofList, map_fst_digits]

/-- Of a symbol that occurs several times the last place counts. -/
theorem find?_row {alphabet : List String} {place : Nat} {symbol : String}
    (stands : alphabet[place]? = some symbol) (last : symbol ∉ alphabet.drop (place + 1))
    (table first : Nat) :
    (row alphabet table first).find? symbol = some (target (table.testBit (first + place))) := by
  obtain ⟨inside, here⟩ := List.getElem?_eq_some_iff.mp stands
  have split : alphabet = alphabet.take place ++ symbol :: alphabet.drop (place + 1) := by
    rw [← here, List.getElem_cons_drop, List.take_append_drop]
  have before : (alphabet.take place).length = place :=
    List.length_take_of_le (Nat.le_of_lt inside)
  unfold row
  rw [split, List.zipIdx_append, List.zipIdx_cons, List.map_append, List.map_cons, before]
  apply OrderedMap.find?_ofList_append_cons
  rw [map_fst_digits]
  exact last

theorem states_nodup : states.Nodup := by decide

/-- The transitions of an entry are its two rows. -/
theorem transitions_entry (alphabet : List String) (index : Nat) :
    (entry alphabet index).transitions =
      ⟨[("q0", row alphabet (index / 4) 0), ("q1", row alphabet (index / 4) alphabet.length)],
        states_nodup⟩ := by
  change OrderedMap.ofList (states.zipIdx.map fun (state, place) =>
    (state, row alphabet (index / 4) (place * alphabet.length))) = _
  rw [map_row_states]
  exact OrderedMap.ofList_eq_of_nodup _

/-- Each of the two states has its own row. -/
theorem find?_transitions_entry (alphabet : List String) (index : Nat) {number : Nat}
    {state : String} (named : states[number]? = some state) :
    (entry alphabet index).transitions.find? state =
      some (row alphabet (index / 4) (number * alphabet.length)) := by
  rw [transitions_entry, OrderedMap.find?_eq_some_iff]
  rcases number with _ | _ | number
  · cases named
    simp
  · cases named
    simp
  · cases named

/-- A bit stands for the state whose number it is. -/
theorem states_testBit (bit : Bool) : states[bit.toNat]? = some (target bit) := by
  cases bit <;> rfl

/-- The closed form has the transitions and the accepting states that the bits of its index state.
-/
theorem isEntry_entry (alphabet : List String) (index : Nat) :
    IsEntry alphabet index (entry alphabet index) where
  states_eq := rfl
  alphabet_eq := rfl
  start_eq := rfl
  acceptStates_eq := rfl
  keys_eq := by
    rw [transitions_entry]
    rfl
  row_find? := by
    intro number state named
    refine ⟨_, find?_transitions_entry alphabet index named, fun symbol => mem_keys_row, ?_⟩
    intro place symbol stands last
    rw [find?_row stands last]
    exact (states_testBit _).symm

/-- **The list in closed form.** There are as many automata as requested, up to the number of all of
them, and each is read off from its index. The number of states asked for has no effect, and a
smaller request gives the beginning of the list. -/
theorem enumerate_closedForm (alphabet : List String) (maxStates count : Int) :
    ((enumerate alphabet maxStates count).size : Int) = min (max count 0) (size alphabet) ∧
      size alphabet = 2 ^ (2 * alphabet.length) * 4 ∧
      (∀ (index : Nat) (inside : index < (enumerate alphabet maxStates count).size),
        IsEntry alphabet index (enumerate alphabet maxStates count)[index]) ∧
      (∀ other, enumerate alphabet other count = enumerate alphabet maxStates count) ∧
      ∀ fewer ≤ count, (enumerate alphabet maxStates fewer).toList <+:
        (enumerate alphabet maxStates count).toList := by
  refine ⟨?_, rfl, ?_, ?_, ?_⟩
  · rw [size_enumerate, supply]
    omega
  · intro index inside
    rw [getElem_enumerate]
    exact isEntry_entry alphabet index
  · intro other
    apply Array.toList_inj.mp
    rw [toList_enumerate, toList_enumerate]
  · intro fewer less
    rw [toList_enumerate_eq_take, toList_enumerate_eq_take]
    exact List.take_prefix_take_left (Int.toNat_le_toNat less)

/-- Of the two places of the letter a the last one counts: at index 17 only its bit is set. -/
theorem enumerate_aba :
    ∃ inside : 17 < (enumerate ["a", "b", "a"] 5 18).size,
      (enumerate ["a", "b", "a"] 5 18)[17].acceptStates = ["q0"] ∧
      (∃ row, (enumerate ["a", "b", "a"] 5 18)[17].transitions.find? "q0" = some row ∧
        row.find? "a" = some "q1" ∧ row.find? "b" = some "q0") ∧
      (enumerate ["a", "b", "a"] 5 7).toList <+: (enumerate ["a", "b", "a"] 5 18).toList := by
  obtain ⟨length, all, entries, -, shorter⟩ := enumerate_closedForm ["a", "b", "a"] 5 18
  have inside : 17 < (enumerate ["a", "b", "a"] 5 18).size := by
    change size ["a", "b", "a"] = 256 at all
    omega
  have described := entries 17 inside
  refine ⟨inside, ?_, ?_, shorter 7 (by decide)⟩
  · rw [described.acceptStates_eq, described.states_eq]
    rfl
  · have states := described.states_eq
    obtain ⟨row, stored, -, targets⟩ := described.row_find? 0 "q0" (by rw [states]; rfl)
    have a := targets 2 "a" rfl (by decide)
    have b := targets 1 "b" rfl (by decide)
    rw [states] at a b
    exact ⟨row, stored, a, b⟩

end Enumeration

end Dfa

end AutomataKit
