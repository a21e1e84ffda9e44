import AutomataKit.Proofs.Machine.Description
import Mathlib.Data.List.Basic
import Mathlib.Data.List.Induction
import Mathlib.Data.List.Perm.Basic

/-!
# Machines rebuilt from their descriptions

A description has the transitions of a machine state by state, wherever they stand in its table:
the states in the order of their first transitions, and for each state its transitions in their
order (`TuringMachine.entries_nested`). Nothing is merged or lost, so the transitions that are read
back one after the other are those of the machine in another order, and the machine that is rebuilt
from them answers alike (`TuringMachine.rebuild?_toJson`).
-/

namespace AutomataKit

/-! ## Grouping -/

/-- The items with the key of the first item, then those with the next key, and so on, are all items
once each. -/
theorem flatMap_filter_perm {α κ : Type} [DecidableEq κ] (key : α → κ) (items : List α) :
    ((items.map key).eraseDups.flatMap fun wanted => items.filter (key · = wanted)).Perm items := by
  induction shorter : items.length using Nat.strongRecOn generalizing items with
  | ind length ih =>
    cases items with
    | nil => rfl
    | cons item rest =>
      -- The groups behind the first are those of the items with another key, which are fewer.
      let others := rest.filter fun other => !(key other = key item : Bool)
      have fewer : others.length < length := by
        rw [← shorter]
        exact Nat.lt_succ_of_le (List.length_filter_le ..)
      have keys : (rest.map key).filter (fun other => !other == key item) = others.map key :=
        List.filter_map
      have split : (item :: rest).filter (fun other => !(key other = key item : Bool)) = others :=
        List.filter_cons_of_neg (by simp)
      have group (wanted : κ) (later : wanted ∈ (others.map key).eraseDups) :
          (item :: rest).filter (key · = wanted) = others.filter (key · = wanted) := by
        obtain ⟨other, member, rfl⟩ := List.mem_map.mp (List.mem_eraseDups.mp later)
        have different : key other ≠ key item := by simpa using (List.mem_filter.mp member).2
        rw [← split, List.filter_filter]
        refine List.filter_congr fun third _ => ?_
        by_cases same : key third = key other <;> simp [same, different]
      rw [List.map_cons, List.eraseDups_cons, List.flatMap_cons, keys]
      calc
        _ = (item :: rest).filter (key · = key item) ++
            (others.map key).eraseDups.flatMap fun wanted => others.filter (key · = wanted) := by
          rw [List.flatMap_congr group]
        (_ : List α).Perm ((item :: rest).filter (key · = key item) ++ others) :=
          (ih others.length fewer others rfl).append_left _
        (_ : List α).Perm (item :: rest) := by
          rw [← split]
          exact List.filter_append_perm (key · = key item) (item :: rest)

namespace OrderedMap

variable {κ α β : Type} [DecidableEq κ]

/-- What a map shows under its keys, in their order. -/
theorem map_entries_eq (map : OrderedMap κ α) {view : α → β} {look : κ → β}
    (stored : ∀ key value, map.find? key = some value → view value = look key) :
    map.entries.map (fun entry => (entry.1, view entry.2)) =
      map.keys.map fun key => (key, look key) := by
  unfold keys
  rw [List.map_map]
  refine List.map_congr_left fun entry member => ?_
  exact Prod.ext rfl (stored entry.1 entry.2 (find?_eq_some_iff.mpr member))

end OrderedMap

/-! ## Transitions in a nested table -/

/-- The transitions from a state, in their order. -/
def transitionsFrom (entries : List ((String × String) × Transition)) (state : String) :
    List (String × Transition) :=
  (entries.filter (·.1.1 = state)).map fun entry => (entry.1.2, entry.2)

/-- The states that have transitions, in the order of their first transitions. -/
def sources (entries : List ((String × String) × Transition)) : List String :=
  (entries.map fun entry => entry.1.1).eraseDups

namespace NestedTransitions

variable (rows : NestedTransitions)

/-- The transitions from a state; there are none when it has no row. -/
def rowEntries (state : String) : List (String × Transition) :=
  ((rows.find? state).getD .empty).entries

theorem rowEntries_add (state symbol : String) (transition : Transition) (query : String) :
    rowEntries (add rows ((state, symbol), transition)) query =
      if query = state then OrderedMap.assign symbol transition (rowEntries rows state)
      else rowEntries rows query := by
  unfold rowEntries add
  rw [OrderedMap.find?_insert]
  by_cases here : query = state
  · rw [if_pos here, if_pos here]
    rfl
  · rw [if_neg here, if_neg here]

/-- Adding transitions for new pairs appends those from a state to its row. -/
theorem rowEntries_foldl_add (entries : List ((String × String) × Transition))
    (distinct : (entries.map Prod.fst).Nodup)
    (new : ∀ entry ∈ entries, entry.1.2 ∉ (rowEntries rows entry.1.1).map Prod.fst)
    (state : String) :
    rowEntries (entries.foldl add rows) state =
      rowEntries rows state ++ transitionsFrom entries state := by
  induction entries generalizing rows with
  | nil => exact (List.append_nil _).symm
  | cons entry rest ih =>
    obtain ⟨⟨source, symbol⟩, transition⟩ := entry
    obtain ⟨absent, distinctRest⟩ := List.nodup_cons.mp distinct
    obtain ⟨newHere, newRest⟩ := List.forall_mem_cons.mp new
    have appended := OrderedMap.assign_of_not_mem transition newHere
    rw [List.foldl_cons, ih _ distinctRest]
    · rw [rowEntries_add, transitionsFrom, transitionsFrom, List.filter_cons]
      by_cases here : state = source
      · subst here
        simp [appended]
      · simp [here, Ne.symm here]
    · intro other member
      rw [rowEntries_add]
      by_cases here : other.1.1 = source
      · rw [if_pos here, appended, List.map_append, List.mem_append]
        rintro (before | last)
        · exact newRest other member (here ▸ before)
        · rw [List.map_singleton, List.mem_singleton] at last
          exact absent (List.mem_map.mpr ⟨other, member, Prod.ext here last⟩)
      · rw [if_neg here]
        exact newRest other member

-- The transitions from p do not stand together, and one of them replaces an earlier one.
example :
    rowEntries ((OrderedMap.ofList [(("p", ""), ⟨"p", "a", .left⟩), (("q", "ab"), ⟨"p", "", .stay⟩),
        (("p", "a"), ⟨"q", "", .right⟩), (("p", ""), ⟨"q", "ab", .right⟩)]).entries.foldl
          add .empty) "p" =
      [("", ⟨"q", "ab", .right⟩), ("a", ⟨"q", "", .right⟩)] := by
  decide

/-- A state gets its row with its first transition. -/
theorem keys_foldl_add (entries : List ((String × String) × Transition)) :
    (entries.foldl add .empty).keys = sources entries := by
  induction entries using List.reverseRecOn with
  | nil => rfl
  | append_singleton before entry ih =>
    have added : ((before ++ [entry]).foldl add .empty).keys =
        if entry.1.1 ∈ sources before then sources before
        else sources before ++ [entry.1.1] := by
      rw [List.foldl_concat, ← ih]
      exact OrderedMap.keys_insert ..
    rw [added, sources, sources, List.map_append, List.eraseDups_append]
    by_cases present : entry.1.1 ∈ before.map fun entry => entry.1.1
    · simp [List.removeAll, present, List.mem_eraseDups]
    · simp [List.removeAll, present, List.mem_eraseDups, List.eraseDups_cons]

end NestedTransitions

namespace TuringMachine

variable (machine : TuringMachine)

/-- **What a nested table holds.** The states stand in the order of their first transitions, and
with each stand the transitions from it, in their order. -/
theorem entries_nested :
    machine.nested.entries.map (fun row => (row.1, row.2.entries)) =
      (sources machine.transitions.entries).map fun state =>
        (state, transitionsFrom machine.transitions.entries state) := by
  unfold nested
  rw [← NestedTransitions.keys_foldl_add]
  refine OrderedMap.map_entries_eq _ fun state row stored => ?_
  have appended := NestedTransitions.rowEntries_foldl_add .empty machine.transitions.entries
    machine.transitions.keys_nodup (fun _ _ => List.not_mem_nil) state
  rwa [NestedTransitions.rowEntries, stored] at appended

/-- The transitions in a nested table, one after the other. -/
def unnested : List ((String × String) × Transition) :=
  machine.nested.entries.flatMap fun row =>
    row.2.entries.map fun entry => ((row.1, entry.1), entry.2)

/-- Nesting rearranges the transitions and loses none. -/
theorem perm_unnested : machine.unnested.Perm machine.transitions.entries := by
  have grouped : machine.unnested = (sources machine.transitions.entries).flatMap fun state =>
      machine.transitions.entries.filter (·.1.1 = state) := by
    have rows := congrArg (List.flatMap fun row : String × List (String × Transition) =>
      row.2.map fun entry => ((row.1, entry.1), entry.2)) machine.entries_nested
    rw [List.flatMap_map, List.flatMap_map] at rows
    refine rows.trans (List.flatMap_congr fun state _ => ?_)
    rw [transitionsFrom, List.map_map]
    refine (List.map_congr_left fun entry member => ?_).trans (List.map_id _)
    have source : entry.1.1 = state := of_decide_eq_true (List.mem_filter.mp member).2
    rw [← source]
    rfl
  rw [grouped]
  exact flatMap_filter_perm _ _

/-- A machine with the transitions in another order answers alike. -/
theorem transition?_of_perm {other : TuringMachine}
    (same : other.transitions.entries.Perm machine.transitions.entries) (state symbol : String) :
    other.transition? state symbol = machine.transition? state symbol := by
  refine Option.ext fun transition => ?_
  unfold transition?
  rw [OrderedMap.find?_eq_some_iff, OrderedMap.find?_eq_some_iff, same.mem_iff]

end TuringMachine

/-! ## Reading a description -/

/-- A transition as it stands in a list, its letter written. -/
def ListedTransition.ofEntry (entry : (String × String) × Transition) : ListedTransition :=
  ⟨entry.1.1, entry.1.2, entry.2.next, entry.2.write, .str entry.2.move.letter⟩

/-- The transition for a state and a symbol in a nested table; the letter is not read. -/
def ListedTransition.ofJson? (state symbol : String) (value : Json) : Option ListedTransition := do
  let next ← (value.members.lookup "next_state").bind Json.text?
  let write ← (value.members.lookup "write_symbol").bind Json.text?
  let move ← value.members.lookup "move"
  return ⟨state, symbol, next, write, move⟩

/-- The transitions in a nested table, state by state and for each state symbol by symbol. -/
def listedTransitions? (table : Json) : Option (List ListedTransition) := do
  let rows ← table.members.mapM fun (state, row) =>
    row.members.mapM fun (symbol, value) => ListedTransition.ofJson? state symbol value
  return rows.flatten

/-- The machine that a description gives: its lists and names, and the table of its transitions.
There is none if something is missing, and it fails on a letter that is no move. -/
def TuringMachine.rebuild? (value : Json) : Option (Except InvalidMove TuringMachine) := do
  let entry (name : String) : Option Json := value.members.lookup name
  let states ← (entry "states").bind fun names => names.items.mapM Json.text?
  let alphabet ← (entry "alphabet").bind fun names => names.items.mapM Json.text?
  let listed ← (entry "transitions").bind listedTransitions?
  let start ← (entry "start_state").bind Json.text?
  let accept ← (entry "accept_state").bind Json.text?
  let reject ← (entry "reject_state").bind Json.text?
  let blank ← (entry "blank_symbol").bind Json.text?
  return (transitionTable listed).map fun transitions =>
    { states, alphabet, transitions, start, accept, reject, blank }

/-- A pass over a list that succeeds on every item. -/
theorem mapM_eq_pure {m : Type → Type} [Monad m] [LawfulMonad m] {α β : Type} {each : α → m β}
    {result : α → β} (succeeds : ∀ item, each item = pure (result item)) (items : List α) :
    items.mapM each = pure (items.map result) := by
  rw [funext succeeds]
  exact List.mapM_pure

theorem mapM_text?_map_str (texts : List String) :
    (texts.map Json.str).mapM Json.text? = some texts := by
  rw [List.mapM_map]
  exact (mapM_eq_pure (fun _ => rfl) texts).trans (congrArg some (List.map_id texts))

/-- Read back, the transitions of a description are those of its nested table. -/
theorem listedTransitions?_nested (machine : TuringMachine) :
    listedTransitions? (.ofMap (.ofMap Transition.toJson) machine.nested) =
      some (machine.unnested.map .ofEntry) := by
  have row (entry : String × OrderedMap String Transition) :
      (Json.ofMap Transition.toJson entry.2).members.mapM
          (fun (symbol, value) => ListedTransition.ofJson? entry.1 symbol value) =
        some (entry.2.entries.map fun inner => .ofEntry ((entry.1, inner.1), inner.2)) := by
    refine List.mapM_map.trans ?_
    exact mapM_eq_pure (fun _ => rfl) _
  have rows : (Json.ofMap (.ofMap Transition.toJson) machine.nested).members.mapM
      (fun (state, row) => row.members.mapM
        fun (symbol, value) => ListedTransition.ofJson? state symbol value) =
      some (machine.nested.entries.map fun entry =>
        entry.2.entries.map fun inner => .ofEntry ((entry.1, inner.1), inner.2)) := by
    refine List.mapM_map.trans ?_
    exact mapM_eq_pure row _
  unfold listedTransitions?
  rw [rows, TuringMachine.unnested, List.map_flatMap]
  simp only [List.map_map, List.flatMap_def]
  rfl

theorem transitionTable_ofEntry (entries : List ((String × String) × Transition)) :
    transitionTable (entries.map .ofEntry) = .ok (.ofList entries) := by
  have read (entry : (String × String) × Transition) :
      (ListedTransition.ofEntry entry).entry = .ok entry := by
    obtain ⟨⟨state, symbol⟩, next, write, move⟩ := entry
    cases move <;> rfl
  have all : (entries.map ListedTransition.ofEntry).mapM ListedTransition.entry =
      .ok entries := by
    refine List.mapM_map.trans ?_
    exact (mapM_eq_pure read entries).trans (congrArg Except.ok (List.map_id entries))
  unfold transitionTable
  rw [all]
  rfl

namespace TuringMachine

variable (machine : TuringMachine)

/-- The machine with its transitions in the order in which a description has them. -/
def regrouped : TuringMachine :=
  { machine with
    transitions := ⟨machine.unnested,
      (machine.perm_unnested.map Prod.fst).nodup_iff.mpr machine.transitions.keys_nodup⟩ }

theorem transitionTable_unnested :
    transitionTable (machine.unnested.map .ofEntry) = .ok machine.regrouped.transitions := by
  rw [transitionTable_ofEntry]
  exact congrArg Except.ok (OrderedMap.ofList_eq_of_nodup machine.regrouped.transitions.keys_nodup)

theorem rebuild?_toJson_eq : rebuild? machine.toJson = some (.ok machine.regrouped) := by
  have states := mapM_text?_map_str machine.states
  have alphabet := mapM_text?_map_str machine.alphabet
  refine Option.bind_eq_some_iff.mpr ⟨_, states, ?_⟩
  refine Option.bind_eq_some_iff.mpr ⟨_, alphabet, ?_⟩
  refine Option.bind_eq_some_iff.mpr ⟨_, listedTransitions?_nested machine, ?_⟩
  rw [machine.transitionTable_unnested]
  rfl

/-- The names in a written table: states by their first transitions, and for each its symbols. -/
theorem names_nested :
    (Json.ofMap (.ofMap Transition.toJson) machine.nested).members.map
        (fun row => (row.1, row.2.members.map Prod.fst)) =
      (machine.transitions.keys.map Prod.fst).eraseDups.map fun state =>
        (state, (machine.transitions.keys.filter (·.1 = state)).map Prod.snd) := by
  have written : (Json.ofMap (.ofMap Transition.toJson) machine.nested).members.map
      (fun row => (row.1, row.2.members.map Prod.fst)) =
      machine.nested.entries.map fun row => (row.1, row.2.entries.map Prod.fst) := by
    refine List.map_map.trans (List.map_congr_left fun row _ => ?_)
    exact congrArg (Prod.mk row.1) List.map_map
  have rows := congrArg (List.map fun row : String × List (String × Transition) =>
    (row.1, row.2.map Prod.fst)) machine.entries_nested
  have states : (machine.transitions.keys.map Prod.fst).eraseDups =
      sources machine.transitions.entries := congrArg List.eraseDups List.map_map
  rw [List.map_map, List.map_map] at rows
  refine written.trans (rows.trans ?_)
  rw [states]
  refine List.map_congr_left fun state _ => ?_
  change (state, (transitionsFrom machine.transitions.entries state).map Prod.fst) = _
  rw [transitionsFrom, OrderedMap.keys, List.filter_map, List.map_map, List.map_map]
  rfl

theorem runsAlike_regrouped : machine.regrouped.RunsAlike machine where
  transition?_eq := machine.transition?_of_perm machine.perm_unnested
  start_eq := rfl
  accept_eq := rfl
  reject_eq := rfl
  blank_eq := rfl

/-- **A description loses nothing that a run can see.** The transitions in it are as many as those
of the machine. The states stand in the order of their first transitions, and the symbols of a state
in the order of its transitions. The machine that is rebuilt has the same lists and names, answers
alike, and makes the same records. -/
theorem rebuild?_toJson :
    ∃ table listed rebuilt, machine.toJson.members.lookup "transitions" = some table ∧
      listedTransitions? table = some listed ∧
      listed.length = machine.transitions.size ∧
      table.members.map (fun row => (row.1, row.2.members.map Prod.fst)) =
        (machine.transitions.keys.map Prod.fst).eraseDups.map (fun state =>
          (state, (machine.transitions.keys.filter (·.1 = state)).map Prod.snd)) ∧
      rebuild? machine.toJson = some (.ok rebuilt) ∧
      rebuilt = { machine with transitions := rebuilt.transitions } ∧
      (∀ state symbol, rebuilt.transition? state symbol = machine.transition? state symbol) ∧
      (∀ state, rebuilt.Halting state ↔ machine.Halting state) ∧
      ∀ input maxSteps, rebuilt.simulate input maxSteps = machine.simulate input maxSteps := by
  have alike := machine.runsAlike_regrouped
  refine ⟨_, _, machine.regrouped, rfl, listedTransitions?_nested machine, ?_,
    machine.names_nested, machine.rebuild?_toJson_eq, rfl, alike.transition?_eq,
    alike.halting_iff, alike.simulate_eq⟩
  rw [List.length_map]
  exact machine.perm_unnested.length_eq

end TuringMachine

end AutomataKit
