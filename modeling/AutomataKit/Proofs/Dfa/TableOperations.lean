import Mathlib.Data.Fin.Basic
import Mathlib.Data.List.Basic
import AutomataKit.Proofs.Dfa.Resumption
import AutomataKit.Proofs.Dfa.Search
import AutomataKit.Proofs.Dfa.TableReading

/-!
# The operations on tables never fail

Tables that represent an automaton hold every entry that an operation looks up, and each operation
gives what the automaton gives. A run and the entries of the machine index the tables by states and
symbols of the automaton. A search follows the frontier of the automaton's own search
(`Dfa.Tables.Tracks`): what it has seen are the states that had their turn or wait for it.

So an operation on a value fails only where the checks find a defect, and then with its message
(`Dfa.settled_operations`).
-/

namespace AutomataKit

namespace Dfa

namespace Tables

variable {dfa : Dfa} {tables : Tables}

namespace Represents

variable (represents : tables.Represents dfa)
include represents

/-- The name of a state is found at its index. -/
theorem name_eq_ok (state : dfa.State) : tables.name state = .ok (dfa.name state) := by
  have inside : state.val < tables.states.length := by
    rw [represents.states_eq]
    exact state.isLt
  rw [name, entryAt_eq_ok inside]
  exact congrArg Except.ok (List.getElem_of_eq represents.states_eq inside)

/-- The index of a state is listed as accepting exactly when the state is. -/
theorem contains_accepting (state : dfa.State) :
    tables.accepting.contains state.val = dfa.accepts state := by
  rw [Bool.eq_iff_iff, List.contains_iff_mem, represents.mem_accepting_iff]
  constructor
  · rintro ⟨other, same, accepts⟩
    exact Fin.ext same ▸ accepts
  · exact fun accepts => ⟨state, rfl, accepts⟩

/-- A text has the index of the symbol with this name. -/
theorem idxOf?_symbols (name : String) :
    tables.symbols.idxOf? name = (dfa.symbol? name).map Fin.val := by
  rw [represents.symbols_eq]
  exact List.idxOf?_eq_map_finIdxOf?_val

/-! ## Runs -/

/-- A run from a state reports the walk from it, after what was read before. -/
theorem runFrom_eq_ok (state : dfa.State) (position : Nat) (path : List (String × Char × String))
    (chars : List Char) :
    tables.runFrom state position path chars =
      .ok ((dfa.walk state chars).report.resumed position path) := by
  induction chars generalizing state position path with
  | nil =>
    refine bind_eq_ok_iff.mpr ⟨_, represents.name_eq_ok state, ?_⟩
    rw [represents.contains_accepting]
    exact congrArg (fun path => Except.ok (Run.mk path _ _ none)) (List.append_nil path).symm
  | cons c rest ih =>
    have asked : tables.symbols.idxOf? (String.singleton c) = (dfa.symbolOf? c).map Fin.val :=
      represents.idxOf?_symbols (String.singleton c)
    rw [runFrom, asked]
    cases known : dfa.symbolOf? c with
    | none =>
      rw [walk_cons_of_none known]
      refine bind_eq_ok_iff.mpr ⟨_, represents.name_eq_ok state, ?_⟩
      exact congrArg (fun path => Except.ok (Run.mk path _ _ (some ⟨c, position⟩)))
        (List.append_nil path).symm
    | some symbol =>
      rw [report_walk_cons_of_some known, Run.resumed_resumed]
      refine bind_eq_ok_iff.mpr ⟨_, represents.step_eq state symbol, ?_⟩
      refine bind_eq_ok_iff.mpr ⟨_, represents.name_eq_ok state, ?_⟩
      refine bind_eq_ok_iff.mpr ⟨_, represents.name_eq_ok (dfa.next state symbol), ?_⟩
      exact ih (dfa.next state symbol) (position + 1) _

/-- A run on the tables finds all it looks up, and is the run of the automaton. -/
theorem run_eq_ok (text : String) : tables.run text = .ok (dfa.run text) := by
  rw [run, represents.start_eq, represents.runFrom_eq_ok, Run.resumed_nil]
  rfl

/-! ## The machine -/

/-- The row that is built for a state holds the transitions of the automaton's machine. -/
theorem machineRow_eq_ok (state : dfa.State) :
    tables.machineRow dfa.acceptName dfa.rejectName dfa.blankName (dfa.name state) state =
      .ok (dfa.machineRow state) := by
  have entry (symbol : dfa.Symbol) :
      tables.machineEntry (dfa.name state) state (dfa.label symbol) symbol =
        .ok ((dfa.name state, dfa.label symbol),
          ⟨dfa.name (dfa.next state symbol), dfa.label symbol, .right⟩) :=
    bind_eq_ok_iff.mpr ⟨_, represents.step_eq state symbol,
      bind_eq_ok_iff.mpr ⟨_, represents.name_eq_ok _, rfl⟩⟩
  unfold machineRow
  rw [represents.symbols_eq]
  refine bind_eq_ok_iff.mpr ⟨_, mapM_zipIdx_eq_ok entry, ?_⟩
  rw [represents.contains_accepting]
  rfl

/-- The machine that is built from the tables is that of the automaton. -/
theorem toMachine_eq_ok : tables.toMachine = .ok dfa.toMachine := by
  have entered : OrderedMap.ofList ((List.finRange dfa.states.length).map dfa.machineRow).flatten =
      dfa.toMachine.transitions := by
    rw [← List.flatMap_def]
    exact OrderedMap.ofList_eq_of_nodup dfa.nodup_map_fst_machineEntries
  unfold toMachine
  rw [represents.states_eq, represents.symbols_eq, represents.start_eq]
  refine bind_eq_ok_iff.mpr ⟨_, mapM_zipIdx_eq_ok represents.machineRow_eq_ok, ?_⟩
  refine bind_eq_ok_iff.mpr ⟨_, represents.name_eq_ok dfa.start, ?_⟩
  rw [entered]
  rfl

end Represents

/-! ## Searches -/

/-- A search that has seen some positions and has some waiting keeps step with the automaton's own
search, which had the turns of the states `past` and comes to a frontier. -/
structure Tracks (sweep : Sweep) (past : List dfa.State) (frontier : dfa.Frontier) : Prop where
  /-- Every state is in one place. -/
  partition :
    (past ++ (frontier.waiting ++ frontier.unseen)).Perm (List.finRange dfa.states.length)
  order_eq : sweep.order = (past ++ frontier.waiting).map Fin.val
  queue_eq : sweep.queue = frontier.waiting.map Fin.val

namespace Tracks

variable {sweep : Sweep} {past : List dfa.State} {frontier : dfa.Frontier}

/-- A state is in the list of the search once it is no longer unseen. -/
theorem mem_order_iff (tracks : Tracks sweep past frontier) (state : dfa.State) :
    state.val ∈ sweep.order ↔ state ∉ frontier.unseen := by
  have placed : state ∈ past ++ frontier.waiting ++ frontier.unseen := by
    rw [List.append_assoc]
    exact tracks.partition.mem_iff.mpr (List.mem_finRange state)
  have distinct : (past ++ frontier.waiting ++ frontier.unseen).Nodup := by
    rw [List.append_assoc]
    exact tracks.partition.nodup_iff.mpr (List.nodup_finRange _)
  rw [tracks.order_eq, List.mem_map_of_injective Fin.val_injective]
  constructor
  · intro seen unseen
    exact (List.nodup_append.mp distinct).2.2 state seen state unseen rfl
  · intro known
    exact (List.mem_append.mp placed).resolve_right known

/-- Seeing a state is discovering it. -/
theorem see (tracks : Tracks sweep past frontier) (state : dfa.State) :
    Tracks (sweep.see state) past (frontier.discover [state]) := by
  have perm := (Frontier.perm_discover frontier [state]).append_left past
  refine ⟨perm.trans tracks.partition, ?_, ?_⟩
  all_goals
    by_cases unseen : state ∈ frontier.unseen
    · have fresh : state.val ∉ sweep.order :=
        fun seen => (tracks.mem_order_iff state).mp seen unseen
      rw [Sweep.see, if_neg fresh, Frontier.discover_cons_of_mem unseen]
      simp [tracks.order_eq, tracks.queue_eq, Frontier.discover]
    · have seen := (tracks.mem_order_iff state).mpr unseen
      rw [Sweep.see, if_pos seen, Frontier.discover_cons_of_not_mem unseen]
      simp [tracks.order_eq, tracks.queue_eq, Frontier.discover]

/-- The search looks up the successors of a state and discovers them. -/
theorem seeSuccessors_eq_ok (represents : tables.Represents dfa)
    (tracks : Tracks sweep past frontier) (state : dfa.State) (symbols : List dfa.Symbol) :
    ∃ onward, tables.seeSuccessors sweep state (symbols.map Fin.val) = .ok onward ∧
      Tracks onward past (frontier.discover (symbols.map (dfa.next state))) := by
  induction symbols generalizing sweep frontier with
  | nil => exact ⟨sweep, rfl, tracks⟩
  | cons symbol rest ih =>
    obtain ⟨onward, seen, tracked⟩ := ih (tracks.see (dfa.next state symbol))
    refine ⟨onward, bind_eq_ok_iff.mpr ⟨_, ?_, seen⟩, tracked⟩
    exact bind_eq_ok_iff.mpr ⟨_, represents.step_eq state symbol, rfl⟩

/-- A whole turn: the state in front leaves the queue, and its successors are seen. -/
theorem turn (represents : tables.Represents dfa) (tracks : Tracks sweep past frontier)
    {state : dfa.State} {next : dfa.Frontier}
    (turn : frontier.advance? = some (state, next)) :
    ∃ rest onward, sweep.queue = state.val :: rest ∧
      tables.seeSuccessors ⟨sweep.order, rest⟩ state (List.range tables.symbols.length) =
        .ok onward ∧ Tracks onward (past ++ [state]) next := by
  obtain ⟨rest, waiting, rfl⟩ := Frontier.advance?_eq_some_iff.mp turn
  have taken : Tracks ⟨sweep.order, rest.map Fin.val⟩ (past ++ [state])
      ⟨rest, frontier.unseen⟩ := by
    refine ⟨?_, ?_, rfl⟩
    · simpa [waiting] using tracks.partition
    · simpa [waiting] using tracks.order_eq
  obtain ⟨onward, seen, tracked⟩ :=
    taken.seeSuccessors_eq_ok represents state (List.finRange dfa.alphabet.length)
  rw [List.map_coe_finRange_eq_range, ← represents.symbols_eq] at seen
  refine ⟨rest.map Fin.val, onward, ?_, seen, tracked⟩
  rw [tracks.queue_eq, waiting]
  rfl

end Tracks

/-- **Searches never fail.** A search stops where the automaton's own search does, and otherwise has
seen the states that had their turn there, in that order. -/
theorem search_eq_ok (represents : tables.Represents dfa) (stop : Nat → Bool)
    (stopAt : dfa.State → Bool) (same : ∀ state : dfa.State, stop state = stopAt state)
    {sweep : Sweep} {past : List dfa.State} {frontier : dfa.Frontier}
    (tracks : Tracks sweep past frontier) :
    ∃ order, tables.search stop sweep = .ok (order, (frontier.turns stopAt).any stopAt) ∧
      ((frontier.turns stopAt).any stopAt = false →
        order = (past ++ frontier.turns stopAt).map Fin.val) := by
  induction frontier using Frontier.turns.induct stopAt generalizing sweep past with
  | case1 frontier ended =>
    have drained := Frontier.advance?_eq_none_iff.mp ended
    have order := tracks.order_eq
    have queue := tracks.queue_eq
    rw [drained] at order queue
    rw [Frontier.turns_of_none stopAt ended, search_of_drained stop queue]
    exact ⟨sweep.order, rfl, fun _ => order⟩
  | case2 frontier state onward turn stops =>
    obtain ⟨rest, -, queue, -, -⟩ := tracks.turn represents turn
    have found : [state].any stopAt = true := by simp [stops]
    rw [Frontier.turns_of_stop turn stops, search_of_stop queue ((same state).trans stops), found]
    exact ⟨sweep.order, rfl, fun missed => absurd missed (by simp)⟩
  | case3 frontier state onward turn goes ih =>
    obtain ⟨rest, next, queue, seen, tracked⟩ := tracks.turn represents turn
    obtain ⟨order, searched, ended⟩ := ih tracked
    have later : (state :: onward.turns stopAt).any stopAt = (onward.turns stopAt).any stopAt := by
      simp [goes]
    rw [Frontier.turns_of_go turn goes, search_of_go queue (same state ▸ goes) seen, later]
    refine ⟨order, searched, fun missed => ?_⟩
    rw [ended missed, List.append_assoc, List.singleton_append]

/-- Both searches begin at the start state. -/
theorem tracks_outset (represents : tables.Represents dfa) :
    Tracks tables.outset [] (Frontier.initial dfa) := by
  refine ⟨(Frontier.searched_initial dfa).partition, ?_, ?_⟩
  all_goals
    rw [outset, represents.start_eq]
    rfl

namespace Represents

variable (represents : tables.Represents dfa)
include represents

/-- No index is listed as accepting when no state is. -/
theorem isEmpty_accepting : tables.accepting.isEmpty = dfa.acceptStates.isEmpty := by
  rw [Bool.eq_iff_iff, List.isEmpty_iff, List.isEmpty_iff, List.eq_nil_iff_forall_not_mem,
    List.eq_nil_iff_forall_not_mem]
  constructor
  · intro none state member
    exact none state ((represents.mem_accepting_iff state).mpr
      ⟨state, rfl, mem_acceptStates.mp member⟩)
  · intro none index member
    obtain ⟨state, -, accepts⟩ := (represents.mem_accepting_iff index).mp member
    exact none state (mem_acceptStates.mpr accepts)

/-- The search of the tables for an accepting state finds what that of the automaton finds. -/
theorem isEmpty_eq_ok : tables.isEmpty = .ok dfa.isEmpty := by
  unfold isEmpty Dfa.isEmpty emptinessTurns
  rw [represents.isEmpty_accepting]
  cases dfa.acceptStates.isEmpty with
  | true => rfl
  | false =>
    obtain ⟨order, searched, -⟩ :=
      search_eq_ok represents tables.accepting.contains dfa.accepts represents.contains_accepting
        (tracks_outset represents)
    exact bind_eq_ok_iff.mpr ⟨_, searched, rfl⟩

/-- The search of the tables reports the names that the automaton's own search reports. -/
theorem reachableNames_eq_ok : tables.reachableNames = .ok dfa.reachableNames := by
  obtain ⟨order, searched, ended⟩ :=
    search_eq_ok represents (fun _ => false) (fun _ => false) (fun _ => rfl)
      (tracks_outset represents)
  refine bind_eq_ok_iff.mpr ⟨_, searched, ?_⟩
  change order.mapM tables.name = _
  rw [ended (by simp), List.nil_append, List.mapM_map]
  exact mapM_eq_ok fun state _ => represents.name_eq_ok state

end Represents

end Tables

/-! ## Operations on values -/

variable {α : Type} {operation : Tables → Except Fault α} {result : Dfa → α} {value : Json}

/-- An operation that finds all it looks up in the tables of an automaton, with its result. -/
def Performs (operation : Tables → Except Fault α) (result : Dfa → α) : Prop :=
  ∀ (tables : Tables) (dfa : Dfa), tables.Represents dfa → operation tables = .ok (result dfa)

/-- What an operation does with a value. It fails exactly where the checks find a defect, and the
failure is this defect with its message. Otherwise it gives the result for the automaton that is
read from the value. -/
structure Settled (value : Json) (operation : Tables → Except Fault α) (result : Dfa → α) :
    Prop where
  error_iff : ∀ fault, attempt value operation = .error fault ↔
    ∃ defect, defect? value = some defect ∧ Fault.invalid defect.message = fault
  ok_iff : ∀ outcome, attempt value operation = .ok outcome ↔
    ∃ dfa, ofJson value = .ok dfa ∧ result dfa = outcome

/-- No operation gets past a defect that the checks find. -/
theorem attempt_of_defect {defect : Defect} (found : defect? value = some defect)
    (operation : Tables → Except Fault α) :
    attempt value operation = .error (.invalid defect.message) := by
  unfold attempt
  rw [check_eq_ok, found]
  rfl

/-- On a value that is read as an automaton, an operation has its result for that automaton. -/
theorem attempt_of_read {dfa : Dfa} (performs : Performs operation result)
    (read : ofJson value = .ok dfa) : attempt value operation = .ok (result dfa) := by
  obtain ⟨tables, built, represents⟩ := Tables.represents_of_ofJson read
  have passed : check value = .ok none := by
    rw [check_eq_ok, exists_ofJson_eq_ok_iff.mp ⟨dfa, read⟩]
  exact bind_eq_ok_iff.mpr ⟨none, passed,
    bind_eq_ok_iff.mpr ⟨tables, built, performs tables dfa represents⟩⟩

/-- An operation that finds all it looks up is settled on every value. -/
theorem settled_of_performs (performs : Performs operation result) (value : Json) :
    Settled value operation result := by
  cases read : ofJson value with
  | error defect =>
    have found := ofJson_eq_error_iff.mp read
    have failed := attempt_of_defect found operation
    constructor
    · intro fault
      simp [failed, found]
    · intro outcome
      simp [failed, read]
  | ok dfa =>
    have found := exists_ofJson_eq_ok_iff.mp ⟨dfa, read⟩
    have succeeded := attempt_of_read performs read
    constructor
    · intro fault
      simp [succeeded, found]
    · intro outcome
      simp [succeeded, read]

/-- **No operation fails in a way of its own.** Whatever the value and the text, running,
converting, deciding emptiness and listing the reachable states fail exactly where the checks find a
defect, with its message, and otherwise give what they give for the automaton. Where a defect is
found, no automaton is read, for the same reason. -/
theorem settled_operations (value : Json) (text : String) :
    (∀ defect, ofJson value = .error defect ↔ defect? value = some defect) ∧
      Settled value (fun tables => tables.run text) (fun dfa => dfa.run text) ∧
      Settled value Tables.toMachine Dfa.toMachine ∧
      Settled value Tables.isEmpty Dfa.isEmpty ∧
      Settled value Tables.reachableNames Dfa.reachableNames :=
  ⟨fun _ => ofJson_eq_error_iff,
    settled_of_performs (fun _ _ represents => represents.run_eq_ok text) value,
    settled_of_performs (fun _ _ represents => represents.toMachine_eq_ok) value,
    settled_of_performs (fun _ _ represents => represents.isEmpty_eq_ok) value,
    settled_of_performs (fun _ _ represents => represents.reachableNames_eq_ok) value⟩

end Dfa

end AutomataKit
