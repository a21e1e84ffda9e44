import AutomataKit.Proofs.Dfa.EarlyExit
import AutomataKit.Proofs.Dfa.TableOperations
import Mathlib.Data.Fintype.Card

/-!
# How often the searches loop

A search over tables is a loop that takes a state from the front of the queue in each round. It
arrives at the head of the loop with the states that it has taken so far, those that it has seen and
those that wait (`Dfa.Tables.Arrives`). There the queue holds only seen states, none of them twice
and none that was taken before, and the successors of a state that was taken are seen
(`Dfa.Tables.Orderly`). So no state is taken twice.

A loop ends when no state waits or with a state at which it stops (`Dfa.Tables.Finishes`). It ends
in one way only, and the states that it took are those that had their turn in the automaton's own
search (`Dfa.Tables.finishes_iff`). This bounds the rounds of both searches by the number of
reachable states (`Dfa.searchLoops_ofJson`).
-/

namespace AutomataKit

namespace Dfa

namespace Tables

/-! ## The head of the loop -/

/-- A search arrives at the head of its loop. The states that it has taken from the queue so far
come first, in the order in which they were taken. -/
inductive Arrives (tables : Tables) (stop : Nat → Bool) : List Nat → Sweep → Prop
  | outset : Arrives tables stop [] tables.outset
  | round {taken : List Nat} {sweep onward : Sweep} {state : Nat} {rest : List Nat}
    (arrives : Arrives tables stop taken sweep) (front : sweep.queue = state :: rest)
    (goes : ¬ stop state = true)
    (seen : tables.seeSuccessors ⟨sweep.order, rest⟩ state (List.range tables.symbols.length) =
      .ok onward) :
    Arrives tables stop (taken ++ [state]) onward

/-- A search leaves its loop, after it has taken some states from the queue. -/
inductive Finishes (tables : Tables) (stop : Nat → Bool) : List Nat → Prop
  | drained {taken : List Nat} {sweep : Sweep} (arrives : tables.Arrives stop taken sweep)
    (drained : sweep.queue = []) : Finishes tables stop taken
  | stopped {taken : List Nat} {sweep : Sweep} {state : Nat} {rest : List Nat}
    (arrives : tables.Arrives stop taken sweep) (front : sweep.queue = state :: rest)
    (stops : stop state = true) : Finishes tables stop (taken ++ [state])

/-- The search for all reachable states takes these states from the queue. -/
def ReachabilityLoop (tables : Tables) (taken : List Nat) : Prop :=
  tables.Finishes (fun _ => false) taken

/-- The search for an accepting state takes these states from the queue. When no state accepts there
is no search. -/
def EmptinessLoop (tables : Tables) (taken : List Nat) : Prop :=
  if tables.accepting.isEmpty then taken = []
  else tables.Finishes tables.accepting.contains taken

/-- **The order at the head of the loop.** -/
structure Orderly (tables : Tables) (taken : List Nat) (sweep : Sweep) : Prop where
  nodup_taken : taken.Nodup
  nodup_queue : sweep.queue.Nodup
  /-- The states that wait are seen. -/
  seen : ∀ state ∈ sweep.queue, state ∈ sweep.order
  /-- No state that was taken waits again. -/
  not_waiting : ∀ state ∈ taken, state ∉ sweep.queue
  /-- The successors of a state that was taken are seen. -/
  closed : ∀ state ∈ taken, ∀ symbol < tables.symbols.length,
    ∃ successor ∈ sweep.order, tables.step state symbol = .ok successor

variable {tables : Tables} {dfa : Dfa} {stop : Nat → Bool} {taken : List Nat} {sweep : Sweep}

/-- The search goes on from the head of its loop. -/
theorem Arrives.search_eq (arrives : tables.Arrives stop taken sweep) :
    tables.search stop sweep = tables.search stop tables.outset := by
  induction arrives with
  | outset => rfl
  | round _ front goes seen ih => rw [← ih, search_of_go front goes seen]

/-! ## Loops over the tables of an automaton -/

/-- A search that has taken some states keeps step with the automaton's own search, and what this
one has still to do completes what it does from the start. -/
structure KeepsStep (stopAt : dfa.State → Bool) (taken : List Nat) (sweep : Sweep)
    (past : List dfa.State) (frontier : dfa.Frontier) : Prop where
  taken_eq : taken = past.map Fin.val
  tracks : Tracks sweep past frontier
  searched : Frontier.Searched past frontier
  turns_eq : past ++ frontier.turns stopAt = (Frontier.initial dfa).turns stopAt

namespace KeepsStep

variable {stopAt : dfa.State → Bool} {past : List dfa.State} {frontier : dfa.Frontier}

/-- The state in front of the queue has the next turn. -/
theorem exists_advance? (keeps : KeepsStep stopAt taken sweep past frontier) {state : Nat}
    {rest : List Nat} (front : sweep.queue = state :: rest) :
    ∃ next onward, frontier.advance? = some (next, onward) ∧ next.val = state := by
  have queue := keeps.tracks.queue_eq
  rw [front] at queue
  obtain ⟨next, others, waiting, same, -⟩ := List.map_eq_cons_iff.mp queue.symm
  exact ⟨next, _, Frontier.advance?_eq_some_iff.mpr ⟨others, waiting, rfl⟩, same⟩

theorem orderly (keeps : KeepsStep stopAt taken sweep past frontier)
    (represents : tables.Represents dfa) : tables.Orderly taken sweep := by
  have distinct := List.nodup_append.mp keeps.searched.nodup
  have waiting := (List.nodup_append.mp distinct.2.1).1
  have queue := keeps.tracks.queue_eq
  refine ⟨?_, ?_, ?_, ?_, ?_⟩
  · rw [keeps.taken_eq]
    exact distinct.1.map Fin.val_injective
  · rw [queue]
    exact waiting.map Fin.val_injective
  · intro state member
    rw [queue] at member
    rw [keeps.tracks.order_eq, List.map_append]
    exact List.mem_append_right _ member
  · intro state early late
    rw [keeps.taken_eq] at early
    rw [queue] at late
    obtain ⟨first, before, rfl⟩ := List.mem_map.mp early
    rw [List.mem_map_of_injective Fin.val_injective] at late
    exact distinct.2.2 first before first (List.mem_append_left _ late) rfl
  · intro state member symbol listed
    rw [keeps.taken_eq] at member
    rw [represents.symbols_eq] at listed
    obtain ⟨first, before, rfl⟩ := List.mem_map.mp member
    have stepped := represents.step_eq first ⟨symbol, listed⟩
    have known := keeps.searched.closed first before ⟨symbol, listed⟩
    exact ⟨_, (keeps.tracks.mem_order_iff _).mpr known, stepped⟩

end KeepsStep

variable {stopAt : dfa.State → Bool}

/-- At the head of its loop a search is in step with the automaton's own search. -/
theorem Arrives.exists_keepsStep (represents : tables.Represents dfa)
    (same : ∀ state : dfa.State, stop state = stopAt state)
    (arrives : tables.Arrives stop taken sweep) :
    ∃ (past : List dfa.State) (frontier : dfa.Frontier),
      KeepsStep stopAt taken sweep past frontier := by
  induction arrives with
  | outset =>
    exact ⟨[], Frontier.initial dfa, rfl, tracks_outset represents, Frontier.searched_initial dfa,
      List.nil_append _⟩
  | @round taken sweep onward state rest _ front goes seen ih =>
    obtain ⟨past, frontier, keeps⟩ := ih
    obtain ⟨next, after, turn, rfl⟩ := keeps.exists_advance? front
    obtain ⟨others, found, queue, discovered, tracks⟩ := keeps.tracks.turn represents turn
    -- The round that the automaton's turn gives is the round that was made.
    cases front.symm.trans queue
    cases seen.symm.trans discovered
    rw [same] at goes
    refine ⟨past ++ [next], after, ?_, tracks, keeps.searched.advance turn, ?_⟩
    · rw [keeps.taken_eq, List.map_append, List.map_singleton]
    · rw [← keeps.turns_eq, Frontier.turns_of_go turn goes, List.append_assoc,
        List.singleton_append]

theorem Arrives.orderly (represents : tables.Represents dfa)
    (arrives : tables.Arrives stop taken sweep) : tables.Orderly taken sweep := by
  have same : ∀ state : dfa.State, stop state = stop state := fun _ => rfl
  obtain ⟨past, frontier, keeps⟩ := arrives.exists_keepsStep represents same
  exact keeps.orderly represents

/-- From the head of its loop a search takes the states that still have their turn. -/
theorem finishes_of_tracks (represents : tables.Represents dfa)
    (same : ∀ state : dfa.State, stop state = stopAt state) {past : List dfa.State}
    {frontier : dfa.Frontier} (tracks : Tracks sweep past frontier)
    (arrives : tables.Arrives stop taken sweep) :
    tables.Finishes stop (taken ++ (frontier.turns stopAt).map Fin.val) := by
  -- The induction is on the turns still to come; each round moves the first of them to `taken`.
  induction frontier using Frontier.turns.induct stopAt generalizing taken sweep past with
  | case1 frontier ended =>
    have drained := tracks.queue_eq
    rw [Frontier.advance?_eq_none_iff.mp ended] at drained
    rw [Frontier.turns_of_none stopAt ended, List.map_nil, List.append_nil]
    exact .drained arrives drained
  | case2 frontier state onward turn stops =>
    obtain ⟨rest, -, front, -, -⟩ := tracks.turn represents turn
    rw [Frontier.turns_of_stop turn stops]
    exact .stopped arrives front ((same state).trans stops)
  | case3 frontier state onward turn goes ih =>
    obtain ⟨rest, next, front, seen, tracked⟩ := tracks.turn represents turn
    have later := ih tracked (.round arrives front (same state ▸ goes) seen)
    rw [List.append_assoc, List.singleton_append] at later
    rw [Frontier.turns_of_go turn goes]
    exact later

/-- **A search ends, in one way only.** The states that it takes from the queue are those that have
their turn in the automaton's own search. -/
theorem finishes_iff (represents : tables.Represents dfa)
    (same : ∀ state : dfa.State, stop state = stopAt state) (taken : List Nat) :
    tables.Finishes stop taken ↔ taken = ((Frontier.initial dfa).turns stopAt).map Fin.val := by
  constructor
  · intro finishes
    cases finishes with
    | drained arrives drained =>
      obtain ⟨past, frontier, keeps⟩ := arrives.exists_keepsStep represents same
      have waiting := keeps.tracks.queue_eq
      rw [drained] at waiting
      have ended := Frontier.advance?_eq_none_iff.mpr (List.map_eq_nil_iff.mp waiting.symm)
      rw [keeps.taken_eq, ← keeps.turns_eq, Frontier.turns_of_none stopAt ended, List.append_nil]
    | stopped arrives front stops =>
      obtain ⟨past, frontier, keeps⟩ := arrives.exists_keepsStep represents same
      obtain ⟨next, onward, turn, rfl⟩ := keeps.exists_advance? front
      rw [same] at stops
      rw [keeps.taken_eq, ← keeps.turns_eq, Frontier.turns_of_stop turn stops, List.map_append,
        List.map_singleton]
  · rintro rfl
    exact finishes_of_tracks represents same (tracks_outset represents) .outset

theorem reachabilityLoop_iff (represents : tables.Represents dfa) (taken : List Nat) :
    tables.ReachabilityLoop taken ↔ taken = dfa.reachable.map Fin.val :=
  finishes_iff represents (fun _ => rfl) taken

theorem emptinessLoop_iff (represents : tables.Represents dfa) (taken : List Nat) :
    tables.EmptinessLoop taken ↔ taken = dfa.emptinessTurns.map Fin.val := by
  unfold EmptinessLoop emptinessTurns
  rw [represents.isEmpty_accepting]
  split
  · exact Iff.rfl
  · exact finishes_iff represents represents.contains_accepting taken

end Tables

/-! ## Bounds -/

variable {dfa : Dfa}

theorem length_reachableNames_le (dfa : Dfa) : dfa.reachableNames.length ≤ dfa.states.length := by
  calc dfa.reachableNames.length = dfa.reachable.length := List.length_map _
    _ ≤ Fintype.card dfa.State := dfa.nodup_reachable.length_le_card
    _ = dfa.states.length := Fintype.card_fin _

/-- The search for an accepting state takes the first turns of the search for all states. -/
theorem emptinessTurns_prefix_reachable (dfa : Dfa) : dfa.emptinessTurns <+: dfa.reachable := by
  unfold emptinessTurns
  split
  · exact List.nil_prefix
  · rw [Frontier.turns_eq_take]
    exact List.take_prefix _ _

/-- **Both searches loop at most once for each reachable state.** The tables of a description have
the results of the automaton that is read from it. Wherever a search over them arrives at the head
of its loop, its queue is in order, and the search goes on from there. The search for all reachable
states takes those states from the queue, and the search for an accepting state those that have
their turn in it; neither takes a state twice. So the first loops as many times as there are
reachable states, which are no more than all states, and the second at most as often. -/
theorem searchLoops_ofJson {value : Json} (read : ofJson value = .ok dfa) :
    ∃ tables, Tables.ofJson value = .ok tables ∧
      tables.isEmpty = .ok dfa.isEmpty ∧ tables.reachableNames = .ok dfa.reachableNames ∧
      (∀ stop taken sweep, tables.Arrives stop taken sweep →
        tables.Orderly taken sweep ∧
          tables.search stop sweep = tables.search stop tables.outset) ∧
      (∀ taken, tables.ReachabilityLoop taken ↔ taken = dfa.reachable.map Fin.val) ∧
      (∀ taken, tables.EmptinessLoop taken ↔ taken = dfa.emptinessTurns.map Fin.val) ∧
      (∀ taken, tables.ReachabilityLoop taken →
        taken.Nodup ∧ taken.length = dfa.reachableNames.length) ∧
      (∀ taken, tables.EmptinessLoop taken →
        taken.Nodup ∧ taken.length ≤ dfa.reachableNames.length) ∧
      dfa.reachableNames.length ≤ dfa.states.length := by
  obtain ⟨tables, built, represents⟩ := Tables.represents_of_ofJson read
  have reachability := Tables.reachabilityLoop_iff represents
  have emptiness := Tables.emptinessLoop_iff represents
  have named : dfa.reachable.length = dfa.reachableNames.length := (List.length_map _).symm
  refine ⟨tables, built, represents.isEmpty_eq_ok, represents.reachableNames_eq_ok,
    fun stop taken sweep arrives => ⟨arrives.orderly represents, arrives.search_eq⟩,
    reachability, emptiness, ?_, ?_, dfa.length_reachableNames_le⟩
  · intro taken loop
    rw [(reachability taken).mp loop, List.length_map]
    exact ⟨dfa.nodup_reachable.map Fin.val_injective, named⟩
  · intro taken loop
    have first := dfa.emptinessTurns_prefix_reachable
    rw [(emptiness taken).mp loop, List.length_map, ← named]
    exact ⟨(dfa.nodup_reachable.sublist first.sublist).map Fin.val_injective, first.length_le⟩

/-- In the crossing the first round discovers two states, the search for all states has four rounds,
and the search for an accepting state stops in the third. -/
theorem searchLoops_crossing :
    ofJson crossingDescription.toJson = .ok crossing ∧
      ∃ tables, Tables.ofJson crossingDescription.toJson = .ok tables ∧
        tables.Arrives (fun _ => false) [3] ⟨[3, 2, 1], [2, 1]⟩ ∧
        tables.Orderly [3] ⟨[3, 2, 1], [2, 1]⟩ ∧
        tables.ReachabilityLoop [3, 2, 1, 0] ∧ tables.EmptinessLoop [3, 2, 1] := by
  have read : ofJson crossingDescription.toJson = .ok crossing := rfl
  have reached : [3, 2, 1, 0] = crossing.reachable.map Fin.val := by decide +kernel
  have turns : [3, 2, 1] = crossing.emptinessTurns.map Fin.val := by decide +kernel
  obtain ⟨tables, built, -, -, orderly, reachability, emptiness, -⟩ := searchLoops_ofJson read
  have arrives : tables.Arrives (fun _ => false) [3] ⟨[3, 2, 1], [2, 1]⟩ := by
    cases built
    exact .round .outset rfl Bool.false_ne_true rfl
  exact ⟨read, tables, built, arrives, (orderly _ _ _ arrives).1, (reachability _).mpr reached,
    (emptiness _).mpr turns⟩

end Dfa

end AutomataKit
