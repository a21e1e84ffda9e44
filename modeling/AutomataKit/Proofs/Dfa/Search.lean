import AutomataKit.Dfa.Reachability
import AutomataKit.Proofs.Dfa.Words

/-!
# The invariant of the search

At every turn of the search each state is in one of three places: it had its turn, it waits for it,
or it is unseen. The states seen are reached by words, and the successors of a state that had its
turn are seen (`Dfa.Frontier.Searched`). So once no state waits, the states that had their turn are
those to which words lead (`Dfa.Frontier.Searched.mem_past_iff`), and the search from the start
finds each of these once (`Dfa.mem_reachable_iff`, `Dfa.nodup_reachable`).
-/

namespace AutomataKit

namespace Dfa

namespace Frontier

variable {dfa : Dfa}

/-! ## Discovery -/

/-- An unseen state is put behind those that wait. -/
theorem discover_cons_of_mem {frontier : dfa.Frontier} {state : dfa.State}
    (unseen : state ∈ frontier.unseen) (rest : List dfa.State) :
    frontier.discover (state :: rest) =
      discover ⟨frontier.waiting ++ [state], frontier.unseen.erase state⟩ rest := by
  unfold discover
  rw [List.foldl_cons, if_pos unseen]

/-- A state that was seen is passed over. -/
theorem discover_cons_of_not_mem {frontier : dfa.Frontier} {state : dfa.State}
    (seen : state ∉ frontier.unseen) (rest : List dfa.State) :
    frontier.discover (state :: rest) = frontier.discover rest := by
  unfold discover
  rw [List.foldl_cons, if_neg seen]

/-- Discovery moves states from the unseen to the waiting. -/
theorem perm_discover (frontier : dfa.Frontier) (states : List dfa.State) :
    ((frontier.discover states).waiting ++ (frontier.discover states).unseen).Perm
      (frontier.waiting ++ frontier.unseen) := by
  induction states generalizing frontier with
  | nil => exact List.Perm.refl _
  | cons state rest ih =>
    by_cases unseen : state ∈ frontier.unseen
    · rw [discover_cons_of_mem unseen]
      apply (ih _).trans
      rw [List.append_assoc, List.singleton_append]
      exact (List.perm_cons_erase unseen).symm.append_left frontier.waiting
    · rw [discover_cons_of_not_mem unseen]
      exact ih frontier

/-- What waits after a discovery waited before or was discovered. -/
theorem mem_waiting_discover {frontier : dfa.Frontier} {states : List dfa.State}
    {state : dfa.State} (waits : state ∈ (frontier.discover states).waiting) :
    state ∈ frontier.waiting ∨ state ∈ states := by
  induction states generalizing frontier with
  | nil => exact .inl waits
  | cons first rest ih =>
    by_cases unseen : first ∈ frontier.unseen
    · rw [discover_cons_of_mem unseen] at waits
      rcases ih waits with before | discovered
      · rcases List.mem_append.mp before with before | single
        · exact .inl before
        · exact .inr (List.mem_cons.mpr (.inl (List.mem_singleton.mp single)))
      · exact .inr (List.mem_cons_of_mem first discovered)
    · rw [discover_cons_of_not_mem unseen] at waits
      rcases ih waits with before | discovered
      · exact .inl before
      · exact .inr (List.mem_cons_of_mem first discovered)

/-- A discovery leaves unseen what was unseen and is not discovered. -/
theorem mem_unseen_discover (frontier : dfa.Frontier) (distinct : frontier.unseen.Nodup)
    {states : List dfa.State} {state : dfa.State} :
    state ∈ (frontier.discover states).unseen ↔ state ∈ frontier.unseen ∧ state ∉ states := by
  induction states generalizing frontier with
  | nil => exact ⟨fun unseen => ⟨unseen, List.not_mem_nil⟩, And.left⟩
  | cons first rest ih =>
    by_cases unseen : first ∈ frontier.unseen
    · rw [discover_cons_of_mem unseen, ih _ (distinct.erase first), distinct.mem_erase_iff,
        List.mem_cons, not_or]
      constructor
      · rintro ⟨⟨different, before⟩, others⟩
        exact ⟨before, different, others⟩
      · rintro ⟨before, different, others⟩
        exact ⟨⟨different, before⟩, others⟩
    · rw [discover_cons_of_not_mem unseen, ih _ distinct, List.mem_cons, not_or]
      constructor
      · rintro ⟨before, others⟩
        exact ⟨before, fun same => unseen (same ▸ before), others⟩
      · rintro ⟨before, -, others⟩
        exact ⟨before, others⟩

/-- The successors of a state are those to which the symbols lead. -/
theorem mem_successors {state successor : dfa.State} :
    successor ∈ dfa.successors state ↔ ∃ symbol, dfa.next state symbol = successor := by
  simp [successors]

/-- The state in front takes its turn; what remains is what its successors leave. -/
theorem advance?_eq_some_iff {frontier onward : dfa.Frontier} {state : dfa.State} :
    frontier.advance? = some (state, onward) ↔
      ∃ rest, frontier.waiting = state :: rest ∧
        onward = discover ⟨rest, frontier.unseen⟩ (dfa.successors state) := by
  unfold advance?
  cases waiting : frontier.waiting with
  | nil => simp
  | cons first rest =>
    constructor
    · rintro ⟨⟩
      exact ⟨rest, rfl, rfl⟩
    · rintro ⟨others, ⟨⟩, rfl⟩
      rfl

/-- There is no turn left when no state waits. -/
theorem advance?_eq_none_iff {frontier : dfa.Frontier} :
    frontier.advance? = none ↔ frontier.waiting = [] := by
  unfold advance?
  cases frontier.waiting <;> simp

/-- A search without a turn left is over. -/
theorem turns_of_none {frontier : dfa.Frontier} (stop : dfa.State → Bool)
    (ended : frontier.advance? = none) : frontier.turns stop = [] := by
  rw [turns, ended]

/-- A search that is told to stop has that turn as its last. -/
theorem turns_of_stop {frontier onward : dfa.Frontier} {stop : dfa.State → Bool}
    {state : dfa.State} (turn : frontier.advance? = some (state, onward))
    (stops : stop state = true) : frontier.turns stop = [state] := by
  rw [turns, turn]
  exact if_pos stops

/-- A search that is not told to stop goes on. -/
theorem turns_of_go {frontier onward : dfa.Frontier} {stop : dfa.State → Bool}
    {state : dfa.State} (turn : frontier.advance? = some (state, onward))
    (goes : ¬ stop state = true) : frontier.turns stop = state :: onward.turns stop := by
  rw [turns, turn]
  exact if_neg goes

/-- **From turns to whole searches.** What each turn preserves holds at the end of a search: then no
state waits, or a state at which the search stops had its turn. -/
theorem holds_turns (holds : List dfa.State → dfa.Frontier → Prop)
    (preserved : ∀ past frontier state onward, holds past frontier →
      frontier.advance? = some (state, onward) → holds (past ++ [state]) onward)
    {past : List dfa.State} {frontier : dfa.Frontier} (initially : holds past frontier)
    (stop : dfa.State → Bool) :
    ∃ onward, holds (past ++ frontier.turns stop) onward ∧
      (onward.waiting = [] ∨ ∃ state ∈ frontier.turns stop, stop state = true) := by
  induction frontier using turns.induct stop generalizing past with
  | case1 frontier ended =>
    rw [turns_of_none stop ended, List.append_nil]
    exact ⟨frontier, initially, .inl (advance?_eq_none_iff.mp ended)⟩
  | case2 frontier state onward turn stops =>
    rw [turns_of_stop turn stops]
    have holdsOnward := preserved past frontier state onward initially turn
    exact ⟨onward, holdsOnward, .inr ⟨state, List.mem_cons_self, stops⟩⟩
  | case3 frontier state onward turn goes ih =>
    rw [turns_of_go turn goes]
    obtain ⟨last, holdsLast, ended⟩ := ih (preserved past frontier state onward initially turn)
    rw [List.append_assoc, List.singleton_append] at holdsLast
    refine ⟨last, holdsLast, ended.imp_right ?_⟩
    rintro ⟨other, member, stops⟩
    exact ⟨other, List.mem_cons_of_mem state member, stops⟩

/-! ## The invariant -/

/-- **The invariant.** The search had the turns of the states `past` and comes to a frontier. -/
structure Searched (past : List dfa.State) (frontier : dfa.Frontier) : Prop where
  /-- Every state is in one place. -/
  partition :
    (past ++ (frontier.waiting ++ frontier.unseen)).Perm (List.finRange dfa.states.length)
  /-- The start state is seen. -/
  started : dfa.start ∉ frontier.unseen
  /-- The successors of a state that had its turn are seen. -/
  closed : ∀ state ∈ past, ∀ symbol, dfa.next state symbol ∉ frontier.unseen
  /-- A seen state is reached by some word. -/
  reached : ∀ state ∈ past ++ frontier.waiting, ∃ word, dfa.after dfa.start word = state

variable (dfa) in
/-- At the outset nothing had its turn and the start state waits. -/
theorem searched_initial : Searched [] (initial dfa) where
  partition := (List.perm_cons_erase (List.mem_finRange dfa.start)).symm
  started := by
    intro unseen
    have distinct := List.nodup_finRange dfa.states.length
    exact (distinct.mem_erase_iff.mp unseen).1 rfl
  closed := by
    intro state member
    cases member
  reached := by
    intro state member
    rw [List.mem_singleton.mp member]
    exact ⟨[], rfl⟩

namespace Searched

variable {past : List dfa.State} {frontier : dfa.Frontier}

/-- No state stands in two places, nor twice in one. -/
theorem nodup (searched : Searched past frontier) :
    (past ++ (frontier.waiting ++ frontier.unseen)).Nodup :=
  searched.partition.nodup_iff.mpr (List.nodup_finRange _)

/-- No state is unseen twice. -/
theorem nodup_unseen (searched : Searched past frontier) : frontier.unseen.Nodup := by
  obtain ⟨-, later, -⟩ := List.nodup_append.mp searched.nodup
  exact (List.nodup_append.mp later).2.1

/-- What is not unseen had its turn or waits for it. -/
theorem seen (searched : Searched past frontier) {state : dfa.State}
    (known : state ∉ frontier.unseen) : state ∈ past ++ frontier.waiting := by
  have placed := searched.partition.mem_iff.mpr (List.mem_finRange state)
  rw [← List.append_assoc] at placed
  rcases List.mem_append.mp placed with seen | unseen
  · exact seen
  · exact absurd unseen known

/-- Every turn preserves the invariant. -/
theorem advance (searched : Searched past frontier) {state : dfa.State} {onward : dfa.Frontier}
    (turn : frontier.advance? = some (state, onward)) : Searched (past ++ [state]) onward := by
  obtain ⟨rest, waiting, rfl⟩ := advance?_eq_some_iff.mp turn
  have unseen_iff (other : dfa.State) :
      other ∈ (discover ⟨rest, frontier.unseen⟩ (dfa.successors state)).unseen ↔
        other ∈ frontier.unseen ∧ other ∉ dfa.successors state :=
    mem_unseen_discover ⟨rest, frontier.unseen⟩ searched.nodup_unseen
  have front : state ∈ past ++ frontier.waiting := by
    rw [waiting]
    exact List.mem_append_right past List.mem_cons_self
  obtain ⟨word, arrives⟩ := searched.reached state front
  refine ⟨?_, ?_, ?_, ?_⟩
  · refine List.Perm.trans ?_ searched.partition
    rw [waiting, List.append_assoc, List.singleton_append, List.cons_append]
    exact ((perm_discover _ _).cons state).append_left past
  · intro unseen
    exact searched.started ((unseen_iff _).mp unseen).1
  · intro earlier member symbol unseen
    obtain ⟨before, fresh⟩ := (unseen_iff _).mp unseen
    rcases List.mem_append.mp member with earlier | single
    · exact searched.closed _ earlier symbol before
    · rw [List.mem_singleton.mp single] at fresh
      exact fresh (mem_successors.mpr ⟨symbol, rfl⟩)
  · intro other member
    have origin : other ∈ past ++ frontier.waiting ∨ other ∈ dfa.successors state := by
      rw [List.append_assoc, List.singleton_append] at member
      rcases List.mem_append.mp member with earlier | later
      · exact .inl (List.mem_append_left _ earlier)
      · rcases List.mem_cons.mp later with rfl | waits
        · exact .inl front
        · rcases mem_waiting_discover waits with before | discovered
          · refine .inl (List.mem_append_right past ?_)
            rw [waiting]
            exact List.mem_cons_of_mem state before
          · exact .inr discovered
    rcases origin with known | discovered
    · exact searched.reached other known
    · obtain ⟨symbol, rfl⟩ := mem_successors.mp discovered
      refine ⟨word ++ [symbol], ?_⟩
      rw [after_append, arrives]
      rfl

/-- **The invariant at the end.** A search keeps the invariant until no state waits or a state at
which it stops had its turn. -/
theorem searched_turns (searched : Searched past frontier) (stop : dfa.State → Bool) :
    ∃ onward, Searched (past ++ frontier.turns stop) onward ∧
      (onward.waiting = [] ∨ ∃ state ∈ frontier.turns stop, stop state = true) :=
  holds_turns Searched (fun _ _ _ _ known turn => known.advance turn) searched stop

/-- When no state waits, a word leads from a state that had its turn to another such. -/
theorem after_mem_past (searched : Searched past frontier) (drained : frontier.waiting = [])
    {state : dfa.State} (member : state ∈ past) (word : List dfa.Symbol) :
    dfa.after state word ∈ past := by
  induction word generalizing state with
  | nil => exact member
  | cons symbol rest ih =>
    have known := searched.seen (searched.closed state member symbol)
    rw [drained, List.append_nil] at known
    exact ih known

/-- **What a finished search has found.** When no state waits, the states that had their turn are
those to which words lead. -/
theorem mem_past_iff (searched : Searched past frontier) (drained : frontier.waiting = [])
    (state : dfa.State) : state ∈ past ↔ ∃ word, dfa.after dfa.start word = state := by
  constructor
  · intro member
    exact searched.reached state (List.mem_append_left _ member)
  · rintro ⟨word, rfl⟩
    have start := searched.seen searched.started
    rw [drained, List.append_nil] at start
    exact searched.after_mem_past drained start word

end Searched

end Frontier

/-- The states found from the start state are those to which words lead from it. -/
theorem mem_reachable_iff {dfa : Dfa} (state : dfa.State) :
    state ∈ dfa.reachable ↔ ∃ word, dfa.after dfa.start word = state := by
  obtain ⟨onward, searched, ended⟩ :=
    (Frontier.searched_initial dfa).searched_turns fun _ => false
  rcases ended with drained | ⟨_, -, ⟨⟩⟩
  exact searched.mem_past_iff drained state

/-- No state is found twice. -/
theorem nodup_reachable (dfa : Dfa) : dfa.reachable.Nodup := by
  obtain ⟨onward, searched, -⟩ :=
    (Frontier.searched_initial dfa).searched_turns fun _ => false
  exact (List.nodup_append.mp searched.nodup).1

/-- No name is reported twice. -/
theorem nodup_reachableNames (dfa : Dfa) : dfa.reachableNames.Nodup :=
  List.pairwise_map.mpr (dfa.nodup_reachable.imp fun different same =>
    different (dfa.name_injective same))

end Dfa

end AutomataKit
