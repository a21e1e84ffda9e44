import Mathlib.Data.List.Induction
import Mathlib.Data.List.Nodup
import AutomataKit.Proofs.Dfa.Search
import AutomataKit.Proofs.Dfa.WordOrder

/-!
# The order of the search

A breadth-first search comes to the states in the order of their access words. At every turn the
seen states stand in this order, and none of them has a later word than any extension of the word
of a waiting state (`Dfa.Frontier.Ordered`). The state in front of the queue then has the first
word of all states without a turn, so what is discovered from it has its word and one symbol more
(`Dfa.Frontier.Ordered.access_discovered`), and joins the queue behind what was seen before.
-/

namespace AutomataKit

namespace Dfa

variable {dfa : Dfa}

namespace Frontier

/-! ## What a turn discovers -/

/-- Discovery puts unseen states at the end of the queue, in the order in which they first occur. -/
theorem exists_discovered (frontier : dfa.Frontier) (distinct : frontier.unseen.Nodup)
    (states : List dfa.State) :
    ∃ fresh, (frontier.discover states).waiting = frontier.waiting ++ fresh ∧
      (∀ state ∈ fresh, state ∈ frontier.unseen ∧ state ∈ states) ∧
      fresh.Pairwise fun first second => states.idxOf first < states.idxOf second := by
  induction states generalizing frontier with
  | nil => exact ⟨[], (List.append_nil _).symm, by simp, .nil⟩
  | cons state rest ih =>
    -- States other than the first are one place further in the whole list than in the rest.
    have shift {fresh : List dfa.State} (others : ∀ later ∈ fresh, later ≠ state)
        (inOrder : fresh.Pairwise fun first second => rest.idxOf first < rest.idxOf second) :
        fresh.Pairwise fun first second =>
          (state :: rest).idxOf first < (state :: rest).idxOf second := by
      refine inOrder.imp_of_mem fun {first second} firstMember secondMember before => ?_
      rw [List.idxOf_cons_ne rest (others first firstMember).symm,
        List.idxOf_cons_ne rest (others second secondMember).symm]
      exact Nat.succ_lt_succ before
    by_cases unseen : state ∈ frontier.unseen
    · obtain ⟨fresh, grown, origin, inOrder⟩ :=
        ih ⟨frontier.waiting ++ [state], frontier.unseen.erase state⟩ (distinct.erase state)
      have others (later : dfa.State) (member : later ∈ fresh) : later ≠ state :=
        (distinct.mem_erase_iff.mp (origin later member).1).1
      refine ⟨state :: fresh, ?_, ?_, ?_⟩
      · rw [discover_cons_of_mem unseen, grown, List.append_assoc, List.singleton_append]
      · intro later member
        rcases List.mem_cons.mp member with rfl | member
        · exact ⟨unseen, List.mem_cons_self⟩
        · obtain ⟨before, among⟩ := origin later member
          exact ⟨List.mem_of_mem_erase before, List.mem_cons_of_mem state among⟩
      · refine List.pairwise_cons.mpr ⟨?_, shift others inOrder⟩
        intro later member
        rw [List.idxOf_cons_self, List.idxOf_cons_ne rest (others later member).symm]
        exact Nat.succ_pos _
    · obtain ⟨fresh, grown, origin, inOrder⟩ := ih frontier distinct
      have others (later : dfa.State) (member : later ∈ fresh) : later ≠ state :=
        fun same => unseen (same ▸ (origin later member).1)
      refine ⟨fresh, ?_, ?_, shift others inOrder⟩
      · rw [discover_cons_of_not_mem unseen, grown]
      · intro later member
        obtain ⟨before, among⟩ := origin later member
        exact ⟨before, List.mem_cons_of_mem state among⟩

/-- The place of a successor is that of the first symbol that leads to it. -/
theorem exists_first_symbol {state successor : dfa.State}
    (member : successor ∈ dfa.successors state) :
    ∃ symbol : dfa.Symbol, symbol.val = (dfa.successors state).idxOf successor ∧
      dfa.next state symbol = successor ∧
      ∀ other, dfa.next state other = successor → symbol ≤ other := by
  have inside := List.idxOf_lt_length_of_mem member
  have length : (dfa.successors state).length = dfa.alphabet.length := by simp [successors]
  have entry (symbol : dfa.Symbol) (bound : symbol.val < (dfa.successors state).length) :
      (dfa.successors state)[symbol.val] = dfa.next state symbol := by
    simp [successors]
  refine ⟨⟨(dfa.successors state).idxOf successor, by rwa [← length]⟩, rfl, ?_, ?_⟩
  · rw [← entry]
    exact List.getElem_idxOf inside
  · intro other leads
    apply Nat.le_of_not_lt
    intro before
    have differs := List.not_of_lt_findIdx before
    rw [entry, leads] at differs
    simp at differs

/-! ## The invariant -/

/-- **The order of a search.** The search had the turns of the states `past` and comes to a
frontier. -/
structure Ordered (past : List dfa.State) (frontier : dfa.Frontier) : Prop where
  /-- The seen states stand in the order of their access words. -/
  sorted : (past ++ frontier.waiting).Pairwise fun earlier later =>
    rank (dfa.access earlier) < rank (dfa.access later)
  /-- Whatever extends the word of a waiting state comes after the word of every seen state. -/
  ahead : ∀ seen ∈ past ++ frontier.waiting, ∀ state ∈ frontier.waiting, ∀ symbol,
    rank (dfa.access seen) < rank (dfa.access state ++ [symbol])

variable (dfa) in
theorem ordered_initial : Ordered [] (initial dfa) where
  sorted := List.pairwise_singleton _ _
  ahead := by
    intro seen seenMember state member symbol
    rw [List.mem_singleton.mp seenMember, List.mem_singleton.mp member]
    exact rank_lt_concat _ symbol

namespace Ordered

variable {past : List dfa.State} {frontier : dfa.Frontier} {state : dfa.State}
  {rest : List dfa.State}

theorem rank_access_lt_of_mem_rest (ordered : Ordered past frontier)
    (waiting : frontier.waiting = state :: rest) {other : dfa.State} (member : other ∈ rest) :
    rank (dfa.access state) < rank (dfa.access other) := by
  have queue := (List.pairwise_append.mp ordered.sorted).2.1
  rw [waiting] at queue
  exact (List.pairwise_cons.mp queue).1 other member

theorem rank_access_le_of_mem_waiting (ordered : Ordered past frontier)
    (waiting : frontier.waiting = state :: rest) {other : dfa.State}
    (member : other ∈ frontier.waiting) :
    rank (dfa.access state) ≤ rank (dfa.access other) := by
  rw [waiting] at member
  rcases List.mem_cons.mp member with rfl | later
  · exact le_rfl
  · exact (ordered.rank_access_lt_of_mem_rest waiting later).le

/-- No word that leads to a state without a turn is before the word of the state in front. -/
theorem rank_access_le_of_not_mem_past (ordered : Ordered past frontier)
    (searched : Searched past frontier) (waiting : frontier.waiting = state :: rest)
    (word : List dfa.Symbol) (later : dfa.after dfa.start word ∉ past) :
    rank (dfa.access state) ≤ rank word := by
  have bound {word : List dfa.Symbol} (waits : dfa.after dfa.start word ∈ frontier.waiting) :
      rank (dfa.access state) ≤ rank word :=
    (ordered.rank_access_le_of_mem_waiting waiting waits).trans (rank_access_le rfl)
  -- Where the word without its last symbol leads to a state that had its turn, the word leads to
  -- a seen one, which waits. Otherwise the shorter word is bounded already.
  induction word using List.reverseRecOn with
  | nil => exact bound ((List.mem_append.mp (searched.seen searched.started)).resolve_left later)
  | append_singleton word symbol ih =>
    by_cases before : dfa.after dfa.start word ∈ past
    · have seen := searched.seen (searched.closed _ before symbol)
      rw [after_append, after_cons, after_nil] at later
      apply bound
      rw [after_append, after_cons, after_nil]
      exact (List.mem_append.mp seen).resolve_left later
    · exact ((ih before).trans_lt (rank_lt_concat word symbol)).le

/-- What is discovered is reached first through the state whose turn it is, by the first symbol that
leads to it. -/
theorem access_discovered (ordered : Ordered past frontier) (searched : Searched past frontier)
    (waiting : frontier.waiting = state :: rest) {symbol : dfa.Symbol}
    (unseen : dfa.next state symbol ∈ frontier.unseen)
    (first : ∀ other, dfa.next state other = dfa.next state symbol → symbol ≤ other) :
    dfa.access (dfa.next state symbol) = dfa.access state ++ [symbol] := by
  have arrives : dfa.after dfa.start (dfa.access state) = state := by
    apply after_access
    apply searched.reached
    rw [waiting]
    exact List.mem_append_right past List.mem_cons_self
  apply access_eq_of_first
  · rw [after_append, arrives, after_cons, after_nil]
  · intro other leads
    rcases List.eq_nil_or_concat' other with rfl | ⟨word, last, rfl⟩
    · exact absurd unseen (leads ▸ searched.started)
    · rw [after_append, after_cons, after_nil] at leads
      have later : dfa.after dfa.start word ∉ past := fun member =>
        searched.closed _ member last (leads ▸ unseen)
      rcases (ordered.rank_access_le_of_not_mem_past searched waiting word later).eq_or_lt with
        same | before
      · have source := rank_injective same
        rw [← source, arrives] at leads
        rw [← source]
        rcases (first last leads).eq_or_lt with rfl | after
        · exact le_rfl
        · exact (rank_concat_lt_of_lt _ after).le
      · exact (rank_concat_lt_concat before symbol last).le

/-- Every turn preserves the order. -/
theorem advance (ordered : Ordered past frontier) (searched : Searched past frontier)
    {onward : dfa.Frontier} (turn : frontier.advance? = some (state, onward)) :
    Ordered (past ++ [state]) onward := by
  obtain ⟨rest, waiting, rfl⟩ := advance?_eq_some_iff.mp turn
  obtain ⟨fresh, grown, origin, inOrder⟩ :=
    exists_discovered ⟨rest, frontier.unseen⟩ searched.nodup_unseen (dfa.successors state)
  have front : state ∈ frontier.waiting := by
    rw [waiting]
    exact List.mem_cons_self
  have discovered (other : dfa.State) (member : other ∈ fresh) : ∃ symbol : dfa.Symbol,
      symbol.val = (dfa.successors state).idxOf other ∧
        dfa.access other = dfa.access state ++ [symbol] := by
    obtain ⟨unseen, among⟩ := origin other member
    obtain ⟨symbol, place, rfl, first⟩ := exists_first_symbol among
    exact ⟨symbol, place, ordered.access_discovered searched waiting unseen first⟩
  have behind (other : dfa.State) (member : other ∈ rest ++ fresh) :
      rank (dfa.access state) < rank (dfa.access other) := by
    rcases List.mem_append.mp member with earlier | later
    · exact ordered.rank_access_lt_of_mem_rest waiting earlier
    · obtain ⟨symbol, -, access⟩ := discovered other later
      rw [access]
      exact rank_lt_concat _ symbol
  have places : past ++ [state] ++ (rest ++ fresh) = past ++ frontier.waiting ++ fresh := by
    rw [waiting, List.append_assoc, List.append_assoc, List.singleton_append, List.cons_append]
  refine ⟨?_, ?_⟩
  · rw [grown, places]
    refine List.pairwise_append.mpr ⟨ordered.sorted, ?_, ?_⟩
    · refine inOrder.imp_of_mem fun {first second} firstMember secondMember before => ?_
      obtain ⟨symbol, place, access⟩ := discovered first firstMember
      obtain ⟨other, otherPlace, otherAccess⟩ := discovered second secondMember
      rw [access, otherAccess]
      apply rank_concat_lt_of_lt
      rw [Fin.lt_def, place, otherPlace]
      exact before
    · intro seen seenMember other member
      obtain ⟨symbol, -, access⟩ := discovered other member
      rw [access]
      exact ordered.ahead seen seenMember state front symbol
  · rw [grown, places]
    intro seen seenMember other member symbol
    have extended := rank_concat_lt_concat (behind other member)
    rcases List.mem_append.mp seenMember with earlier | later
    · exact (ordered.ahead seen earlier state front symbol).trans (extended symbol symbol)
    · obtain ⟨last, -, access⟩ := discovered seen later
      rw [access]
      exact extended last symbol

end Ordered

end Frontier

/-! ## The states found -/

/-- The states are found in the order of their access words. -/
theorem sorted_reachable (dfa : Dfa) :
    dfa.reachable.Pairwise fun earlier later =>
      rank (dfa.access earlier) < rank (dfa.access later) := by
  obtain ⟨onward, ⟨-, ordered⟩, -⟩ := Frontier.holds_turns
    (fun past frontier => Frontier.Searched past frontier ∧ Frontier.Ordered past frontier)
    (fun _ _ _ _ known turn => ⟨known.1.advance turn, known.2.advance known.1 turn⟩)
    ⟨Frontier.searched_initial dfa, Frontier.ordered_initial dfa⟩ fun _ => false
  exact (List.pairwise_append.mp ordered.sorted).1

/-- The start state is found first. -/
theorem head?_reachable (dfa : Dfa) : dfa.reachable.head? = some dfa.start := by
  obtain ⟨onward, turn⟩ : ∃ onward, (Frontier.initial dfa).advance? = some (dfa.start, onward) :=
    ⟨_, rfl⟩
  rw [reachable, Frontier.turns_of_go turn Bool.false_ne_true]
  rfl

/-- Read as names, the states found are those to which the description leads. -/
theorem mem_reachableNames_iff {doc : Document} (sound : doc.WellFormed) (name : String) :
    name ∈ (ofDocument doc sound).reachableNames ↔
      ∃ word, doc.IsWord word ∧ doc.follow? doc.startName word = some name := by
  unfold reachableNames
  rw [List.mem_map, ← name_start_ofDocument sound]
  constructor
  · rintro ⟨state, found, rfl⟩
    obtain ⟨word, rfl⟩ := (mem_reachable_iff state).mp found
    exact ⟨_, isWord_spell sound word, follow?_name_spell sound _ word⟩
  · rintro ⟨word, symbols, leads⟩
    obtain ⟨positions, rfl⟩ := exists_spell_eq sound symbols
    rw [follow?_name_spell] at leads
    exact ⟨_, (mem_reachable_iff _).mpr ⟨positions, rfl⟩, Option.some.inj leads⟩

/-- **The reachable states of a description.** They are those to which sequences of symbols lead
from the start state. Each is listed once, the start state first, in the order of the first
sequences that lead to them. -/
theorem reachableNames_ofJson {value : Json} {dfa : Dfa} (read : ofJson value = .ok dfa) :
    ∃ doc, Document.ofJson value = .ok doc ∧ doc.WellFormed ∧
      (∀ state, state ∈ dfa.reachableNames ↔
        ∃ word, doc.IsWord word ∧ doc.follow? doc.startName word = some state) ∧
      dfa.reachableNames.Nodup ∧
      dfa.reachableNames.head? = some doc.startName ∧
      ∃ access : String → List String,
        (∀ state ∈ dfa.reachableNames, doc.IsAccess state (access state)) ∧
        dfa.reachableNames.Pairwise fun earlier later =>
          doc.Precedes (access earlier) (access later) := by
  obtain ⟨doc, sound, entries, -, rfl⟩ := ofJson_eq_ok_iff.mp read
  have injective : Function.Injective (ofDocument doc sound).name :=
    fun _ _ => (ofDocument doc sound).name_injective
  obtain ⟨access, named⟩ : ∃ access : String → List String, ∀ state,
      access ((ofDocument doc sound).name state) =
        (ofDocument doc sound).spell ((ofDocument doc sound).access state) :=
    ⟨Function.extend (ofDocument doc sound).name _ fun _ => [],
      fun state => injective.extend_apply _ _ state⟩
  refine ⟨doc, entries, sound, mem_reachableNames_iff sound, ?_, ?_, access, ?_, ?_⟩
  · exact List.Nodup.map injective (nodup_reachable _)
  · rw [reachableNames, List.head?_map, head?_reachable, Option.map_some, name_start_ofDocument]
  · intro name member
    obtain ⟨state, found, rfl⟩ := List.mem_map.mp member
    rw [named]
    exact isAccess_spell sound ((mem_reachable_iff state).mp found)
  · refine List.pairwise_map.mpr ((sorted_reachable _).imp fun {earlier later} before => ?_)
    rw [named, named]
    exact precedes_spell sound before

/-- A state that is reached by two symbols in either order, one state that is not reached, and an
alphabet out of its usual order. -/
def crossingDescription : Description where
  states := ["both", "x", "y", "none", "lost"]
  alphabet := ["y", "x"]
  transitions := .ofList [
    ("none", .ofList [("x", "x"), ("y", "y")]),
    ("x", .ofList [("x", "x"), ("y", "both")]),
    ("y", .ofList [("x", "both"), ("y", "none")]),
    ("both", .ofList [("x", "both"), ("y", "both")]),
    ("lost", .ofList [("x", "lost"), ("y", "none")])]
  startState := "none"
  acceptStates := ["lost", "x", "both"]

/-- The automaton of this description. -/
def crossing : Dfa where
  states := ["both", "x", "y", "none", "lost"]
  alphabet := ["y", "x"]
  table := #v[#v[0, 0], #v[0, 1], #v[3, 0], #v[2, 1], #v[3, 4]]
  start := 3
  accepting := #v[true, true, false, false, true]
  states_nodup := by decide
  alphabet_nodup := by decide

/-- In the crossing the symbol that is named last stands first, and so does the state behind it. -/
theorem reachableNames_crossing :
    ofJson crossingDescription.toJson = .ok crossing ∧
      crossing.reachableNames = ["none", "y", "x", "both"] ∧
      ∃ doc, Document.ofJson crossingDescription.toJson = .ok doc ∧
        (∀ word, doc.IsWord word → doc.follow? doc.startName word ≠ some "lost") ∧
        ∃ access : String → List String, doc.IsAccess "y" (access "y") ∧
          doc.IsAccess "both" (access "both") ∧ doc.Precedes (access "y") (access "x") ∧
          doc.Precedes (access "x") (access "both") := by
  have read : ofJson crossingDescription.toJson = .ok crossing := rfl
  have found : crossing.reachableNames = ["none", "y", "x", "both"] := by decide +kernel
  obtain ⟨doc, entries, -, reached, -, -, access, first, sorted⟩ := reachableNames_ofJson read
  rw [found] at reached first sorted
  refine ⟨read, found, doc, entries, ?_, access, first _ (by decide), first _ (by decide), ?_⟩
  · intro word symbols leads
    exact absurd ((reached "lost").mpr ⟨word, symbols, leads⟩) (by decide)
  · simp only [List.pairwise_cons, List.mem_cons] at sorted
    obtain ⟨-, before, later, -⟩ := sorted
    exact ⟨before "x" (.inl rfl), later "both" (.inl rfl)⟩

end Dfa

end AutomataKit
