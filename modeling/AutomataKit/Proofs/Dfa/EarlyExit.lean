import AutomataKit.Proofs.Dfa.Emptiness
import AutomataKit.Proofs.Dfa.SearchOrder

/-!
# The search that stops early

The search for an accepting state and the search for all reachable states take the same turns. The
first ends with the turn of the first state at which it stops (`Dfa.Frontier.turns_eq_take`), and is
not made at all when no state accepts. So its turns are the reachable states up to the first
accepting one (`Dfa.emptinessTurns_ofJson`).
-/

namespace AutomataKit

namespace Dfa

variable {dfa : Dfa}

/-- A search that stops takes the turns of one that does not, up to the first state at which it
stops. -/
theorem Frontier.turns_eq_take (stop : dfa.State → Bool) (frontier : dfa.Frontier) :
    frontier.turns stop =
      (frontier.turns fun _ => false).take ((frontier.turns fun _ => false).findIdx stop + 1) := by
  induction frontier using turns.induct stop with
  | case1 frontier ended =>
    rw [turns_of_none stop ended, turns_of_none _ ended, List.take_nil]
  | case2 frontier state onward turn stops =>
    rw [turns_of_stop turn stops, turns_of_go turn Bool.false_ne_true, List.findIdx_cons, stops,
      cond_true, List.take_succ_cons, List.take_zero]
  | case3 frontier state onward turn goes ih =>
    rw [turns_of_go turn goes, turns_of_go turn Bool.false_ne_true, List.findIdx_cons,
      Bool.eq_false_of_not_eq_true goes, cond_false, List.take_succ_cons, ← ih]

/-- Some word is accepted exactly when a reachable state accepts. -/
theorem isEmpty_eq_false_iff_reachable :
    dfa.isEmpty = false ↔ ∃ state ∈ dfa.reachable, dfa.accepts state = true := by
  simp only [isEmpty_eq_false_iff, mem_reachable_iff, exists_exists_eq_and]

/-- No state accepts exactly when the description lists none. -/
theorem acceptStates_eq_nil_iff {doc : Document} (sound : doc.WellFormed) :
    (ofDocument doc sound).acceptStates = [] ↔ doc.acceptNames = [] := by
  rw [List.eq_nil_iff_forall_not_mem, List.eq_nil_iff_forall_not_mem]
  simp only [mem_acceptStates, accepts_ofDocument_iff]
  constructor
  · intro none name listed
    obtain ⟨state, rfl⟩ := (ofDocument doc sound).exists_name_eq (sound.accept_mem name listed)
    exact none state listed
  · intro none state
    exact none _

/-- **Two searches, one order.** The search for an accepting state finds one exactly when an
accepting state is among the reachable ones. The states that have their turn in it are the reachable
states up to the first accepting one, all of them if none accepts, and no states at all if the
description lists no accepting state. -/
theorem emptinessTurns_ofJson {value : Json} {dfa : Dfa} (read : ofJson value = .ok dfa) :
    ∃ doc, Document.ofJson value = .ok doc ∧ doc.WellFormed ∧
      (dfa.isEmpty = false ↔ ∃ state ∈ dfa.reachableNames, state ∈ doc.acceptNames) ∧
      dfa.emptinessTurns.map dfa.name =
        if doc.acceptNames = [] then []
        else dfa.reachableNames.take (dfa.reachableNames.findIdx (· ∈ doc.acceptNames) + 1) := by
  obtain ⟨doc, sound, entries, -, rfl⟩ := ofJson_eq_ok_iff.mp read
  refine ⟨doc, entries, sound, ?_, ?_⟩
  · rw [isEmpty_eq_false_iff_reachable]
    simp only [reachableNames, List.mem_map, exists_exists_and_eq_and, accepts_ofDocument_iff]
  · unfold emptinessTurns
    simp only [List.isEmpty_iff, acceptStates_eq_nil_iff]
    split
    · rfl
    · have same : (fun name => decide (name ∈ doc.acceptNames)) ∘ (ofDocument doc sound).name =
          (ofDocument doc sound).accepts := by
        funext state
        rw [Bool.eq_iff_iff, accepts_ofDocument_iff]
        exact decide_eq_true_iff
      rw [Frontier.turns_eq_take, reachableNames, List.findIdx_map, same, List.map_take]
      rfl

/-- In the crossing the search ends at its third state, although a state after it and one that is
not reached accept as well. -/
theorem emptinessTurns_crossing :
    ofJson crossingDescription.toJson = .ok crossing ∧
      crossing.emptinessTurns.map crossing.name = ["none", "y", "x"] ∧
      crossing.reachableNames = ["none", "y", "x", "both"] ∧ crossing.isEmpty = false := by
  have read : ofJson crossingDescription.toJson = .ok crossing := rfl
  have found : crossing.reachableNames = ["none", "y", "x", "both"] := by decide +kernel
  obtain ⟨doc, entries, -, decided, turns⟩ := emptinessTurns_ofJson read
  cases entries
  rw [found] at decided turns
  exact ⟨read, turns, found, decided.mpr ⟨"x", by decide, by decide⟩⟩

end Dfa

end AutomataKit
