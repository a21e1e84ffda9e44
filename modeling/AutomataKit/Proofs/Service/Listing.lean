import AutomataKit.Proofs.Dfa.EarlyExit
import AutomataKit.Proofs.Dfa.SmallAutomata
import AutomataKit.Proofs.Machine.DeciderTable
import AutomataKit.Proofs.Service.Agreement
import AutomataKit.Proofs.Service.Status

/-!
# What is listed can be posted

One endpoint lists the automata with two states over an alphabet, the others take a description of
an automaton. Whatever is listed is a description that they all answer
(`Service.listing_post`). From the start state `q0` at most `q1` is reached besides, so the states
that are reported are one of two lists.
-/

namespace AutomataKit

namespace Dfa

/-- Of two states the search finds the first one, or both in their order. -/
theorem reachableNames_of_pair {dfa : Dfa} {first second : String}
    (states : dfa.states = [first, second]) (start : dfa.name dfa.start = first) :
    dfa.reachableNames = [first] ∨ dfa.reachableNames = [first, second] := by
  have head : dfa.reachableNames.head? = some first := by
    rw [reachableNames, List.head?_map, head?_reachable, Option.map_some, start]
  obtain ⟨rest, found⟩ := List.head?_eq_some_iff.mp head
  have distinct := dfa.nodup_reachableNames
  rw [found] at distinct ⊢
  obtain ⟨once, distinct⟩ := List.nodup_cons.mp distinct
  have others : ∀ name ∈ rest, name = second := by
    intro name member
    have reached : name ∈ dfa.reachableNames := found ▸ List.mem_cons_of_mem first member
    obtain ⟨state, -, rfl⟩ := List.mem_map.mp reached
    have known := dfa.name_mem state
    rw [states, List.mem_cons, List.mem_singleton] at known
    exact known.resolve_left fun same => once (same ▸ member)
  rw [List.eq_replicate_of_mem others] at distinct ⊢
  have few := List.nodup_replicate.mp distinct
  generalize rest.length = count at few
  cases count with
  | zero => exact .inl rfl
  | succ more =>
    obtain rfl := Nat.le_zero.mp (Nat.le_of_succ_le_succ few)
    exact .inr rfl

/-- The language is empty when no state that is found is listed as accepting. -/
theorem isEmpty_ofDocument_iff {doc : Document} (sound : doc.WellFormed) :
    (ofDocument doc sound).isEmpty = true ↔
      ∀ name ∈ (ofDocument doc sound).reachableNames, name ∉ doc.acceptNames := by
  rw [← Bool.not_eq_false, isEmpty_eq_false_iff_reachable, reachableNames]
  simp only [accepts_ofDocument_iff, List.forall_mem_map, not_exists, not_and]

end Dfa

namespace Service

/-! ## Listing -/

/-- The whole number that a member of a body states. When there is no such member it is a standard
one. -/
inductive GivesInt (members : List (String × Json)) (key : String) (standard : Int) : Int → Prop
  | stated {value : Int} (entry : members.lookup key = some (.int value)) :
      GivesInt members key standard value
  | absent (entry : members.lookup key = none) : GivesInt members key standard standard

theorem integer_of_givesInt {members : List (String × Json)} {key : String} {standard value : Int}
    (given : GivesInt members key standard value) :
    integer ((members.lookup key).getD (.int standard)) = .ok value := by
  cases given with
  | stated entry =>
    rw [entry]
    rfl
  | absent entry =>
    rw [entry]
    rfl

section

variable {members : List (String × Json)} {alphabet : List String} {count maxStates : Int}

/-- Automata are listed for an alphabet and integers, as long as their number can be written. -/
theorem enumerate_of_given (listed : members.lookup "alphabet" = some (.ofTexts alphabet))
    (distinct : alphabet.Nodup) (counted : GivesInt members "count" 20 count)
    (bounded : GivesInt members "max_states" 2 maxStates)
    (writable : Dfa.Enumeration.size alphabet < 10 ^ Text.digitLimit) :
    enumerate members =
      .ok (.automata (Dfa.Enumeration.enumerate alphabet maxStates count).toList
        (Dfa.Enumeration.size alphabet)) := by
  unfold enumerate defaultCount
  rw [givenAlphabet_eq_ok_iff.mpr ⟨listed, distinct⟩, integer_of_givesInt counted,
    integer_of_givesInt bounded, Nat.pow_eq]
  generalize 10 ^ Text.digitLimit = limit at writable
  change (if limit ≤ Dfa.Enumeration.size alphabet then _ else _) = _
  rw [if_neg (Nat.not_le.mpr writable)]

end

/-! ## Using what is listed -/

/-- The replies to a description with the states `q0` and `q1` of which the first is the start
state. -/
structure Used (description : Dfa.Description) (members : List (String × Json))
    (reply : Endpoint → Reply) : Prop where
  validated : reply .validate = .sound
  converted : (reply .convert).status = 200
  simulated : ∀ input, GivesInput members input → (reply .simulate).status = 200
  searched : ∃ (empty : Bool) (names : List String),
    reply .checkEmpty =
        ⟨200, some (.obj [("empty", .bool empty), ("reachable_states", .ofTexts names)])⟩ ∧
      (names = ["q0"] ∨ names = ["q0", "q1"]) ∧
      (empty = true ↔ ∀ name ∈ names, name ∉ description.acceptStates)

/-- Every entry of the list is put to use by the endpoints. -/
theorem used_entry {alphabet : List String} (distinct : alphabet.Nodup) (index : Nat)
    {body : ByteArray} {members : List (String × Json)} (read : readBody body = .ok (.obj members))
    (entry : members.lookup "dfa" = some (Dfa.Enumeration.entry alphabet index).toJson)
    (maxSteps : Int) :
    Used (Dfa.Enumeration.entry alphabet index) members fun endpoint =>
      post endpoint maxSteps body := by
  have gives : Gives members (Dfa.Enumeration.entry alphabet index).toJson := ⟨entry, rfl⟩
  have valid := Dfa.Enumeration.defect?_entry distinct index
  have found : (Dfa.Enumeration.entry alphabet index).entries.defect? = none := valid
  have sound := Dfa.Document.wellFormed_of_defect? found
  have built := Dfa.ofJson_eq_ok_iff.mpr
    ⟨_, sound, Dfa.Description.ofJson_toJson _, found, rfl⟩
  refine ⟨post_validate_of_sound read gives valid, ?_, ?_, ?_⟩
  · rw [post_of_gives read gives (by decide), workOn, readDfa, built]
    rfl
  · intro input given
    rw [post_of_gives read gives (by decide), workOn_simulate given, readDfa, built]
    rfl
  · have states := Dfa.Description.stateNames_entries (Dfa.Enumeration.entry alphabet index)
    have start := Dfa.name_start_ofDocument sound
    have empty := Dfa.isEmpty_ofDocument_iff sound
    rw [Dfa.Description.acceptNames_entries] at empty
    refine ⟨_, _, ?_, Dfa.reachableNames_of_pair states start, empty⟩
    rw [post_of_gives read gives (by decide), workOn, readDfa, built]
    rfl

/-- **What is listed and what becomes of it.** The reply names as many automata as were requested,
up to the number of all of them, and whichever of them is posted is answered by every endpoint that
takes a description. No trouble comes up on the way. -/
theorem listing_post {body : ByteArray} {members : List (String × Json)}
    (read : readBody body = .ok (.obj members)) {alphabet : List String}
    (listed : members.lookup "alphabet" = some (.ofTexts alphabet)) (distinct : alphabet.Nodup)
    {count maxStates : Int} (counted : GivesInt members "count" 20 count)
    (bounded : GivesInt members "max_states" 2 maxStates)
    (writable : 2 ^ (2 * alphabet.length) * 4 < 10 ^ Text.digitLimit) (maxSteps : Int) :
    let dfas := (Dfa.Enumeration.enumerate alphabet maxStates count).toList
    let total := 2 ^ (2 * alphabet.length) * 4
    (∀ (endpoint : Endpoint) (other : ByteArray),
      Reply.ofAttempt (attempt endpoint maxSteps other) = post endpoint maxSteps other) ∧
    post .enumerate maxSteps body = ⟨200, some (.obj [
      ("dfas", .arr (dfas.map Dfa.Description.toJson)),
      ("count", .int dfas.length), ("total", .int (total : Nat))])⟩ ∧
    (dfas.length : Int) = min (max count 0) (total : Nat) ∧
    ∀ description ∈ dfas, ∀ (other : ByteArray) (given : List (String × Json)),
      readBody other = .ok (.obj given) → given.lookup "dfa" = some description.toJson →
        Used description given fun endpoint => post endpoint maxSteps other := by
  intro dfas total
  refine ⟨fun endpoint other => ofAttempt_attempt endpoint maxSteps other, ?_, ?_, ?_⟩
  · have answered : handle .enumerate maxSteps (.obj members) = enumerate members := rfl
    rw [post_of_readBody read, answered,
      enumerate_of_given listed distinct counted bounded writable]
    rfl
  · have length : dfas.length = Dfa.Enumeration.supply alphabet count :=
      Array.length_toList.trans (Dfa.Enumeration.size_enumerate alphabet maxStates count)
    have size : Dfa.Enumeration.size alphabet = total := rfl
    rw [length, Dfa.Enumeration.supply, size]
    omega
  · intro description member other given readOther entry
    have taken : dfas = _ := Dfa.Enumeration.toList_enumerate alphabet maxStates count
    rw [taken] at member
    obtain ⟨index, -, rfl⟩ := List.mem_map.mp member
    exact used_entry distinct index readOther entry maxSteps

/-- A request for seven automata over one letter. -/
def sevenBody : ByteArray := "\x7b\"alphabet\":[\"a\"],\"count\":7\x7d".toUTF8

/-- The last of the seven, and an input. It goes from one state to the other at each letter. -/
def togglingBody : ByteArray :=
  "\x7b\"dfa\":\x7b\"states\":[\"q0\",\"q1\"],\"alphabet\":[\"a\"],
\"transitions\":\x7b\"q0\":\x7b\"a\":\"q1\"\x7d,\"q1\":\x7b\"a\":\"q0\"\x7d\x7d,
\"start_state\":\"q0\",\"accept_states\":[\"q1\"]\x7d,\"input\":\"a\"\x7d".toUTF8

set_option maxRecDepth 4000 in
/-- Seven of the sixteen automata are listed, and the last of them is put to use. -/
theorem listing_post_toggling :
    (post .enumerate 9 sevenBody).status = 200 ∧
      (Dfa.Enumeration.enumerate ["a"] 2 7).toList.length = 7 ∧
      post .validate 9 togglingBody = .sound ∧ (post .convert 9 togglingBody).status = 200 ∧
      (post .simulate 9 togglingBody).status = 200 ∧
      (post .checkEmpty 9 togglingBody).status = 200 := by
  have read : readBody sevenBody =
      .ok (.obj [("alphabet", .ofTexts ["a"]), ("count", .int 7)]) :=
    readBody_of_read? (by decide +kernel) (by decide +kernel) rfl
  have readLast : readBody togglingBody =
      .ok (.obj [("dfa", (Dfa.Enumeration.entry ["a"] 6).toJson), ("input", .str "a")]) :=
    readBody_of_read? (by decide +kernel) (by decide +kernel) rfl
  have writable : 2 ^ (2 * ["a"].length) * 4 < 10 ^ Text.digitLimit :=
    Nat.lt_of_lt_of_le (by decide : _ < 10 ^ 2) (Nat.pow_le_pow_right (by decide) (by decide))
  obtain ⟨-, replied, length, uses⟩ :=
    listing_post read rfl (by decide) (.stated rfl) (.absent rfl) writable 9
  have member : Dfa.Enumeration.entry ["a"] 6 ∈ (Dfa.Enumeration.enumerate ["a"] 2 7).toList := by
    rw [Dfa.Enumeration.toList_enumerate]
    exact List.mem_map_of_mem (by decide)
  have used := uses _ member togglingBody _ readLast rfl
  obtain ⟨empty, names, searched, -⟩ := used.searched
  refine ⟨by rw [replied], ?_, used.validated, used.converted, used.simulated "a" (.text rfl),
    by rw [searched]⟩
  exact Int.ofNat_inj.mp (length.trans (by decide))

end Service

end AutomataKit
