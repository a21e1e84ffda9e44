import AutomataKit.Dfa.Reachability
import AutomataKit.Dfa.Run
import AutomataKit.Machine.OfDfa
import AutomataKit.Proofs.Dfa.Validity

/-!
# Operations on tables by look-ups that can fail

An automaton carries the proofs that its transitions stay among its states, so its operations have
nothing to go wrong with. Here the same operations are written as on plain data: the checks look
names up among the members of objects, tables of numbers are built through a dictionary of
positions, and each operation indexes these tables. Every look-up may fail, and a `Dfa.Fault` says
how. `Dfa.attempt` checks a value, builds its tables and performs an operation on them.
-/

namespace AutomataKit

namespace Dfa

/-- Why an operation on a value gives no result. -/
inductive Fault where
  /-- The value was checked and describes no automaton. -/
  | invalid (reason : String)
  /-- A name is looked up where it is not stored. -/
  | noKey (name : Json)
  /-- A list or an object is looked up as a name. -/
  | noName (value : Json)
  /-- A value is not of the kind that is needed. -/
  | wrongKind (value : Json)
  /-- A position is beyond the end of a list. -/
  | noEntry (index : Nat)

/-! ## Look-ups -/

/-- The members of a value that has to be an object. -/
def membersOf : Json → Except Fault (List (String × Json))
  | .obj members => .ok members
  | value => .error (.wrongKind value)

/-- The elements of a value that has to be a list. -/
def itemsOf : Json → Except Fault (List Json)
  | .arr items => .ok items
  | value => .error (.wrongKind value)

/-- The text of a value that has to be a string. -/
def textOf : Json → Except Fault String
  | .str text => .ok text
  | value => .error (.wrongKind value)

/-- The texts of a value that has to be a list of strings. -/
def namesOf (value : Json) : Except Fault (List String) := do (← itemsOf value).mapM textOf

/-- The value stored under a name among members, if there is one. Any value can be looked up that
can be a name. -/
def seek (members : List (String × Json)) (name : Json) : Except Fault (Option Json) :=
  if name.key?.isSome then .ok (Json.member? members name) else .error (.noName name)

/-- The value stored under a name in an object. -/
def fetch (value name : Json) : Except Fault Json := do
  match ← seek (← membersOf value) name with
  | some found => .ok found
  | none => .error (.noKey name)

/-- The entry at an index, which has to lie inside. -/
def entryAt {α : Type} (entries : List α) (index : Nat) : Except Fault α :=
  match entries[index]? with
  | some entry => .ok entry
  | none => .error (.noEntry index)

/-- The position under which a name is stored, which has to be there. -/
def positionOf (positions : OrderedMap String Nat) (name : Json) : Except Fault Nat := do
  match positions.find? (← textOf name) with
  | some position => .ok position
  | none => .error (.noKey name)

/-! ## The checks -/

/-- The defect of the entry for a symbol in the row of a state. -/
def checkTarget (states : List Json) (state : Json) (row : List (String × Json)) (symbol : Json) :
    Except Fault (Option Defect) := do
  match ← seek row symbol with
  | none => return some (.noTarget state symbol)
  | some _ =>
    let target ← fetch (.obj row) symbol
    return if target.Among states then none else some (.unknownTarget state symbol target)

/-- The first defect of the row of a state. -/
def checkRow (states alphabet : List Json) (rows : List (String × Json)) (state : Json) :
    Except Fault (Option Defect) := do
  match ← seek rows state with
  | some (.obj row) => alphabet.findSomeM? (checkTarget states state row)
  | _ => return some (.noRow state)

/-- The first defect of a description. Names are looked up only after the two lists of names were
found to have no repetition. -/
def checkDocument (doc : Document) : Except Fault (Option Defect) := do
  match Document.namesDefect? .states doc.states <|>
      Document.namesDefect? .alphabet doc.alphabet with
  | some defect => return some defect
  | none =>
    match doc.transitions with
    | .obj rows =>
      match ← doc.states.items.findSomeM? (checkRow doc.states.items doc.alphabet.items rows) with
      | some defect => return some defect
      | none => return doc.startDefect? <|> doc.acceptDefect?
    | _ => return some .transitionsNotObject

/-- The first defect of a value. -/
def check (value : Json) : Except Fault (Option Defect) :=
  match Document.ofJson value with
  | .error defect => .ok (some defect)
  | .ok doc => checkDocument doc

/-! ## Tables -/

/-- An automaton as plain data. States and symbols are numbered in the order of their names. -/
structure Tables where
  states : List String
  symbols : List String
  /-- For each state the row of its successors, one for each symbol. -/
  rows : List (List Nat)
  start : Nat
  accepting : List Nat

namespace Tables

/-- The position of the state to which the transitions of a value lead. -/
def targetOf (value : Json) (positions : OrderedMap String Nat) (state symbol : String) :
    Except Fault Nat := do
  let row ← fetch (← fetch value (.str Entry.transitions.key)) (.str state)
  positionOf positions (← fetch row (.str symbol))

/-- Build the tables of a value, which is taken to describe an automaton. -/
def ofJson (value : Json) : Except Fault Tables := do
  let states ← namesOf (← fetch value (.str Entry.states.key))
  let symbols ← namesOf (← fetch value (.str Entry.alphabet.key))
  let positions := OrderedMap.ofList states.zipIdx
  let rows ← states.mapM fun state => symbols.mapM (targetOf value positions state)
  let start ← positionOf positions (← fetch value (.str Entry.startState.key))
  let listed ← itemsOf (← fetch value (.str Entry.acceptStates.key))
  let accepting ← listed.mapM (positionOf positions)
  return ⟨states, symbols, rows, start, accepting⟩

variable (tables : Tables)

/-- The successor of a state on a symbol, by their indices. -/
def step (state symbol : Nat) : Except Fault Nat := do
  entryAt (← entryAt tables.rows state) symbol

/-- The name of a state by its index. -/
def name (state : Nat) : Except Fault String := entryAt tables.states state

/-! ## Operations -/

/-- Read characters from a state on, with the number of characters read before and the transitions
taken so far. -/
def runFrom (state position : Nat) (path : List (String × Char × String)) :
    List Char → Except Fault Run
  | [] => return ⟨path, ← tables.name state, tables.accepting.contains state, none⟩
  | c :: rest =>
    match tables.symbols.idxOf? (String.singleton c) with
    | none => return ⟨path, ← tables.name state, false, some ⟨c, position⟩⟩
    | some symbol => do
      let successor ← tables.step state symbol
      let taken := (← tables.name state, c, ← tables.name successor)
      runFrom successor (position + 1) (path ++ [taken]) rest

/-- Run the tables on a text from the start state. -/
def run (text : String) : Except Fault Run := tables.runFrom tables.start 0 [] text.toList

/-- The transition of the machine from a state on a symbol, both with their names. -/
def machineEntry (state : String) (index : Nat) (symbol : String) (position : Nat) :
    Except Fault ((String × String) × Transition) := do
  let next ← tables.name (← tables.step index position)
  return ((state, symbol), ⟨next, symbol, .right⟩)

/-- The transitions of the machine from a state: one for each symbol, and the decision. -/
def machineRow (accept reject blank state : String) (index : Nat) :
    Except Fault (List ((String × String) × Transition)) := do
  let row ← tables.symbols.zipIdx.mapM fun (symbol, position) =>
    tables.machineEntry state index symbol position
  let verdict := if tables.accepting.contains index then accept else reject
  return row ++ [((state, blank), ⟨verdict, blank, .right⟩)]

/-- The machine that decides the language, with its transitions entered one by one. -/
def toMachine : Except Fault TuringMachine := do
  let accept := freshName "q_accept" tables.states
  let reject := freshName "q_reject" (tables.states ++ [accept])
  let blank := freshName "_" tables.symbols
  let rows ← tables.states.zipIdx.mapM fun (state, index) =>
    tables.machineRow accept reject blank state index
  return {
    states := tables.states ++ [accept, reject]
    alphabet := tables.symbols ++ [blank]
    transitions := .ofList rows.flatten
    start := ← tables.name tables.start
    accept, reject, blank }

/-- The states that a search has seen, in order, and those that wait for their turn. -/
structure Sweep where
  order : List Nat
  queue : List Nat

/-- A state not yet seen joins the queue. -/
def Sweep.see (sweep : Sweep) (state : Nat) : Sweep :=
  if state ∈ sweep.order then sweep else ⟨sweep.order ++ [state], sweep.queue ++ [state]⟩

/-- See the successors of a state under some symbols, from left to right. -/
def seeSuccessors (sweep : Sweep) (state : Nat) (symbols : List Nat) : Except Fault Sweep :=
  symbols.foldlM (fun sweep symbol => do return sweep.see (← tables.step state symbol)) sweep

/-- What a search has still to do: the entries of the table that are not seen, and the turns. -/
def pending (sweep : Sweep) : Nat :=
  (tables.rows.flatten.filter (· ∉ sweep.order)).length + sweep.queue.length

variable {tables}

/-- What is found at an index is one of the entries. -/
theorem mem_of_entryAt {α : Type} {entries : List α} {index : Nat} {entry : α}
    (found : entryAt entries index = .ok entry) : entry ∈ entries := by
  unfold entryAt at found
  split at found
  · rename_i stored
    cases found
    exact List.mem_of_getElem? stored
  · cases found

/-- A successor stands in one of the rows. -/
theorem mem_of_step {state symbol successor : Nat}
    (stepped : tables.step state symbol = .ok successor) : successor ∈ tables.rows.flatten := by
  obtain ⟨row, found, entry⟩ := bind_eq_ok_iff.mp stepped
  exact List.mem_flatten.mpr ⟨row, mem_of_entryAt found, mem_of_entryAt entry⟩

/-- A state that is seen for the first time waits for its turn from then on, and the entries with
its number are seen. -/
theorem pending_see_le (sweep : Sweep) {state : Nat} (member : state ∈ tables.rows.flatten) :
    tables.pending (sweep.see state) ≤ tables.pending sweep := by
  unfold Sweep.see
  split
  · exact Nat.le_refl _
  · rename_i unseen
    have fewer : (tables.rows.flatten.filter (· ∉ sweep.order ++ [state])).length <
        (tables.rows.flatten.filter (· ∉ sweep.order)).length := by
      have shrunk : tables.rows.flatten.filter (· ∉ sweep.order ++ [state]) =
          (tables.rows.flatten.filter (· ∉ sweep.order)).filter (· ≠ state) := by
        rw [List.filter_filter]
        refine List.filter_congr fun other _ => ?_
        simp [and_comm]
      rw [shrunk, List.length_filter_lt_length_iff_exists]
      have fresh : state ∈ tables.rows.flatten.filter (· ∉ sweep.order) :=
        List.mem_filter.mpr ⟨member, decide_eq_true unseen⟩
      exact ⟨state, fresh, by simp⟩
    simp only [pending, List.length_append, List.length_singleton]
    omega

/-- A successor that is seen for the first time moves from the entries to the queue, so no more is
pending than before. -/
theorem pending_seeSuccessors_le {sweep onward : Sweep} {state : Nat} {symbols : List Nat}
    (seen : tables.seeSuccessors sweep state symbols = .ok onward) :
    tables.pending onward ≤ tables.pending sweep := by
  induction symbols generalizing sweep with
  | nil =>
    cases seen
    exact Nat.le_refl _
  | cons symbol rest ih =>
    obtain ⟨next, first, later⟩ := bind_eq_ok_iff.mp seen
    obtain ⟨successor, stepped, equal⟩ := bind_eq_ok_iff.mp first
    cases equal
    exact Nat.le_trans (ih later) (pending_see_le sweep (mem_of_step stepped))

variable (tables)

/-- Search breadth first, and say which states were seen, in order, and whether the search stopped
at one of them. -/
def search (stop : Nat → Bool) (sweep : Sweep) : Except Fault (List Nat × Bool) :=
  match _waiting : sweep.queue with
  | [] => .ok (sweep.order, false)
  | state :: rest =>
    if stop state then .ok (sweep.order, true)
    else
      match _seen : tables.seeSuccessors ⟨sweep.order, rest⟩ state
          (List.range tables.symbols.length) with
      | .error fault => .error fault
      | .ok onward => search stop onward
termination_by tables.pending sweep
decreasing_by
  have fewer := pending_seeSuccessors_le _seen
  have turn : tables.pending sweep = tables.pending ⟨sweep.order, rest⟩ + 1 := by
    simp only [pending, _waiting, List.length_cons]
    omega
  omega

variable {tables} in
/-- A search ends when no state waits. -/
theorem search_of_drained (stop : Nat → Bool) {sweep : Sweep} (drained : sweep.queue = []) :
    tables.search stop sweep = .ok (sweep.order, false) := by
  rw [search, drained]

variable {tables} in
/-- A search ends at a state at which it is told to stop. -/
theorem search_of_stop {stop : Nat → Bool} {sweep : Sweep} {state : Nat} {rest : List Nat}
    (waiting : sweep.queue = state :: rest) (stops : stop state = true) :
    tables.search stop sweep = .ok (sweep.order, true) := by
  rw [search, waiting]
  exact if_pos stops

variable {tables} in
/-- A search goes on with the successors of the state that waits longest. -/
theorem search_of_go {stop : Nat → Bool} {sweep onward : Sweep} {state : Nat} {rest : List Nat}
    (waiting : sweep.queue = state :: rest) (goes : ¬ stop state = true)
    (seen : tables.seeSuccessors ⟨sweep.order, rest⟩ state (List.range tables.symbols.length) =
      .ok onward) :
    tables.search stop sweep = tables.search stop onward := by
  rw [search, waiting]
  refine (if_neg goes).trans ?_
  rw [seen]

/-- The search begins with the start state, which is found and waits. -/
def outset : Sweep := ⟨[tables.start], [tables.start]⟩

/-- Whether no text is accepted. No search is made when there is no accepting state. -/
def isEmpty : Except Fault Bool := do
  if tables.accepting.isEmpty then return true
  let (_, found) ← tables.search tables.accepting.contains tables.outset
  return !found

/-- The names of the states reachable from the start state, in breadth-first order. -/
def reachableNames : Except Fault (List String) := do
  let (order, _) ← tables.search (fun _ => false) tables.outset
  order.mapM tables.name

end Tables

/-- Check a value and perform an operation on its tables. -/
def attempt {α : Type} (value : Json) (operation : Tables → Except Fault α) : Except Fault α := do
  match ← check value with
  | some defect => .error (.invalid defect.message)
  | none => operation (← Tables.ofJson value)

end Dfa

end AutomataKit
